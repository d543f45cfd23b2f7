import StreamUP.Foundation.Machine

/-! Fallible programs that stay in step with a partial function giving their meaning. -/

namespace Refinement

variable {ε α β α' β' : Type}

/-- How a program stops early: with an exit of its own, or in a fault of the machine. -/
inductive Stop (ρ : Type) where
  | returned (reason : ρ)
  | fault (fault : Machine.Fault)
  deriving DecidableEq

instance {ρ : Type} : MonadLift (Except Machine.Fault) (Except (Stop ρ)) where
  monadLift
    | .ok value => .ok value
    | .error fault => .error (.fault fault)

@[simp] theorem monadLift_ok {ρ : Type} (value : α) :
    (monadLift (Except.ok value : Except Machine.Fault α) : Except (Stop ρ) α) = .ok value := rfl

@[simp] theorem monadLift_error {ρ : Type} (fault : Machine.Fault) :
    (monadLift (Except.error fault : Except Machine.Fault α) : Except (Stop ρ) α)
      = .error (.fault fault) := rfl

/-- Leave with the given reason unless the condition holds. -/
def require {ρ : Type} (condition : Bool) (reason : ρ) : Except (Stop ρ) Unit :=
  if condition then .ok () else .error (.returned reason)

/--
A program follows its meaning: it succeeds exactly where the meaning is defined.

The two results are then related, and every failure of the program is of an admitted kind.
-/
def Follows (admitted : ε → Prop) (related : α → β → Prop) : Except ε α → Option β → Prop
  -- Success on one side and failure on the other is never in step.
  | .ok result, some value => related result value
  | .error error, none => admitted error
  | _, _ => False

/-- Exits of a program itself, as opposed to faults. -/
def Stop.IsReturn {ρ : Type} : Stop ρ → Prop
  -- A fault is the only other way to stop.
  | .returned _ => True
  | .fault _ => False

/-- Exits of a program with one and the same reason. -/
def Stop.Leaves {ρ : Type} (reason : ρ) (stop : Stop ρ) : Prop :=
  stop = .returned reason

/-- An exit with a given reason is an exit. -/
theorem Stop.Leaves.isReturn {ρ : Type} {reason : ρ} {stop : Stop ρ}
    (leaves : stop.Leaves reason) : stop.IsReturn := by
  -- The reason does not matter.
  rw [leaves]
  trivial

variable {admitted : ε → Prop} {related : α → β → Prop} {related' : α' → β' → Prop}

/-- Sequencing keeps a program in step when each continuation is. -/
theorem Follows.bind {program : Except ε α} {meaning : Option β} {next : α → Except ε α'}
    {after : β → Option β'} (first : Follows admitted related program meaning)
    (rest : ∀ result value, meaning = some value → related result value →
      Follows admitted related' (next result) (after value)) :
    Follows admitted related' (program >>= next) (meaning.bind after) := by
  -- Both sides fail together, or both hand related results to their continuations.
  cases program with
  | error error =>
    cases meaning with
    | none => exact first
    | some value => exact first.elim
  | ok result =>
    cases meaning with
    | none => exact first.elim
    | some value => exact rest result value rfl first

/-- More kinds of failure may be admitted. -/
theorem Follows.widen {wider : ε → Prop} {program : Except ε α} {meaning : Option β}
    (first : Follows admitted related program meaning)
    (widen : ∀ error, admitted error → wider error) :
    Follows wider related program meaning := by
  -- The admitted failures are only looked at where both sides fail.
  cases program <;> cases meaning
  · exact widen _ first
  · exact first
  · exact first
  · exact first

/-- Where the meaning is defined, the program succeeds with a related result. -/
theorem Follows.ok_of_some {program : Except ε α} {meaning : Option β} {value : β}
    (first : Follows admitted related program meaning) (defined : meaning = some value) :
    ∃ result, program = .ok result ∧ related result value := by
  -- A program that failed would not be in step.
  subst defined
  cases program with
  | error error => exact first.elim
  | ok result => exact ⟨result, rfl, first⟩

/-- Where the program succeeds, the meaning is defined and related to the result. -/
theorem Follows.some_of_ok {program : Except ε α} {meaning : Option β} {result : α}
    (first : Follows admitted related program meaning) (succeeds : program = .ok result) :
    ∃ value, meaning = some value ∧ related result value := by
  -- A meaning that is undefined would not be in step.
  subst succeeds
  cases meaning with
  | none => exact first.elim
  | some value => exact ⟨value, rfl, first⟩

/-- A program that follows a meaning fails in admitted ways only. -/
theorem Follows.admitted_of_error {program : Except ε α} {meaning : Option β} {error : ε}
    (first : Follows admitted related program meaning) (fails : program = .error error) :
    admitted error := by
  -- A meaning that is defined would not be in step.
  subst fails
  cases meaning with
  | none => exact first
  | some value => exact first.elim

/-- A guard passes, or leaves where the meaning is undefined without it. -/
theorem Follows.require {ρ : Type} {condition : Prop} [Decidable condition] {reason : ρ}
    {next : Unit → Except (Stop ρ) α'} {after : Option β'}
    (met : condition → Follows (Stop.Leaves reason) related' (next ()) after)
    (unmet : ¬ condition → after = none) :
    Follows (Stop.Leaves reason) related' (require (decide condition) reason >>= next) after := by
  -- A failed guard is an exit of the program, never a fault.
  by_cases holds : condition
  · rw [decide_eq_true holds]
    exact met holds
  · rw [decide_eq_false holds, unmet holds]
    exact rfl

/-- The meaning of a counted loop: a partial step taken once for each index, in order. -/
def iterate {τ : Type} (meaning : Nat → τ → Option τ) : Nat → τ → Option τ
  -- The last step is peeled off, as it is in the loop.
  | 0, value => some value
  | count + 1, value => (iterate meaning count value).bind (meaning count)

/-- A counted loop follows the iterated meaning when each of its iterations does. -/
theorem Follows.forLoop {σ τ : Type} {body : Nat → σ → Except ε σ}
    (meaning : Nat → τ → Option τ) (related : Nat → σ → τ → Prop) {start : σ} {value : τ}
    {count : Nat} (entry : related 0 start value)
    (iteration : ∀ index state value, index < count → related index state value →
      Follows admitted (related (index + 1)) (body index state) (meaning index value)) :
    Follows admitted (related count) (Machine.forLoop body count start)
      (iterate meaning count value) := by
  -- Both sides peel off their last iteration, so the induction is on the count.
  induction count with
  | zero => exact entry
  | succ count ih =>
    refine (ih fun index state value below => iteration index state value (by omega)).bind ?_
    intro state value _ holds
    exact iteration count state value (by omega) holds

end Refinement
