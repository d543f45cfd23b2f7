import Mathlib.Algebra.GroupWithZero.Nat
import StreamUP.Foundation.Run

/-! Systems whose steps carry out runs of another one, most of them short or empty. -/

namespace Simulation

open Run

variable {σ ε φ τ α ψ : Type}

section Emitted

variable (step : σ → ε → Except φ σ) (emit : σ → ε → List α)

/-- The actions that the steps of a run carry out, in their order. -/
def emitted : σ → List ε → List α
  -- Behind a step that fails there are none.
  | _, [] => []
  | state, event :: rest =>
    match step state event with
    | .ok next => emit state event ++ emitted next rest
    | .error _ => []

/-- The actions of a first step that succeeds come first. -/
theorem emitted_cons {state next : σ} {event : ε} (stepped : step state event = .ok next)
    (rest : List ε) :
    emitted step emit state (event :: rest)
      = emit state event ++ emitted step emit next rest := by
  rw [emitted, stepped]

/-- The actions of a run in two parts are those of the first part, and then of the second. -/
theorem emitted_append {state middle : σ} {before : List ε}
    (arrived : run step state before = .ok middle) (after : List ε) :
    emitted step emit state (before ++ after)
      = emitted step emit state before ++ emitted step emit middle after := by
  -- The induction is on the first part, which moves the starting state.
  induction before generalizing state with
  | nil =>
    cases arrived
    rfl
  | cons event rest ih =>
    obtain ⟨next, stepped, arrived⟩ := (run_cons_ok step).mp arrived
    rw [List.cons_append, emitted_cons step emit stepped, emitted_cons step emit stepped,
      ih arrived, List.append_assoc]

end Emitted

/-- A step carries out some actions of another system, and the states stay related. -/
def Simulates (step : σ → ε → Except φ σ) (emit : σ → ε → List α) (act : τ → α → Except ψ τ)
    (related : σ → τ → Prop) : Prop :=
  ∀ state event next shadow, related state shadow → step state event = .ok next →
    ∃ after, run act shadow (emit state event) = .ok after ∧ related next after

/-- A run carries out a run of the other system, and ends in a state related to its end. -/
theorem Simulates.run {step : σ → ε → Except φ σ} {emit : σ → ε → List α}
    {act : τ → α → Except ψ τ} {related : σ → τ → Prop}
    (simulates : Simulates step emit act related) {start final : σ} {events : List ε} {shadow : τ}
    (entry : related start shadow) (arrived : Run.run step start events = .ok final) :
    ∃ after, Run.run act shadow (emitted step emit start events) = .ok after ∧
      related final after := by
  -- The induction follows the run, and the other system moves on with it.
  induction events generalizing start shadow with
  | nil =>
    cases arrived
    exact ⟨shadow, rfl, entry⟩
  | cons event rest ih =>
    obtain ⟨next, stepped, arrived⟩ := (run_cons_ok step).mp arrived
    obtain ⟨middle, acted, still⟩ := simulates _ _ _ _ entry stepped
    obtain ⟨after, onwards, holds⟩ := ih still arrived
    rw [emitted_cons step emit stepped]
    exact ⟨after, (run_append_ok act).mpr ⟨middle, acted, onwards⟩, holds⟩

/-- A sum over the members of a system is smaller when it is for one of them. -/
theorem sum_set_lt {sizes : List Nat} {index size smaller : Nat}
    (there : sizes[index]? = some size) (less : smaller < size) :
    (sizes.set index smaller).sum < sizes.sum := by
  induction sizes generalizing index with
  | nil => contradiction
  | cons first rest ih =>
    cases index with
    | zero =>
      cases there
      simp only [List.set_cons_zero, List.sum_cons]
      omega
    | succ index =>
      have further : (rest.set index smaller).sum < rest.sum := ih there
      simp only [List.set_cons_succ, List.sum_cons]
      omega

/-- A system that can always go on until it is done, and gets nearer to that, can be run to it. -/
theorem run_finishes {step : σ → ε → Except φ σ} (invariant done : σ → Prop)
    (good : ε → Prop) (distance : σ → Nat)
    (nearer : ∀ state, invariant state → ¬ done state → ∃ event next, good event ∧
      step state event = .ok next ∧ invariant next ∧ distance next < distance state)
    {state : σ} (entry : invariant state) :
    ∃ events final, (∀ event ∈ events, good event) ∧ Run.run step state events = .ok final ∧
      invariant final ∧ done final := by
  -- The induction is on the distance that is left.
  induction left : distance state using Nat.strongRecOn generalizing state with
  | ind left' ih =>
    subst left
    by_cases finished : done state
    · exact ⟨[], state, fun _ member => absurd member List.not_mem_nil, rfl, entry, finished⟩
    · obtain ⟨event, next, fine, stepped, kept, less⟩ := nearer state entry finished
      obtain ⟨events, final, all, arrived, holds, ended⟩ := ih _ less kept rfl
      refine ⟨event :: events, final, ?_, (run_cons_ok step).mpr ⟨next, stepped, arrived⟩, holds,
        ended⟩
      exact List.forall_mem_cons.mpr ⟨fine, all⟩

end Simulation
