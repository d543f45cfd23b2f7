import Mathlib.Data.List.Basic
import Mathlib.Data.List.Induction
import Mathlib.Order.Defs.PartialOrder
import StreamUP.Foundation.Fallible

/-! Runs of a fallible step function, what every step of a run meets, and what a run preserves. -/

namespace Run

variable {σ ε φ : Type} (step : σ → ε → Except φ σ)

/-- Execute the events in turn, stopping at the first step that fails. -/
def run : σ → List ε → Except φ σ
  -- A failed step ends the run with its error.
  | state, [] => .ok state
  | state, event :: rest =>
    match step state event with
    | .ok next => run next rest
    | .error error => .error error

/-- Every step of the run meets a condition on the state before it and on its event. -/
def EveryStep (condition : σ → ε → Prop) : σ → List ε → Prop
  -- A run that has failed takes no further steps, so nothing more is asked of it.
  | _, [] => True
  | state, event :: rest =>
    condition state event ∧ ∀ next, step state event = .ok next → EveryStep condition next rest

/-- A property of states holds at every moment of the run, before its first step too. -/
def Always (property : σ → Prop) (start : σ) (events : List ε) : Prop :=
  -- The run is looked at after any number of its events, unless it has failed by then.
  ∀ before after state, events = before ++ after → run step start before = .ok state →
    property state

/-- A state some run of the system arrives at. -/
def Reachable (start state : σ) : Prop :=
  ∃ events, run step start events = .ok state

@[simp] theorem run_nil (state : σ) : run step state [] = .ok state := rfl

/-- A run arrives exactly when its first step does and the rest arrives from there. -/
theorem run_cons_ok {state final : σ} {event : ε} {rest : List ε} :
    run step state (event :: rest) = .ok final ↔
      ∃ next, step state event = .ok next ∧ run step next rest = .ok final := by
  -- A first step that fails leaves nothing to arrive at.
  simp only [run]
  cases step state event <;> simp

/-- Runs compose: a longer run is its first part continued by its second. -/
theorem run_append (state : σ) (before after : List ε) :
    run step state (before ++ after)
      = run step state before >>= fun middle => run step middle after := by
  induction before generalizing state with
  | nil => rfl
  | cons event rest ih =>
    -- Either both sides fail with the first step, or both go on from the state after it.
    simp only [List.cons_append, run]
    cases step state event with
    | error error => rfl
    | ok next => exact ih next

/-- A longer run arrives exactly when its first part does and its second goes on from there. -/
theorem run_append_ok {state final : σ} {before after : List ε} :
    run step state (before ++ after) = .ok final ↔
      ∃ middle, run step state before = .ok middle ∧ run step middle after = .ok final := by
  -- The second part starts where the first one arrives.
  rw [run_append, Fallible.bind_eq_ok]

/-- One more event at the end of a run that arrived is one more step. -/
theorem run_snoc_ok {state final : σ} {before : List ε} {event : ε} :
    run step state (before ++ [event]) = .ok final ↔
      ∃ middle, run step state before = .ok middle ∧ step middle event = .ok final := by
  -- A run of one event is its step.
  simp only [run_append_ok, run_cons_ok, run_nil, Except.ok.injEq, exists_eq_right]

/-- Every step meets a condition exactly when the step after each prefix that arrives does. -/
theorem everyStep_iff {condition : σ → ε → Prop} {state : σ} {events : List ε} :
    EveryStep step condition state events ↔
      ∀ before event after middle, events = before ++ event :: after →
        run step state before = .ok middle → condition middle event := by
  induction events generalizing state with
  | nil => simp [EveryStep]
  | cons first rest ih =>
    simp only [EveryStep, ih]
    constructor
    · intro each before event after middle split arrived
      obtain ⟨now, later⟩ := each
      -- Either the step in question is the first one, or it lies in the rest of the run.
      cases before with
      | nil =>
        simp only [List.nil_append, List.cons.injEq] at split
        simp only [run_nil, Except.ok.injEq] at arrived
        rw [← arrived, ← split.1]
        exact now
      | cons head before =>
        simp only [List.cons_append, List.cons.injEq] at split
        obtain ⟨rfl, rfl⟩ := split
        obtain ⟨next, stepped, arrived⟩ := (run_cons_ok step).mp arrived
        exact later next stepped before event after middle rfl arrived
    · intro each
      refine ⟨each [] first rest state rfl rfl, ?_⟩
      intro next stepped before event after middle split arrived
      exact each (first :: before) event after middle (by rw [split, List.cons_append])
        ((run_cons_ok step).mpr ⟨next, stepped, arrived⟩)

/-- A condition that follows from another one is met wherever that one is. -/
theorem EveryStep.mono {stronger weaker : σ → ε → Prop} {state : σ} {events : List ε}
    (each : EveryStep step stronger state events)
    (follows : ∀ state event, stronger state event → weaker state event) :
    EveryStep step weaker state events := by
  -- The induction follows the run, step by step.
  induction events generalizing state with
  | nil => trivial
  | cons event rest ih =>
    exact ⟨follows state event each.1, fun next stepped => ih (each.2 next stepped)⟩

/-- A condition on events alone is met at every step when all events meet it. -/
theorem everyStep_of_forall {good : ε → Prop} {state : σ} {events : List ε}
    (all : ∀ event ∈ events, good event) :
    EveryStep step (fun _ event => good event) state events := by
  -- The induction follows the run, whose states do not matter.
  induction events generalizing state with
  | nil => trivial
  | cons event rest ih =>
    rw [List.forall_mem_cons] at all
    exact ⟨all.1, fun _ _ => ih all.2⟩

/-- Two conditions are met at every step together when each of them is. -/
theorem EveryStep.and {first second : σ → ε → Prop} {state : σ} {events : List ε}
    (one : EveryStep step first state events) (other : EveryStep step second state events) :
    EveryStep step (fun state event => first state event ∧ second state event) state events := by
  -- The induction follows the run, step by step.
  induction events generalizing state with
  | nil => trivial
  | cons event rest ih =>
    exact ⟨⟨one.1, other.1⟩, fun next stepped => ih (one.2 next stepped) (other.2 next stepped)⟩

/-- What every admitted step preserves, every admitted run preserves. -/
theorem run_invariant {condition : σ → ε → Prop} (invariant : σ → Prop)
    (preserved : ∀ state event next, invariant state → condition state event →
      step state event = .ok next → invariant next)
    {state final : σ} {events : List ε} (entry : invariant state)
    (each : EveryStep step condition state events) (arrived : run step state events = .ok final) :
    invariant final := by
  -- The induction follows the run, so the starting state stays quantified over.
  induction events generalizing state with
  | nil =>
    simp only [run_nil, Except.ok.injEq] at arrived
    exact arrived ▸ entry
  | cons event rest ih =>
    obtain ⟨next, stepped, arrived⟩ := (run_cons_ok step).mp arrived
    exact ih (preserved state event next entry each.1 stepped) (each.2 next stepped) arrived

/-- What every step preserves holds in every reachable state. -/
theorem reachable_invariant (invariant : σ → Prop) {start state : σ} (entry : invariant start)
    (preserved : ∀ state event next, invariant state → step state event = .ok next →
      invariant next)
    (reached : Reachable step start state) : invariant state := by
  -- A reachable state is the end of a run whose steps need no admission.
  obtain ⟨events, arrived⟩ := reached
  have unconditional : EveryStep step (fun _ _ => True) start events :=
    (everyStep_iff step).mpr fun _ _ _ _ _ _ => trivial
  refine run_invariant step invariant ?_ entry unconditional arrived
  intro state event next holds _ stepped
  exact preserved state event next holds stepped

/-- A reflexive and transitive relation that holds across every step holds across every run. -/
theorem run_related {related : σ → σ → Prop} (refl : ∀ state, related state state)
    (trans : ∀ first second third, related first second → related second third →
      related first third)
    (across : ∀ state event next, step state event = .ok next → related state next)
    {state final : σ} {events : List ε} (arrived : run step state events = .ok final) :
    related state final := by
  -- The first step is related to the rest of the run by transitivity.
  induction events generalizing state with
  | nil =>
    simp only [run_nil, Except.ok.injEq] at arrived
    exact arrived ▸ refl state
  | cons event rest ih =>
    obtain ⟨next, stepped, arrived⟩ := (run_cons_ok step).mp arrived
    exact trans state next final (across state event next stepped) (ih arrived)

/-- Where the first step succeeds, a run meets a condition by that step and in what follows. -/
theorem everyStep_cons_of_ok {condition : σ → ε → Prop} {state next : σ} {event : ε}
    {rest : List ε} (stepped : step state event = .ok next) :
    EveryStep step condition state (event :: rest) ↔
      condition state event ∧ EveryStep step condition next rest := by
  -- There is one state after the step.
  simp [EveryStep, stepped]

/-- Whether every step meets a condition is decided by taking the steps. -/
instance decidableEveryStep (condition : σ → ε → Prop)
    [decides : ∀ state event, Decidable (condition state event)] :
    ∀ state events, Decidable (EveryStep step condition state events)
  | _, [] => isTrue trivial
  | state, event :: rest =>
    match stepped : step state event with
    | .ok next =>
      have := decidableEveryStep condition next rest
      decidable_of_iff _ (everyStep_cons_of_ok step stepped).symm
    | .error _ =>
      -- A run that has failed takes no further steps.
      decidable_of_iff (condition state event) (by simp [EveryStep, stepped])

/-- A run of one step meets a condition when that step does. -/
@[simp] theorem everyStep_singleton {condition : σ → ε → Prop} {state : σ} {event : ε} :
    EveryStep step condition state [event] ↔ condition state event := by
  -- Nothing is asked after the only step.
  simp [EveryStep]

/-- A run in two parts meets a condition when its first part does and then its second. -/
theorem everyStep_append {condition : σ → ε → Prop} {state : σ} {before after : List ε} :
    EveryStep step condition state (before ++ after) ↔ EveryStep step condition state before ∧
      ∀ middle, run step state before = .ok middle → EveryStep step condition middle after := by
  -- The induction is on the first part, which moves the starting state.
  induction before generalizing state with
  | nil => simp [EveryStep]
  | cons event rest ih =>
    simp only [List.cons_append, EveryStep, ih, run_cons_ok]
    constructor
    · intro whole
      refine ⟨⟨whole.1, fun next stepped => (whole.2 next stepped).1⟩, ?_⟩
      intro middle arrived
      obtain ⟨next, stepped, arrived⟩ := arrived
      exact (whole.2 next stepped).2 middle arrived
    · intro parts
      refine ⟨parts.1.1, fun next stepped => ⟨parts.1.2 next stepped, ?_⟩⟩
      intro middle arrived
      exact parts.2 middle ⟨next, stepped, arrived⟩

/-- An invariant that admitted steps preserve is met, with the condition, at every step. -/
theorem EveryStep.with_invariant {condition : σ → ε → Prop} (invariant : σ → Prop)
    (preserved : ∀ state event next, invariant state → condition state event →
      step state event = .ok next → invariant next)
    {state : σ} {events : List ε} (entry : invariant state)
    (each : EveryStep step condition state events) :
    EveryStep step (fun state event => invariant state ∧ condition state event) state events := by
  -- The invariant moves along with the run, from each state to the next.
  induction events generalizing state with
  | nil => trivial
  | cons event rest ih =>
    refine ⟨⟨entry, each.1⟩, fun next stepped => ?_⟩
    exact ih (preserved state event next entry each.1 stepped) (each.2 next stepped)

/-- A run whose admitted steps never fail arrives. -/
theorem run_progress {condition : σ → ε → Prop} (invariant : σ → Prop)
    (progress : ∀ state event, invariant state → condition state event →
      ∃ next, step state event = .ok next ∧ invariant next)
    {state : σ} {events : List ε} (entry : invariant state)
    (each : EveryStep step condition state events) :
    ∃ final, run step state events = .ok final ∧ invariant final := by
  -- Each step succeeds and hands the invariant to the rest of the run.
  induction events generalizing state with
  | nil => exact ⟨state, rfl, entry⟩
  | cons event rest ih =>
    obtain ⟨next, stepped, holds⟩ := progress state event entry each.1
    obtain ⟨final, arrived, done⟩ := ih holds (each.2 next stepped)
    exact ⟨final, (run_cons_ok step).mpr ⟨next, stepped, arrived⟩, done⟩

/-- A run that arrives is a run in which no step failed. -/
theorem everyStep_of_run {state final : σ} {events : List ε}
    (arrived : run step state events = .ok final) :
    EveryStep step (fun state event => ∃ next, step state event = .ok next) state events := by
  -- The run names the state after each of its steps.
  induction events generalizing state with
  | nil => trivial
  | cons event rest ih =>
    obtain ⟨next, stepped, arrived⟩ := (run_cons_ok step).mp arrived
    refine ⟨⟨next, stepped⟩, fun other again => ?_⟩
    rw [stepped] at again
    cases again
    exact ih arrived

/-- Where each event alone decides whether its step fails, a run fails on its bad events. -/
theorem run_error_iff {good : ε → Prop}
    (decides : ∀ state event, (∃ next, step state event = .ok next) ↔ good event)
    {state : σ} {events : List ε} :
    (∀ error, run step state events ≠ .error error) ↔ ∀ event ∈ events, good event := by
  -- The induction follows the run, so the starting state stays quantified over.
  induction events generalizing state with
  | nil => simp
  | cons event rest ih =>
    rw [List.forall_mem_cons, ← decides state event]
    cases stepped : step state event with
    | error error =>
      -- A first step that fails is a run that fails.
      simp [run, stepped]
    | ok next =>
      simp only [run, stepped]
      rw [ih]
      simp

/-- A run fails with an error where a part of it arrives and the next step fails so. -/
theorem run_eq_error_iff {state : σ} {events : List ε} {error : φ} :
    run step state events = .error error ↔ ∃ before event after middle,
      events = before ++ event :: after ∧ run step state before = .ok middle ∧
        step middle event = .error error := by
  constructor
  · -- The induction follows the run, up to the first step that fails.
    induction events generalizing state with
    | nil => exact fun failed => by contradiction
    | cons event rest ih =>
      intro failed
      cases stepped : step state event with
      | error _ =>
        rw [run, stepped] at failed
        cases failed
        exact ⟨[], event, rest, state, rfl, rfl, stepped⟩
      | ok next =>
        rw [run, stepped] at failed
        obtain ⟨before, last, after, middle, rfl, arrived, fails⟩ := ih failed
        exact ⟨event :: before, last, after, middle, rfl,
          (run_cons_ok step).mpr ⟨next, stepped, arrived⟩, fails⟩
  · rintro ⟨before, event, after, middle, rfl, arrived, fails⟩
    rw [run_append, arrived]
    show run step middle (event :: after) = .error error
    rw [run, fails]

/-- What every admitted step preserves holds at every moment of an admitted run. -/
theorem always_of_everyStep {condition : σ → ε → Prop} (invariant : σ → Prop)
    (preserved : ∀ state event next, invariant state → condition state event →
      step state event = .ok next → invariant next)
    {start : σ} {events : List ε} (entry : invariant start)
    (each : EveryStep step condition start events) : Always step invariant start events := by
  -- Up to any moment, the run is a run of its own.
  intro before after state split arrived
  rw [split] at each
  have sofar := ((everyStep_append step).mp each).1
  exact run_invariant step invariant preserved entry sofar arrived

/--
A quantity never exceeds the highest peak of a run so far.

It is enough that a step raises the quantity to no more than the peak right after it.
-/
theorem run_le_peak {condition : σ → ε → Prop} (invariant : σ → Prop) {α : Type} [Preorder α]
    (quantity peak : σ → α)
    (raises : ∀ state event next, invariant state → condition state event →
      step state event = .ok next →
        invariant next ∧ (quantity next ≤ quantity state ∨ quantity next ≤ peak next))
    {start final : σ} {events : List ε} (entry : invariant start)
    (low : quantity start ≤ peak start) (each : EveryStep step condition start events)
    (arrived : run step start events = .ok final) :
    ∃ before after moment, events = before ++ after ∧ run step start before = .ok moment ∧
      quantity final ≤ peak moment := by
  -- The induction is on the end of the run, where the newest step may have raised the quantity.
  induction events using List.reverseRecOn generalizing final with
  | nil =>
    cases arrived
    exact ⟨[], [], start, rfl, rfl, low⟩
  | append_singleton events last ih =>
    obtain ⟨middle, sofar, stepped⟩ := (run_snoc_ok step).mp arrived
    obtain ⟨earlier, now⟩ := (everyStep_append step).mp each
    have holds := run_invariant step invariant
      (fun state event next holds admitted stepped =>
        (raises state event next holds admitted stepped).1) entry earlier sofar
    have admitted := (everyStep_singleton step).mp (now middle sofar)
    rcases (raises middle last final holds admitted stepped).2 with less | raised
    · obtain ⟨before, after, moment, split, reached, enough⟩ := ih earlier sofar
      exact ⟨before, after ++ [last], moment, by rw [split, List.append_assoc], reached,
        le_trans less enough⟩
    · exact ⟨events ++ [last], [], final, (List.append_nil _).symm, arrived, raised⟩

/-- A property holds along a run when it holds at its start and from its first step on. -/
theorem always_cons {property : σ → Prop} {start : σ} {event : ε} {rest : List ε} :
    Always step property start (event :: rest) ↔
      property start ∧ ∀ next, step start event = .ok next → Always step property next rest := by
  constructor
  · intro always
    refine ⟨always [] _ start rfl rfl, ?_⟩
    intro next stepped before after state split arrived
    exact always (event :: before) after state (by rw [split, List.cons_append])
      ((run_cons_ok step).mpr ⟨next, stepped, arrived⟩)
  · intro both before after state split arrived
    -- The run is looked at before its first step, or somewhere in its rest.
    cases before with
    | nil =>
      simp only [run_nil, Except.ok.injEq] at arrived
      exact arrived ▸ both.1
    | cons head before =>
      simp only [List.cons_append, List.cons.injEq] at split
      obtain ⟨rfl, rfl⟩ := split
      obtain ⟨next, stepped, arrived⟩ := (run_cons_ok step).mp arrived
      exact both.2 next stepped before after state rfl arrived

/--
A property holds at every moment exactly when every step meets the condition that keeps it.

The condition is decided step by step, in states that have the property so far.
-/
theorem always_iff {condition : σ → ε → Prop} (invariant property : σ → Prop)
    (keeps : ∀ state event next, invariant state → step state event = .ok next → invariant next)
    (decides : ∀ state event, invariant state → property state →
      ((∀ next, step state event = .ok next → property next) ↔ condition state event))
    {start : σ} {events : List ε} (entry : invariant start) (good : property start) :
    Always step property start events ↔ EveryStep step condition start events := by
  -- The induction follows the run, and both sides move on to the state after its first step.
  induction events generalizing start with
  | nil =>
    refine iff_of_true ?_ trivial
    intro before after state split arrived
    obtain ⟨rfl, _⟩ := List.append_eq_nil_iff.mp split.symm
    simp only [run_nil, Except.ok.injEq] at arrived
    exact arrived ▸ good
  | cons event rest ih =>
    have next_good : ∀ next, Always step property next rest → property next :=
      fun next always => always [] rest next rfl rfl
    rw [always_cons, EveryStep, ← decides start event entry good]
    constructor
    · intro both
      refine ⟨fun next stepped => next_good next (both.2 next stepped), fun next stepped => ?_⟩
      have always := both.2 next stepped
      exact (ih (keeps start event next entry stepped) (next_good next always)).mp always
    · intro both
      refine ⟨good, fun next stepped => ?_⟩
      have kept := both.1 next stepped
      exact (ih (keeps start event next entry stepped) kept).mpr (both.2 next stepped)

/--
A run is without faults and every step ends well exactly when every step meets a condition.

The condition decides, step by step, whether the step succeeds and ends well.
-/
theorem faultless_iff {condition : σ → ε → Prop} {ends : σ → ε → σ → Prop}
    (invariant : σ → Prop)
    (keeps : ∀ state event next, invariant state → step state event = .ok next → invariant next)
    (decides : ∀ state event, invariant state →
      ((∃ next, step state event = .ok next ∧ ends state event next) ↔ condition state event))
    {start : σ} {events : List ε} (entry : invariant start) :
    ((∀ error, run step start events ≠ .error error) ∧
        EveryStep step (fun state event => ∀ next, step state event = .ok next →
          ends state event next) start events) ↔
      EveryStep step condition start events := by
  -- The induction follows the run, and both sides move on to the state after its first step.
  induction events generalizing start with
  | nil => simp [EveryStep]
  | cons event rest ih =>
    simp only [EveryStep, ← decides start event entry]
    cases stepped : step start event with
    | error error =>
      -- A first step that fails is a run that fails, and it does not end well either.
      simp [run, stepped]
    | ok next =>
      simp only [run, stepped, Except.ok.injEq, forall_eq', exists_eq_left']
      rw [← ih (keeps start event next entry stepped)]
      tauto

/--
A property that lasts has been brought about by some step of the run.

A step brings it about where it did not hold before, and none takes it away.
-/
theorem run_brought_iff (property : σ → Prop) (brings : σ → ε → Prop) (invariant : σ → Prop)
    (keeps : ∀ state event next, invariant state → step state event = .ok next → invariant next)
    (decides : ∀ state event next, invariant state → step state event = .ok next →
      (property next ↔ property state ∨ brings state event))
    {start final : σ} {events : List ε} (entry : invariant start) (absent : ¬ property start)
    (arrived : run step start events = .ok final) :
    property final ↔ ∃ before event after middle, events = before ++ event :: after ∧
      run step start before = .ok middle ∧ brings middle event := by
  -- The induction is on the end of the run, whose last step may bring it about.
  induction events using List.reverseRecOn generalizing final with
  | nil =>
    cases arrived
    refine iff_of_false absent ?_
    rintro ⟨before, event, after, middle, split, _⟩
    simp at split
  | append_singleton events last ih =>
    obtain ⟨middle, sofar, stepped⟩ := (run_snoc_ok step).mp arrived
    have holds := reachable_invariant step invariant entry keeps ⟨events, sofar⟩
    rw [decides middle last final holds stepped, ih sofar]
    constructor
    · rintro (⟨before, event, after, moment, rfl, reached, brought⟩ | now)
      · exact ⟨before, event, after ++ [last], moment, by simp, reached, brought⟩
      · exact ⟨events, last, [], middle, rfl, sofar, now⟩
    · rintro ⟨before, event, after, moment, split, reached, brought⟩
      cases after using List.reverseRecOn with
      | nil =>
        obtain ⟨rfl, same⟩ := List.append_inj' split rfl
        rw [sofar, Except.ok.injEq] at reached
        rw [reached, List.singleton_inj.mp same]
        exact .inr brought
      | append_singleton after newest =>
        rw [← List.cons_append, ← List.append_assoc] at split
        exact .inl ⟨before, event, after, moment, (List.append_inj' split rfl).1, reached, brought⟩

end Run
