import StreamUP.Foundation.Run

/-! Systems of many members that act one at a time: what each of them is left with. -/

namespace Family

open Run

variable {σ ε φ μ α ψ : Type}

/-- The actions of one member among the events of a whole run, in their order. -/
def actionsOn (target : ε → Option (Nat × α)) (index : Nat) (events : List ε) : List α :=
  events.filterMap fun event =>
    -- An event is aimed at one member, or at none.
    match target event with
    | some (other, action) => if other = index then some action else none
    | none => none

/--
A system is made of members, which are numbered in the order they appear in.

An event that is aimed at a member acts on it and on nothing else.
All other events leave every member alone, and may add new ones behind those there are.
-/
structure Members (step : σ → ε → Except φ σ) (members : σ → List μ) (act : μ → α → Except ψ μ)
    (target : ε → Option (Nat × α)) (Fresh : μ → Prop) : Prop where
  acts : ∀ state event next index action, target event = some (index, action) →
    step state event = .ok next → ∃ member changed, (members state)[index]? = some member ∧
      act member action = .ok changed ∧ members next = (members state).set index changed
  grows : ∀ state event next, target event = none → step state event = .ok next →
    ∃ born, members next = members state ++ born ∧ ∀ member ∈ born, Fresh member

variable {step : σ → ε → Except φ σ} {members : σ → List μ} {act : μ → α → Except ψ μ}
  {target : ε → Option (Nat × α)} {Fresh : μ → Prop}

theorem actionsOn_append (target : ε → Option (Nat × α)) (index : Nat) (before after : List ε) :
    actionsOn target index (before ++ after)
      = actionsOn target index before ++ actionsOn target index after :=
  List.filterMap_append

/-- An event that is aimed at the member is one of its actions. -/
theorem actionsOn_singleton_self {index : Nat} {event : ε} {action : α}
    (aimed : target event = some (index, action)) : actionsOn target index [event] = [action] := by
  simp [actionsOn, aimed]

/-- An event that is aimed at another member, or at none, is no action of this one. -/
theorem actionsOn_singleton_other {index : Nat} {event : ε}
    (elsewhere : ∀ action, target event ≠ some (index, action)) :
    actionsOn target index [event] = [] := by
  unfold actionsOn
  cases aimed : target event with
  | none => simp [aimed]
  | some pair =>
    obtain ⟨other, action⟩ := pair
    -- Only the number of the member could make it one of its own.
    have apart : other ≠ index := fun same => elsewhere action (same ▸ aimed)
    simp [aimed, apart]

/-- Where a member comes from: it was there from the start, or it has appeared later. -/
def Origin (Fresh : μ → Prop) (start : List μ) (index : Nat) (origin : μ) : Prop :=
  start[index]? = some origin ∨ start.length ≤ index ∧ Fresh origin

/-- Members never disappear. -/
theorem Members.length_le (made : Members step members act target Fresh) {state next : σ}
    {event : ε} (stepped : step state event = .ok next) :
    (members state).length ≤ (members next).length := by
  cases aimed : target event with
  | none =>
    obtain ⟨born, grown, _⟩ := made.grows state event next aimed stepped
    rw [grown, List.length_append]
    omega
  | some pair =>
    obtain ⟨member, changed, _, _, set⟩ :=
      made.acts state event next pair.1 pair.2 aimed stepped
    exact Nat.le_of_eq (by rw [set, List.length_set])

/-- A run never takes a member away. -/
theorem Members.length_le_run (made : Members step members act target Fresh) {start final : σ}
    {events : List ε} (arrived : run step start events = .ok final) :
    (members start).length ≤ (members final).length := by
  induction events generalizing start with
  | nil =>
    cases arrived
    exact Nat.le_refl _
  | cons event rest ih =>
    obtain ⟨next, stepped, arrived⟩ := (run_cons_ok step).mp arrived
    exact Nat.le_trans (made.length_le stepped) (ih arrived)

/-- An event that is aimed at a member changes nothing that the actions keep. -/
theorem Members.map_eq_of_target (made : Members step members act target Fresh) {β : Type}
    {part : μ → β}
    (kept : ∀ member action changed, act member action = .ok changed → part changed = part member)
    {state next : σ} {event : ε} {index : Nat} {action : α}
    (aimed : target event = some (index, action)) (stepped : step state event = .ok next) :
    (members next).map part = (members state).map part := by
  obtain ⟨member, changed, there, acted, set⟩ :=
    made.acts state event next index action aimed stepped
  obtain ⟨inside, rfl⟩ := List.getElem?_eq_some_iff.mp there
  have mapped : index < ((members state).map part).length := by
    rw [List.length_map]
    exact inside
  have same : part changed = ((members state).map part)[index] := by
    rw [kept _ action changed acted, List.getElem_map]
  -- What is put in the place of the member has the part that was there.
  rw [set, List.map_set, same, List.set_getElem_self]

/-- An event does to a member what its own action does, and nothing if it is no action of it. -/
theorem Members.step_member (made : Members step members act target Fresh) {state next : σ}
    {event : ε} {index : Nat} {member : μ} (there : (members state)[index]? = some member)
    (stepped : step state event = .ok next) :
    ∃ changed, run act member (actionsOn target index [event]) = .ok changed ∧
      (members next)[index]? = some changed := by
  have inside := (List.getElem?_eq_some_iff.mp there).1
  cases aimed : target event with
  | none =>
    obtain ⟨born, grown, _⟩ := made.grows state event next aimed stepped
    rw [actionsOn_singleton_other (fun action => by simp [aimed])]
    refine ⟨member, rfl, ?_⟩
    rw [grown, List.getElem?_append_left inside, there]
  | some pair =>
    obtain ⟨other, action⟩ := pair
    obtain ⟨before, changed, found, acted, set⟩ :=
      made.acts state event next other action aimed stepped
    rw [set]
    by_cases same : other = index
    · -- The member acts itself.
      subst same
      rw [there, Option.some.injEq] at found
      subst found
      rw [actionsOn_singleton_self aimed, List.getElem?_set_self inside]
      exact ⟨changed, (run_cons_ok act).mpr ⟨changed, acted, rfl⟩, rfl⟩
    · -- Another one acts, in a place of its own.
      rw [actionsOn_singleton_other (by simp [aimed, same]), List.getElem?_set_ne same]
      exact ⟨member, rfl, there⟩

/-- Nothing is aimed at a member before it is there. -/
theorem Members.actionsOn_absent (made : Members step members act target Fresh)
    {start final : σ} {events : List ε} {index : Nat}
    (arrived : run step start events = .ok final) (absent : (members final).length ≤ index) :
    actionsOn target index events = [] := by
  induction events using List.reverseRecOn generalizing final with
  | nil => rfl
  | append_singleton events last ih =>
    obtain ⟨middle, sofar, stepped⟩ := (run_snoc_ok step).mp arrived
    have earlier := Nat.le_trans (made.length_le stepped) absent
    rw [actionsOn_append, ih sofar earlier, List.nil_append]
    apply actionsOn_singleton_other
    intro action aimed
    -- What an event is aimed at is there already.
    obtain ⟨member, _, there, _, _⟩ := made.acts middle last final index action aimed stepped
    have inside := (List.getElem?_eq_some_iff.mp there).1
    omega

/--
A member is what its own actions alone have made of it.

However the events of a run are interleaved, each member ends as it would have on its own.
-/
theorem Members.run_member (made : Members step members act target Fresh) {start final : σ}
    {events : List ε} {index : Nat} {member : μ} (arrived : run step start events = .ok final)
    (there : (members final)[index]? = some member) :
    ∃ origin, Origin Fresh (members start) index origin ∧
      run act origin (actionsOn target index events) = .ok member := by
  -- The induction is on the end of the run, where the member may act, or appear.
  induction events using List.reverseRecOn generalizing final member with
  | nil =>
    cases arrived
    exact ⟨member, .inl there, rfl⟩
  | append_singleton events last ih =>
    obtain ⟨middle, sofar, stepped⟩ := (run_snoc_ok step).mp arrived
    cases earlier : (members middle)[index]? with
    | some old =>
      obtain ⟨origin, from_start, own⟩ := ih sofar earlier
      obtain ⟨changed, acted, now⟩ := made.step_member earlier stepped
      rw [there, Option.some.injEq] at now
      rw [actionsOn_append]
      exact ⟨origin, from_start, (run_append_ok act).mpr ⟨old, own, now ▸ acted⟩⟩
    | none =>
      -- The member has appeared with the last event, so nothing was aimed at it before.
      have absent := List.getElem?_eq_none_iff.mp earlier
      have inside := (List.getElem?_eq_some_iff.mp there).1
      have silent := made.actionsOn_absent sofar absent
      cases aimed : target last with
      | some pair =>
        obtain ⟨_, changed, _, _, set⟩ :=
          made.acts middle last final pair.1 pair.2 aimed stepped
        rw [set, List.length_set] at inside
        omega
      | none =>
        obtain ⟨born, grown, fresh⟩ := made.grows middle last final aimed stepped
        rw [grown, List.getElem?_append_right absent] at there
        have new := fresh member (List.mem_of_getElem? there)
        have behind := Nat.le_trans (made.length_le_run sofar) absent
        refine ⟨member, .inr ⟨behind, new⟩, ?_⟩
        rw [actionsOn_append, silent, actionsOn_singleton_other (by simp [aimed])]
        rfl

/-- A member that is there from the start goes through its own actions and no others. -/
theorem Members.run_member_of_start (made : Members step members act target Fresh)
    {start final : σ} {events : List ε} {index : Nat} {origin : μ}
    (there : (members start)[index]? = some origin) (arrived : run step start events = .ok final) :
    ∃ member, (members final)[index]? = some member ∧
      run act origin (actionsOn target index events) = .ok member := by
  -- The member moves along with the run, one event at a time.
  induction events generalizing start origin with
  | nil =>
    cases arrived
    exact ⟨origin, there, rfl⟩
  | cons event rest ih =>
    obtain ⟨next, stepped, arrived⟩ := (run_cons_ok step).mp arrived
    obtain ⟨changed, acted, now⟩ := made.step_member there stepped
    obtain ⟨member, last, own⟩ := ih now arrived
    refine ⟨member, last, ?_⟩
    rw [← List.singleton_append, actionsOn_append]
    exact (run_append_ok act).mpr ⟨changed, acted, own⟩

end Family
