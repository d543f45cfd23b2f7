import Mathlib.Data.List.Infix
import StreamUP.Protocol.CongestionGrowth

/-! Bytes acknowledged since the last timeout: how they bound the window, and when it is they. -/

namespace StreamUP

open Fallible Machine

namespace CongestionEvent

/-- The bytes that have been acknowledged since the last timeout. -/
def credit (events : List CongestionEvent) : Int :=
  events.foldl (fun acked event =>
    match event with
    | .onAck numBytes => acked + numBytes
    | .onTimeout => 0) 0

@[simp] theorem credit_nil : credit [] = 0 := rfl

theorem credit_concat_onAck (events : List CongestionEvent) (numBytes : Int) :
    credit (events ++ [.onAck numBytes]) = credit events + numBytes := by
  rw [credit, List.foldl_concat]
  rfl

theorem credit_concat_onTimeout (events : List CongestionEvent) :
    credit (events ++ [.onTimeout]) = 0 := by
  rw [credit, List.foldl_concat]

end CongestionEvent

open CongestionEvent

namespace TCPCongestionControl

variable {getMSS : Int} {self next final : TCPCongestionControl} {events : List CongestionEvent}

/-- An ack that does not fault has the exact result, whatever the numbers. -/
theorem onAck_exact {numBytes : Int} (acked : self.onAck getMSS numBytes = .ok next) :
    next = self.exactAck getMSS numBytes := by
  -- Every check that is passed hands on what it has checked.
  cases staged : self.stage with
  | slowStart =>
    simp only [onAck, staged, bind_eq_ok, pure_eq_ok] at acked
    obtain ⟨window, checked, rest⟩ := acked
    obtain ⟨rfl, _⟩ := checkedInt_ok.mp checked
    simp only [exactAck, staged]
    split at rest <;> simp_all
  | congestionAvoidance =>
    simp only [onAck, staged, bind_eq_ok, pure_eq_ok, Except.ok.injEq] at acked
    obtain ⟨product, multiplied, increase, divided, window, checked, rfl⟩ := acked
    obtain ⟨rfl, _⟩ := checkedInt_ok.mp multiplied
    unfold checkedDiv at divided
    split at divided
    · contradiction
    · obtain ⟨rfl, _⟩ := checkedInt_ok.mp divided
      obtain ⟨rfl, _⟩ := checkedInt_ok.mp checked
      simp only [exactAck, staged]

/-- A call that does not fault has the exact result. -/
theorem step_exact {event : CongestionEvent} (stepped : self.step getMSS event = .ok next) :
    next = self.exactStep getMSS event := by
  cases event with
  | onAck numBytes => exact onAck_exact stepped
  | onTimeout =>
    simp only [step, onTimeout, bind_eq_ok, pure_eq_ok, Except.ok.injEq] at stepped
    obtain ⟨half, divided, rfl⟩ := stepped
    simp only [checkedDiv, OfNat.ofNat_ne_zero, if_false] at divided
    obtain ⟨rfl, _⟩ := checkedInt_ok.mp divided
    rfl

/-- The window is between its initial size and what has been acknowledged beyond it. -/
structure Credited (events : List CongestionEvent) (control : TCPCongestionControl) : Prop where
  low : initCwnd ≤ control.cWnd
  high : control.cWnd ≤ initCwnd + credit events

/-- A call keeps the window within its credit. -/
theorem Credited.exactStep {event : CongestionEvent} (credited : Credited events self)
    (low : 0 ≤ getMSS) (high : getMSS ≤ initCwnd) (nonnegative : event.Nonnegative) :
    Credited (events ++ [event]) (self.exactStep getMSS event) := by
  have wide := credited.low
  have narrow := credited.high
  refine ⟨initCwnd_le_exactStep low nonnegative wide, ?_⟩
  cases event with
  | onAck numBytes =>
    -- An ack adds no more than it acknowledges.
    have grown : (self.exactAck getMSS numBytes).cWnd ≤ self.cWnd + numBytes :=
      cWnd_exactAck_le_add low (positive_of_wide wide) (Int.le_trans high wide) nonnegative
    rw [credit_concat_onAck]
    show (self.exactAck getMSS numBytes).cWnd ≤ _
    omega
  | onTimeout =>
    rw [credit_concat_onTimeout]
    exact Int.le_of_eq rfl

/--
Along every run, the window exceeds its initial size by no more than what has been acknowledged.

Only what has been acknowledged since the last timeout counts.
-/
theorem run_credited (low : 0 ≤ getMSS) (high : getMSS ≤ initCwnd)
    (nonnegative : ∀ event ∈ events, event.Nonnegative)
    (arrived : Run.run (step getMSS) new events = .ok final) : Credited events final := by
  -- The induction is on the end of the run, where the newest call counts or resets.
  induction events using List.reverseRecOn generalizing final with
  | nil =>
    cases arrived
    exact ⟨Int.le_refl _, Int.le_refl _⟩
  | append_singleton events last ih =>
    obtain ⟨middle, sofar, stepped⟩ := (Run.run_snoc_ok _).mp arrived
    have before := ih (fun event member => nonnegative event (List.mem_append_left _ member)) sofar
    rw [step_exact stepped]
    exact before.exactStep low high (nonnegative last (by simp))

/-- Two acks with a timeout between them, of which the second one alone counts. -/
def resetBetween : List CongestionEvent := [.onAck 1200, .onTimeout, .onAck 100]

/-- The window is no larger than its initial size and the second ack. -/
theorem run_credited_reset :
    ∃ final, Run.run (step 1200) new resetBetween = .ok final ∧ Credited resetBetween final := by
  obtain ⟨final, arrived⟩ : ∃ final, Run.run (step 1200) new resetBetween = .ok final := ⟨_, rfl⟩
  have nonnegative : ∀ event ∈ resetBetween, event.Nonnegative := by
    simp [resetBetween, CongestionEvent.Nonnegative]
  have segment : (1200 : Int) ≤ initCwnd := Int.le_refl initCwnd
  exact ⟨final, arrived, run_credited (by omega) segment nonnegative arrived⟩

/-- What an ack may acknowledge: a number that is not negative and whose product is an `int`. -/
def CongestionEvent.Small (getMSS : Int) : CongestionEvent → Prop
  | .onAck numBytes => 0 ≤ numBytes ∧ getMSS * numBytes ≤ intMax
  | .onTimeout => True

/-- Within its budget a call does not overflow, and keeps the window within its credit. -/
theorem Credited.progress {event : CongestionEvent} (credited : Credited events self)
    (low : 1 ≤ getMSS) (high : getMSS ≤ initCwnd) (small : CongestionEvent.Small getMSS event)
    (within : credit events ≤ intMax - initCwnd)
    (whole : credit (events ++ [event]) ≤ intMax - initCwnd) :
    ∃ next, self.step getMSS event = .ok next ∧ Credited (events ++ [event]) next := by
  have wide := credited.low
  have narrow := credited.high
  have bounded : self.Bounded := ⟨wide, by omega⟩
  cases event with
  | onAck numBytes =>
    obtain ⟨nonneg, product⟩ := small
    rw [credit_concat_onAck] at whole
    have fits : self.AckFits getMSS numBytes := by
      unfold AckFits
      split
      · omega
      · -- In a window that cannot grow any more, nothing is left to be acknowledged.
        refine ⟨product, fun both => ?_⟩
        have none : numBytes = 0 := by omega
        rw [none, Int.mul_zero] at both
        simp at both
    have kept : Credited (events ++ [.onAck numBytes]) (self.exactAck getMSS numBytes) :=
      credited.exactStep (by omega) high nonneg
    exact ⟨_, onAck_eq bounded low nonneg fits, kept⟩
  | onTimeout =>
    have kept : Credited (events ++ [.onTimeout]) self.exactTimeout :=
      credited.exactStep (Int.le_trans (by omega) low) high trivial
    exact ⟨_, onTimeout_eq bounded, kept⟩

/--
A connection that acknowledges less than two gigabytes between timeouts never overflows.

The sizes of the single acks are bounded by their products with the segment size.
-/
theorem run_never_overflows (low : 1 ≤ getMSS) (high : getMSS ≤ initCwnd)
    (small : ∀ event ∈ events, CongestionEvent.Small getMSS event)
    (budget : ∀ before after, events = before ++ after →
      credit before ≤ intMax - initCwnd) :
    ∃ final, Run.run (step getMSS) new events = .ok final ∧ Credited events final := by
  -- The induction is on the end of the run, as the credit is that of all events so far.
  induction events using List.reverseRecOn with
  | nil => exact ⟨new, rfl, ⟨Int.le_refl _, Int.le_refl _⟩⟩
  | append_singleton events last ih =>
    obtain ⟨middle, sofar, credited⟩ := ih
      (fun event member => small event (List.mem_append_left _ member))
      (fun before after split => budget before (after ++ [last]) (by rw [split, List.append_assoc]))
    have within := budget events [last] rfl
    have whole := budget (events ++ [last]) [] (List.append_nil _).symm
    have newest := small last (by simp)
    obtain ⟨final, stepped, kept⟩ := credited.progress low high newest within whole
    exact ⟨final, (Run.run_snoc_ok _).mpr ⟨middle, sofar, stepped⟩, kept⟩

/-- Half the `int` range is far from being acknowledged by two small acks. -/
theorem run_never_overflows_reset :
    ∃ final, Run.run (step 1200) new resetBetween = .ok final ∧ Credited resetBetween final := by
  have small : ∀ event ∈ resetBetween, CongestionEvent.Small 1200 event := by
    simp [resetBetween, CongestionEvent.Small, intMax]
  have segment : (1200 : Int) ≤ initCwnd := Int.le_refl initCwnd
  refine run_never_overflows (by omega) segment small ?_
  intro before after split
  -- There are four moments to look at.
  have moment : before ∈ resetBetween.inits := (List.mem_inits _ _).mpr ⟨after, split.symm⟩
  simp only [resetBetween, List.inits, List.map_cons, List.map_nil, List.mem_cons,
    List.not_mem_nil, or_false] at moment
  rcases moment with rfl | rfl | rfl | rfl <;> decide

/-- Acks leave the stage of avoidance as it is. -/
theorem stage_exactAcks_avoidance {acks : List Int} (avoiding : self.stage = .congestionAvoidance) :
    (exactAcks getMSS self acks).stage = .congestionAvoidance := by
  induction acks generalizing self with
  | nil => exact avoiding
  | cons numBytes acks ih => exact ih (stage_exactAck_avoidance avoiding numBytes)

/-- From slow start, acks stay in it exactly as long as their sum is below the threshold. -/
theorem stage_exactAcks {acks : List Int} (starting : self.stage = .slowStart)
    (nonneg : ∀ numBytes ∈ acks, 0 ≤ numBytes) :
    ((exactAcks getMSS self acks).stage = .slowStart ↔
      acks = [] ∨ self.cWnd + acks.sum < self.ssThresh) ∧
    ((exactAcks getMSS self acks).stage = .slowStart →
      (exactAcks getMSS self acks).cWnd = self.cWnd + acks.sum) := by
  induction acks generalizing self with
  | nil => simp [starting]
  | cons numBytes acks ih =>
    rw [List.forall_mem_cons] at nonneg
    have later : 0 ≤ acks.sum := List.sum_nonneg nonneg.2
    rw [exactAcks_cons, List.sum_cons]
    by_cases reached : self.cWnd + numBytes ≥ self.ssThresh
    · -- The first ack reaches the threshold, and the others stay beyond it.
      have avoiding : (self.exactAck getMSS numBytes).stage = .congestionAvoidance := by
        simp only [exactAck, starting, if_pos reached]
      rw [stage_exactAcks_avoidance avoiding]
      refine ⟨iff_of_false (by simp) ?_, fun wrong => by contradiction⟩
      simp only [reduceCtorEq, false_or]
      omega
    · have still : self.exactAck getMSS numBytes = { self with cWnd := self.cWnd + numBytes } := by
        simp only [exactAck, starting, if_neg reached]
      have grown : ({ self with cWnd := self.cWnd + numBytes } : TCPCongestionControl).stage
          = .slowStart := starting
      obtain ⟨decided, window⟩ := ih grown nonneg.2
      dsimp only at decided window
      rw [still]
      refine ⟨decided.trans ?_, fun same => ?_⟩
      · simp only [reduceCtorEq, false_or]
        constructor
        · rintro (rfl | below)
          · simp only [List.sum_nil]
            omega
          · omega
        · exact fun below => .inr (by omega)
      · rw [window same]
        omega

/-- Acks that do not overflow have the exact result, one after the other. -/
theorem run_onAck_exact {acks : List Int}
    (arrived : Run.run (step getMSS) self (acks.map .onAck) = .ok final) :
    final = exactAcks getMSS self acks := by
  induction acks generalizing self with
  | nil =>
    cases arrived
    rfl
  | cons numBytes acks ih =>
    obtain ⟨next, acked, rest⟩ := (Run.run_cons_ok _).mp arrived
    rw [exactAcks_cons, ← onAck_exact acked]
    exact ih rest

/--
After a timeout, slow start lasts until acks have brought the window to half of the old one.

Until then the window is its initial size and everything acknowledged since.
-/
theorem slowStart_after_timeout {acks : List Int} (nonneg : ∀ numBytes ∈ acks, 0 ≤ numBytes)
    (arrived : Run.run (step getMSS) self (.onTimeout :: acks.map .onAck) = .ok final) :
    (final.stage = .slowStart ↔ acks = [] ∨ initCwnd + acks.sum < self.cWnd.tdiv 2) ∧
      (final.stage = .slowStart → final.cWnd = initCwnd + acks.sum) := by
  obtain ⟨reset, timed, acked⟩ := (Run.run_cons_ok _).mp arrived
  rw [run_onAck_exact acked, step_exact timed]
  -- A timeout goes to slow start with half the window as its threshold.
  exact stage_exactAcks rfl nonneg

/-- Nine hundred bytes do not bring the window to half of four thousand and eight hundred. -/
theorem slowStart_after_timeout_short :
    ∃ final, Run.run (step 1200) ⟨4800, intMax, .congestionAvoidance⟩
      [.onTimeout, .onAck 600, .onAck 300] = .ok final ∧ final.cWnd = initCwnd + 900 := by
  have nonneg : ∀ numBytes ∈ [600, 300], (0 : Int) ≤ numBytes := by simp
  obtain ⟨final, arrived⟩ : ∃ final, Run.run (step 1200) ⟨4800, intMax, .congestionAvoidance⟩
      (.onTimeout :: [600, 300].map .onAck) = .ok final := ⟨_, rfl⟩
  obtain ⟨decided, window⟩ := slowStart_after_timeout nonneg arrived
  exact ⟨final, arrived, window (decided.mpr (.inr (by decide)))⟩

end TCPCongestionControl

end StreamUP
