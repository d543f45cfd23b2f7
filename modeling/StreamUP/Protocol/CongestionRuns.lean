import StreamUP.Foundation.Run
import StreamUP.Protocol.TCPCongestionControl

/-! Runs of the congestion control: acks and timeouts in any order, and when they stay in bounds. -/

namespace StreamUP

open Fallible Machine

/-- A call the congestion control is told by: an ack of so many bytes, or a timeout. -/
inductive CongestionEvent where
  | onAck (numBytes : Int)
  | onTimeout
  deriving DecidableEq

namespace CongestionEvent

/-- An ack acknowledges no fewer bytes than none, and no more than the window. -/
def WithinWindow (control : TCPCongestionControl) : CongestionEvent → Prop
  -- A peer cannot acknowledge more than the sender may have in flight.
  | .onAck numBytes => 0 ≤ numBytes ∧ numBytes ≤ control.cWnd
  | .onTimeout => True

/-- The arithmetic of the call stays within `int`. -/
def Fits (getMSS : Int) (control : TCPCongestionControl) : CongestionEvent → Prop
  -- A timeout halves and resets the window, which always fits.
  | .onAck numBytes => control.AckFits getMSS numBytes
  | .onTimeout => True

instance (control : TCPCongestionControl) :
    ∀ event : CongestionEvent, Decidable (event.WithinWindow control)
  | .onAck _ => inferInstanceAs (Decidable (_ ∧ _))
  | .onTimeout => isTrue trivial

instance (getMSS : Int) (control : TCPCongestionControl) :
    ∀ event : CongestionEvent, Decidable (event.Fits getMSS control)
  | .onAck numBytes => inferInstanceAs (Decidable (control.AckFits getMSS numBytes))
  | .onTimeout => isTrue trivial

end CongestionEvent

namespace TCPCongestionControl

/-- The state after a call. -/
def step (getMSS : Int) (self : TCPCongestionControl) :
    CongestionEvent → Except Fault TCPCongestionControl
  -- The remaining arguments of both calls are not looked at.
  | .onAck numBytes => self.onAck getMSS numBytes
  | .onTimeout => self.onTimeout

/-- What a call computes on numbers without bounds. -/
def exactStep (getMSS : Int) (self : TCPCongestionControl) :
    CongestionEvent → TCPCongestionControl
  -- The same two calls, without the checks for overflow.
  | .onAck numBytes => self.exactAck getMSS numBytes
  | .onTimeout => self.exactTimeout

/-- In bounds, a call succeeds exactly when it fits, with the exact result, which is in bounds. -/
theorem step_ok_iff {getMSS : Int} {self next : TCPCongestionControl} {event : CongestionEvent}
    (low : 1 ≤ getMSS) (bounded : self.Bounded) (within : event.WithinWindow self) :
    self.step getMSS event = .ok next ↔
      event.Fits getMSS self ∧ next = self.exactStep getMSS event := by
  -- An ack fits or overflows; a timeout always fits.
  cases event with
  | onAck numBytes =>
    by_cases fits : self.AckFits getMSS numBytes
    · simp [step, exactStep, CongestionEvent.Fits, fits,
        onAck_eq bounded low within.1 fits, eq_comm]
    · obtain ⟨result, overflows⟩ := onAck_overflows bounded low within.1 fits
      simp [step, CongestionEvent.Fits, fits, overflows]
  | onTimeout =>
    simp [step, exactStep, CongestionEvent.Fits, onTimeout_eq bounded, eq_comm]

/-- A call that succeeds leaves the window in bounds. -/
theorem bounded_step {getMSS : Int} {self next : TCPCongestionControl} {event : CongestionEvent}
    (low : 1 ≤ getMSS) (bounded : self.Bounded) (within : event.WithinWindow self)
    (stepped : self.step getMSS event = .ok next) : next.Bounded := by
  -- A call that succeeds has fitted.
  obtain ⟨fits, rfl⟩ := (step_ok_iff low bounded within).mp stepped
  cases event with
  | onAck numBytes => exact bounded_exactAck bounded low within.1 fits
  | onTimeout => exact bounded_exactTimeout self

/--
The arithmetic is safe along a run.

No call overflows or divides by zero, and the window is in bounds in every state on the way.
-/
structure Safe (getMSS : Int) (events : List CongestionEvent) : Prop where
  noFault : ∀ fault, Run.run (step getMSS) new events ≠ .error fault
  bounded : ∀ before after state, events = before ++ after →
    Run.run (step getMSS) new before = .ok state → state.Bounded

/-- A run of acks within the window is safe exactly when the arithmetic of every call fits. -/
theorem safe_iff {getMSS : Int} (low : 1 ≤ getMSS) {events : List CongestionEvent}
    (within : Run.EveryStep (step getMSS) (fun control event => event.WithinWindow control)
      new events) :
    Safe getMSS events ↔
      Run.EveryStep (step getMSS) (fun control event => event.Fits getMSS control) new events := by
  have preserved : ∀ (state : TCPCongestionControl) (event : CongestionEvent) next,
      state.Bounded → event.WithinWindow state → state.step getMSS event = .ok next →
      next.Bounded :=
    fun _ _ _ bounded within stepped => bounded_step low bounded within stepped
  have inBounds := within.with_invariant (step getMSS) Bounded preserved bounded_new
  constructor
  · intro safe
    -- A run without a fault arrives, so each of its calls has succeeded.
    obtain ⟨final, arrived⟩ : ∃ final, Run.run (step getMSS) new events = .ok final := by
      cases ran : Run.run (step getMSS) new events with
      | ok final => exact ⟨final, rfl⟩
      | error fault => exact absurd ran (safe.noFault fault)
    refine (inBounds.and (step getMSS) (Run.everyStep_of_run _ arrived)).mono (step getMSS) ?_
    intro state event both
    obtain ⟨⟨bounded, within⟩, next, stepped⟩ := both
    exact ((step_ok_iff low bounded within).mp stepped).1
  · intro fits
    constructor
    · -- A call that fits succeeds and leaves the window in bounds for the next one.
      obtain ⟨final, arrived, _⟩ := Run.run_progress (step getMSS) Bounded (fun state event bounded
          both => by
        have stepped := (step_ok_iff low bounded both.1).mpr ⟨both.2, rfl⟩
        exact ⟨_, stepped, preserved state event _ bounded both.1 stepped⟩)
        bounded_new (within.and (step getMSS) fits)
      intro fault failed
      rw [arrived] at failed
      contradiction
    · intro before after state split arrived
      rw [split] at within
      have sofar := ((Run.everyStep_append (step getMSS)).mp within).1
      exact Run.run_invariant (step getMSS) Bounded preserved bounded_new sofar arrived

/-- Acks that double the window each time, from its initial size on. -/
def doubling (count : Nat) : List CongestionEvent :=
  (List.range count).map fun i => .onAck (initCwnd * 2 ^ i)

/-- Until the window reaches the largest `int`, each of these acks doubles it. -/
theorem run_doubling (getMSS : Int) {count : Nat} (small : initCwnd * 2 ^ count < intMax) :
    Run.run (step getMSS) new (doubling count)
        = .ok { cWnd := initCwnd * 2 ^ count, ssThresh := intMax, stage := .slowStart } ∧
      Run.EveryStep (step getMSS) (fun control event => event.WithinWindow control) new
        (doubling count) := by
  induction count with
  | zero => exact ⟨rfl, trivial⟩
  | succ count ih =>
    have power : initCwnd * 2 ^ (count + 1) = initCwnd * 2 ^ count + initCwnd * 2 ^ count := by
      rw [pow_succ, ← mul_assoc, mul_two]
    have positive : 0 < initCwnd * 2 ^ count := Int.mul_pos (by decide) (Int.pow_pos (by decide))
    obtain ⟨ran, within⟩ := ih (by omega)
    have snoc : doubling (count + 1) = doubling count ++ [.onAck (initCwnd * 2 ^ count)] := by
      simp [doubling, List.range_succ]
    rw [power] at small ⊢
    -- The last ack acknowledges the whole window, and stays below the threshold.
    have sum : checkedInt (initCwnd * 2 ^ count + initCwnd * 2 ^ count)
        = .ok (initCwnd * 2 ^ count + initCwnd * 2 ^ count) :=
      checkedInt_of_nonneg (by omega) (by omega)
    rw [snoc]
    constructor
    · refine (Run.run_snoc_ok (step getMSS)).mpr ⟨_, ran, ?_⟩
      simp only [step, onAck, sum, ok_bind]
      rw [if_neg (by omega)]
      rfl
    · refine (Run.everyStep_append (step getMSS)).mpr ⟨within, ?_⟩
      intro middle arrived
      rw [ran, Except.ok.injEq] at arrived
      subst arrived
      rw [Run.everyStep_singleton]
      exact ⟨by omega, Int.le_refl _⟩

/-- Acks in both stages, and a timeout before and after the window reaches the threshold. -/
def acksAndTimeouts : List CongestionEvent :=
  [.onAck 1200, .onTimeout, .onAck 600, .onAck 500, .onTimeout]

/-- They are safe: each ack is within the window it meets, and fits. -/
theorem safe_acksAndTimeouts : Safe 1200 acksAndTimeouts :=
  (safe_iff (by decide) (by decide)).mpr (by decide)

/-- Twenty acks within the window make it so large that the next one overflows the sum. -/
theorem doubling_overflows :
    Run.EveryStep (step 1200) (fun control event => event.WithinWindow control) new
        (doubling 21) ∧
      Run.run (step 1200) new (doubling 21) = .error (.intOverflow 2516582400) := by
  -- Twenty of the acks are safe, and the last one meets a window of more than half an `int`.
  have small : initCwnd * 2 ^ 20 < intMax := by decide
  obtain ⟨ran, within⟩ := run_doubling 1200 small
  have snoc : doubling 21 = doubling 20 ++ [.onAck (initCwnd * 2 ^ 20)] := by rfl
  rw [snoc, Run.run_append, ran]
  constructor
  · refine (Run.everyStep_append (step 1200)).mpr ⟨within, ?_⟩
    intro middle arrived
    rw [ran, Except.ok.injEq] at arrived
    subst arrived
    rw [Run.everyStep_singleton]
    exact ⟨by decide, Int.le_refl _⟩
  · rfl

end TCPCongestionControl

end StreamUP
