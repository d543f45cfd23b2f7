import Mathlib.Algebra.Order.BigOperators.Group.List
import Mathlib.Data.List.Induction
import StreamUP.Protocol.CongestionRuns

/-! How the window grows with acks over exact integers: what splitting an ack can and cannot do. -/

namespace StreamUP

/-- An ack acknowledges no fewer bytes than none. -/
def CongestionEvent.Nonnegative : CongestionEvent → Prop
  -- What a timeout says is not looked at.
  | .onAck numBytes => 0 ≤ numBytes
  | .onTimeout => True

namespace TCPCongestionControl

/-- A state that acks and timeouts lead to from the constructor, over exact integers. -/
def ExactlyReachable (getMSS : Int) (self : TCPCongestionControl) : Prop :=
  ∃ events : List CongestionEvent, (∀ event ∈ events, event.Nonnegative) ∧
    events.foldl (exactStep getMSS) new = self

/-- The state after one ack and then the next, to the end of a list. -/
def exactAcks (getMSS : Int) (self : TCPCongestionControl) (acks : List Int) :
    TCPCongestionControl :=
  acks.foldl (exactAck getMSS) self

variable {getMSS : Int} {self : TCPCongestionControl}

@[simp] theorem exactAcks_nil : exactAcks getMSS self [] = self := rfl

@[simp] theorem exactAcks_cons (numBytes : Int) (acks : List Int) :
    exactAcks getMSS self (numBytes :: acks)
      = exactAcks getMSS (self.exactAck getMSS numBytes) acks := rfl

/-- A smaller divisor leaves a larger quotient. -/
theorem ediv_le_ediv_of_le {product small large : Int} (nonneg : 0 ≤ product)
    (positive : 0 < small) (le : small ≤ large) : product / large ≤ product / small := by
  -- The quotient by the larger divisor still fits into the product that many times.
  have share : 0 ≤ product / large := Int.ediv_nonneg nonneg (by omega)
  refine (Int.le_ediv_iff_mul_le positive).mpr ?_
  calc product / large * small ≤ product / large * large := Int.mul_le_mul_of_nonneg_left le share
    _ ≤ product := Int.ediv_mul_le product (by omega)

/-- In slow start an ack adds the bytes it acknowledges. -/
theorem cWnd_exactAck_slowStart (starting : self.stage = .slowStart) (numBytes : Int) :
    (self.exactAck getMSS numBytes).cWnd = self.cWnd + numBytes := by
  -- The comparison with the threshold decides the next stage only.
  simp only [exactAck, starting]
  split <;> rfl

/-- In avoidance an ack adds its share of the segment size, rounded down. -/
theorem exactAck_avoidance (avoiding : self.stage = .congestionAvoidance) {numBytes : Int}
    (nonneg : 0 ≤ getMSS * numBytes) :
    self.exactAck getMSS numBytes
      = { self with cWnd := self.cWnd + getMSS * numBytes / self.cWnd } := by
  -- On numbers that are not negative, truncation is the floor.
  simp only [exactAck, avoiding, Int.tdiv_eq_ediv_of_nonneg nonneg]

/-- Once in avoidance, acks do not leave it. -/
theorem stage_exactAck_avoidance (avoiding : self.stage = .congestionAvoidance) (numBytes : Int) :
    (self.exactAck getMSS numBytes).stage = .congestionAvoidance := by
  -- Only a timeout goes back to slow start.
  simp only [exactAck, avoiding]

/-- No ack shrinks a window that is positive. -/
theorem cWnd_le_exactAck (low : 0 ≤ getMSS) (positive : 0 < self.cWnd) {numBytes : Int}
    (nonneg : 0 ≤ numBytes) : self.cWnd ≤ (self.exactAck getMSS numBytes).cWnd := by
  cases staged : self.stage with
  | slowStart =>
    rw [cWnd_exactAck_slowStart staged]
    omega
  | congestionAvoidance =>
    have product : 0 ≤ getMSS * numBytes := Int.mul_nonneg low nonneg
    have share : 0 ≤ getMSS * numBytes / self.cWnd := Int.ediv_nonneg product (by omega)
    rw [exactAck_avoidance staged product]
    show self.cWnd ≤ self.cWnd + getMSS * numBytes / self.cWnd
    omega

/-- An ack grows a window of at least one segment by no more than it acknowledges. -/
theorem cWnd_exactAck_le_add (low : 0 ≤ getMSS) (positive : 0 < self.cWnd)
    (segment : getMSS ≤ self.cWnd) {numBytes : Int} (nonneg : 0 ≤ numBytes) :
    (self.exactAck getMSS numBytes).cWnd ≤ self.cWnd + numBytes := by
  cases staged : self.stage with
  | slowStart => exact Int.le_of_eq (cWnd_exactAck_slowStart staged numBytes)
  | congestionAvoidance =>
    have product : 0 ≤ getMSS * numBytes := Int.mul_nonneg low nonneg
    -- The segment size is divided by a window that is no smaller.
    have share : getMSS * numBytes / self.cWnd ≤ numBytes := by
      refine Int.ediv_le_of_le_mul positive ?_
      rw [Int.mul_comm getMSS]
      exact Int.mul_le_mul_of_nonneg_left segment nonneg
    rw [exactAck_avoidance staged product]
    show self.cWnd + getMSS * numBytes / self.cWnd ≤ self.cWnd + numBytes
    omega

/-- No call takes the window below its initial size. -/
theorem initCwnd_le_exactStep {event : CongestionEvent} (low : 0 ≤ getMSS)
    (nonnegative : event.Nonnegative) (wide : initCwnd ≤ self.cWnd) :
    initCwnd ≤ (self.exactStep getMSS event).cWnd := by
  -- An ack only adds to the window, and a timeout resets it to that size.
  cases event with
  | onAck numBytes =>
    have positive : 0 < self.cWnd := positive_of_wide wide
    exact Int.le_trans wide (cWnd_le_exactAck low positive nonnegative)
  | onTimeout => exact Int.le_refl initCwnd

/-- The window of a reachable state is no smaller than the initial one. -/
theorem ExactlyReachable.wide (reached : ExactlyReachable getMSS self) (low : 0 ≤ getMSS) :
    initCwnd ≤ self.cWnd := by
  obtain ⟨events, nonnegative, rfl⟩ := reached
  -- The induction is on the end of the list, where the last call has been made.
  induction events using List.reverseRecOn with
  | nil => exact Int.le_refl initCwnd
  | append_singleton events last ih =>
    rw [List.foldl_concat]
    exact initCwnd_le_exactStep low (nonnegative last (by simp))
      (ih fun event member => nonnegative event (List.mem_append_left _ member))

/-- No list of acks shrinks a window that is positive. -/
theorem cWnd_le_exactAcks {acks : List Int} (low : 0 ≤ getMSS) (positive : 0 < self.cWnd)
    (each : ∀ numBytes ∈ acks, 0 < numBytes) :
    self.cWnd ≤ (exactAcks getMSS self acks).cWnd := by
  -- The induction follows the list, and each ack moves the starting state.
  induction acks generalizing self with
  | nil => exact Int.le_refl _
  | cons numBytes acks ih =>
    rw [List.forall_mem_cons] at each
    have grown := cWnd_le_exactAck low positive (Int.le_of_lt each.1)
    exact Int.le_trans grown (ih (Int.lt_of_lt_of_le positive grown) each.2)

/-- A list of acks grows a window of at least one segment by no more than it acknowledges. -/
theorem cWnd_exactAcks_le_add {acks : List Int} (low : 0 ≤ getMSS) (positive : 0 < self.cWnd)
    (segment : getMSS ≤ self.cWnd) (each : ∀ numBytes ∈ acks, 0 < numBytes) :
    (exactAcks getMSS self acks).cWnd ≤ self.cWnd + acks.sum := by
  induction acks generalizing self with
  | nil => simp
  | cons numBytes acks ih =>
    rw [List.forall_mem_cons] at each
    have nonneg : 0 ≤ numBytes := Int.le_of_lt each.1
    -- The window does not shrink, so it keeps room for a segment.
    have grown := cWnd_le_exactAck low positive nonneg
    have first := cWnd_exactAck_le_add low positive segment nonneg
    have rest := ih (Int.lt_of_lt_of_le positive grown) (Int.le_trans segment grown) each.2
    rw [exactAcks_cons, List.sum_cons]
    omega

/--
In avoidance a list of acks adds no more than the share of their sum.

The share is that of any window no larger than the one at the start.
-/
theorem cWnd_exactAcks_avoidance_le {acks : List Int} {window : Int} (low : 0 ≤ getMSS)
    (positive : 0 < window) (wide : window ≤ self.cWnd)
    (avoiding : self.stage = .congestionAvoidance) (each : ∀ numBytes ∈ acks, 0 < numBytes) :
    (exactAcks getMSS self acks).cWnd ≤ self.cWnd + getMSS * acks.sum / window := by
  induction acks generalizing self with
  | nil => simp
  | cons numBytes acks ih =>
    rw [List.forall_mem_cons] at each
    have nonneg : 0 ≤ numBytes := Int.le_of_lt each.1
    have product : 0 ≤ getMSS * numBytes := Int.mul_nonneg low nonneg
    have grown := cWnd_le_exactAck low (Int.lt_of_lt_of_le positive wide) nonneg
    have rest := ih (Int.le_trans wide grown) (stage_exactAck_avoidance avoiding numBytes) each.2
    -- The first ack is divided by the window it meets, which is no smaller than the fixed one.
    have first : (self.exactAck getMSS numBytes).cWnd
        ≤ self.cWnd + getMSS * numBytes / window := by
      rw [exactAck_avoidance avoiding product]
      exact Int.add_le_add_left (ediv_le_ediv_of_le product positive wide) self.cWnd
    -- What two roundings lose is no less than what one of them loses.
    have once : getMSS * numBytes / window + getMSS * acks.sum / window
        ≤ getMSS * (numBytes + acks.sum) / window := by
      rw [Int.mul_add]
      exact Int.ediv_add_ediv_le_add_ediv positive
    rw [exactAcks_cons, List.sum_cons]
    omega

/-- A sum of positive acks is not negative. -/
theorem sum_acks_nonneg {acks : List Int} (each : ∀ numBytes ∈ acks, 0 < numBytes) :
    0 ≤ acks.sum :=
  List.sum_nonneg fun numBytes member => Int.le_of_lt (each numBytes member)

/--
Splitting acks never pays.

In avoidance, acks of no more than a window raise the window by no more than one segment.
-/
theorem exactAcks_le_exactAck_sum (low : 1 ≤ getMSS) (high : getMSS ≤ initCwnd)
    (reached : ExactlyReachable getMSS self) {acks : List Int}
    (each : ∀ numBytes ∈ acks, 0 < numBytes) :
    (exactAcks getMSS self acks).cWnd ≤ (self.exactAck getMSS acks.sum).cWnd ∧
      (self.stage = .congestionAvoidance → acks.sum ≤ self.cWnd →
        (exactAcks getMSS self acks).cWnd ≤ self.cWnd + getMSS) := by
  have nonneg : 0 ≤ getMSS := by omega
  have wide := reached.wide nonneg
  have positive : 0 < self.cWnd := positive_of_wide wide
  have product : 0 ≤ getMSS * acks.sum := Int.mul_nonneg nonneg (sum_acks_nonneg each)
  constructor
  · cases staged : self.stage with
    | slowStart =>
      -- The single ack counts in full, and the split ones at most that, whatever the stage.
      rw [cWnd_exactAck_slowStart staged]
      exact cWnd_exactAcks_le_add nonneg positive (Int.le_trans high wide) each
    | congestionAvoidance =>
      rw [exactAck_avoidance staged product]
      exact cWnd_exactAcks_avoidance_le nonneg positive (Int.le_refl _) staged each
  · intro avoiding within
    have grown := cWnd_exactAcks_avoidance_le nonneg positive (Int.le_refl _) avoiding each
    have share : getMSS * acks.sum / self.cWnd ≤ getMSS :=
      Int.ediv_le_of_le_mul positive (Int.mul_le_mul_of_nonneg_left within nonneg)
    omega

/-- A window that starts over, with a threshold that its next ack reaches. -/
def startedOver : TCPCongestionControl where
  -- A timeout has halved a window of twice the initial size.
  cWnd := 1200
  ssThresh := 1200
  stage := .slowStart

/-- Two acks, the first of which leaves slow start, raise it no more than one ack of their sum. -/
theorem exactAcks_startedOver :
    ExactlyReachable 1200 startedOver ∧
      (startedOver.exactAck 1200 600).stage = .congestionAvoidance ∧
      (exactAcks 1200 startedOver [600, 600]).cWnd ≤ (startedOver.exactAck 1200 1200).cWnd := by
  have reached : ExactlyReachable 1200 startedOver := by
    refine ⟨[.onAck 1200, .onTimeout], ?_, by decide⟩
    simp [CongestionEvent.Nonnegative]
  have each : ∀ numBytes ∈ ([600, 600] : List Int), 0 < numBytes := by decide
  exact ⟨reached, by decide, (exactAcks_le_exactAck_sum (by decide) (by decide) reached each).1⟩

/-- In avoidance, an ack that is too small for the window leaves everything as it is. -/
theorem exactAck_of_small (low : 0 ≤ getMSS) (avoiding : self.stage = .congestionAvoidance)
    {numBytes : Int} (positive : 0 < numBytes) (small : getMSS * numBytes < self.cWnd) :
    self.exactAck getMSS numBytes = self := by
  -- The share is rounded down to nothing.
  have product : 0 ≤ getMSS * numBytes := Int.mul_nonneg low (Int.le_of_lt positive)
  have nothing : getMSS * numBytes / self.cWnd = 0 := Int.ediv_eq_zero_of_lt product small
  rw [exactAck_avoidance avoiding product, nothing, Int.add_zero]

/-- In avoidance, acks that are all too small for the window leave everything as it is. -/
theorem exactAcks_of_small {acks : List Int} (low : 0 ≤ getMSS)
    (avoiding : self.stage = .congestionAvoidance) (each : ∀ numBytes ∈ acks, 0 < numBytes)
    (small : ∀ numBytes ∈ acks, getMSS * numBytes < self.cWnd) :
    exactAcks getMSS self acks = self := by
  -- The next ack always meets the same state.
  induction acks with
  | nil => rfl
  | cons numBytes acks ih =>
    rw [List.forall_mem_cons] at each small
    rw [exactAcks_cons, exactAck_of_small low avoiding each.1 small.1]
    exact ih each.2 small.2

/-- In avoidance, an ack that is large enough for the window grows it. -/
theorem cWnd_lt_exactAck (avoiding : self.stage = .congestionAvoidance) (positive : 0 < self.cWnd)
    {numBytes : Int} (large : self.cWnd ≤ getMSS * numBytes) :
    self.cWnd < (self.exactAck getMSS numBytes).cWnd := by
  -- The window fits into the product at least once.
  have share : 1 ≤ getMSS * numBytes / self.cWnd :=
    (Int.le_ediv_iff_mul_le positive).mpr (by omega)
  rw [exactAck_avoidance avoiding (by omega)]
  show self.cWnd < self.cWnd + getMSS * numBytes / self.cWnd
  omega

/-- In avoidance, a list of acks grows the window when one of them is large enough. -/
theorem cWnd_lt_exactAcks {acks : List Int} (low : 0 ≤ getMSS) (positive : 0 < self.cWnd)
    (avoiding : self.stage = .congestionAvoidance) (each : ∀ numBytes ∈ acks, 0 < numBytes)
    (some : ∃ numBytes ∈ acks, self.cWnd ≤ getMSS * numBytes) :
    self.cWnd < (exactAcks getMSS self acks).cWnd := by
  induction acks with
  | nil => simp at some
  | cons numBytes acks ih =>
    rw [List.forall_mem_cons] at each
    rw [List.exists_mem_cons_iff] at some
    rw [exactAcks_cons]
    rcases Int.lt_or_le (getMSS * numBytes) self.cWnd with small | large
    · -- The first ack does nothing, so the large one is still to come.
      have later := some.resolve_left (Int.not_le.mpr small)
      rw [exactAck_of_small low avoiding each.1 small]
      exact ih each.2 later
    · -- The first ack grows the window, and the others do not shrink it.
      have grown := cWnd_lt_exactAck avoiding positive large
      exact Int.lt_of_lt_of_le grown (cWnd_le_exactAcks low (Int.lt_trans positive grown) each.2)

/--
In avoidance, a list of acks grows the window exactly when one of them is large enough.

How many bytes the list acknowledges does not matter.
-/
theorem cWnd_lt_exactAcks_iff (low : 1 ≤ getMSS) (reached : ExactlyReachable getMSS self)
    (avoiding : self.stage = .congestionAvoidance) {acks : List Int}
    (each : ∀ numBytes ∈ acks, 0 < numBytes) :
    self.cWnd < (exactAcks getMSS self acks).cWnd ↔
      ∃ numBytes ∈ acks, self.cWnd ≤ getMSS * numBytes := by
  have nonneg : 0 ≤ getMSS := by omega
  have positive : 0 < self.cWnd := positive_of_wide (reached.wide nonneg)
  constructor
  · intro grows
    by_contra none
    push Not at none
    -- Without such an ack nothing changes.
    rw [exactAcks_of_small nonneg avoiding each none] at grows
    omega
  · exact cWnd_lt_exactAcks nonneg positive avoiding each

/-- A window of a little more than the square of the segment size, in avoidance. -/
def wideWindow : TCPCongestionControl where
  -- A timeout has halved a window of twice this size.
  cWnd := 1440600
  ssThresh := 1440600
  stage := .congestionAvoidance

/-- An ack, a timeout and another ack lead there. -/
theorem wideWindow_reachable : ExactlyReachable 1200 wideWindow := by
  -- The second ack reaches the threshold that the timeout has set.
  refine ⟨[.onAck 2880000, .onTimeout, .onAck 1439400], ?_, by decide⟩
  simp [CongestionEvent.Nonnegative]

/-- Among smaller acks, one of one byte more than a segment grows this window. -/
theorem cWnd_lt_exactAcks_wideWindow :
    ExactlyReachable 1200 wideWindow ∧
      wideWindow.cWnd < (exactAcks 1200 wideWindow [1200, 1, 1201, 600]).cWnd := by
  have each : ∀ numBytes ∈ ([1200, 1, 1201, 600] : List Int), 0 < numBytes := by decide
  refine ⟨wideWindow_reachable,
    (cWnd_lt_exactAcks_iff (by decide) wideWindow_reachable rfl each).mpr ⟨1201, ?_, ?_⟩⟩
  · simp
  · decide

/-- Acks of one segment each, of more than the window together, leave the window as it is. -/
theorem wideWindow_stalls :
    ExactlyReachable 1200 wideWindow ∧ wideWindow.stage = .congestionAvoidance ∧
      wideWindow.cWnd ≤ (List.replicate 1201 1200).sum ∧
      ¬ wideWindow.cWnd < (exactAcks 1200 wideWindow (List.replicate 1201 1200)).cWnd := by
  -- The square of the segment size is smaller than the window.
  have small : ∀ numBytes ∈ List.replicate 1201 (1200 : Int),
      0 < numBytes ∧ 1200 * numBytes < wideWindow.cWnd := by
    intro numBytes member
    rw [List.eq_of_mem_replicate member]
    decide
  have same : exactAcks 1200 wideWindow (List.replicate 1201 1200) = wideWindow :=
    exactAcks_of_small (by decide) rfl (fun numBytes member => (small numBytes member).1)
      fun numBytes member => (small numBytes member).2
  refine ⟨wideWindow_reachable, rfl, ?_, ?_⟩
  · rw [List.sum_replicate]
    decide
  · rw [same]
    exact Int.lt_irrefl _

end TCPCongestionControl

end StreamUP
