import Mathlib.Tactic.Linarith
import StreamUP.Foundation.Machine

/-! The congestion window of `TCPCongestionControl.h`, and when its `int` arithmetic is exact. -/

namespace StreamUP

open Fallible Machine

/-- `enum class TahoeStage`. -/
inductive TahoeStage where
  | slowStart
  | congestionAvoidance
  deriving DecidableEq, Repr

/-- The window a connection starts with, and starts over with. -/
abbrev initCwnd : Int := 1200

/-- The window, the threshold, and the stage; all numbers are an `int`. -/
structure TCPCongestionControl where
  cWnd : Int
  ssThresh : Int
  stage : TahoeStage
  deriving DecidableEq, Repr

namespace TCPCongestionControl

/-- The constructor. -/
def new : TCPCongestionControl where
  -- The threshold is out of reach until a timeout has set it.
  cWnd := initCwnd
  ssThresh := intMax
  stage := .slowStart

/-- `onSend`, which does nothing. -/
def onSend (self : TCPCongestionControl) (_ : Int) : TCPCongestionControl := self

/-- `getCongestionWindow`. -/
def getCongestionWindow (self : TCPCongestionControl) : Int := self.cWnd

/--
`onAck`, given what `getMSS` returns.

The round-trip time is not looked at.
-/
def onAck (getMSS : Int) (self : TCPCongestionControl) (numBytes : Int) :
    Except Fault TCPCongestionControl :=
  match self.stage with
  | .slowStart => do
    let cWnd ← checkedInt (self.cWnd + numBytes)
    -- The new window is compared with the threshold, which stays as it is.
    if cWnd ≥ self.ssThresh then return { self with cWnd, stage := .congestionAvoidance }
    return { self with cWnd }
  | .congestionAvoidance => do
    -- The product is formed before it is divided by the old window.
    let product ← checkedInt (getMSS * numBytes)
    let increase ← checkedDiv product self.cWnd
    let cWnd ← checkedInt (self.cWnd + increase)
    return { self with cWnd }

/-- `onTimeout`: half the window becomes the threshold, and slow start begins again. -/
def onTimeout (self : TCPCongestionControl) : Except Fault TCPCongestionControl := do
  -- The threshold is taken from the old window, before that is reset.
  let ssThresh ← checkedDiv self.cWnd 2
  return { cWnd := initCwnd, ssThresh, stage := .slowStart }

/-- What `onAck` computes on numbers without bounds. -/
def exactAck (getMSS : Int) (self : TCPCongestionControl) (numBytes : Int) :
    TCPCongestionControl :=
  -- The same operations in the same order, on unbounded integers.
  match self.stage with
  | .slowStart =>
    if self.cWnd + numBytes ≥ self.ssThresh then
      { self with cWnd := self.cWnd + numBytes, stage := .congestionAvoidance }
    else { self with cWnd := self.cWnd + numBytes }
  | .congestionAvoidance =>
    { self with cWnd := self.cWnd + (getMSS * numBytes).tdiv self.cWnd }

/-- What `onTimeout` computes on numbers without bounds. -/
def exactTimeout (self : TCPCongestionControl) : TCPCongestionControl where
  -- Half the window is rounded toward zero.
  cWnd := initCwnd
  ssThresh := self.cWnd.tdiv 2
  stage := .slowStart

/-- The window is between its initial size and the largest `int`. -/
structure Bounded (control : TCPCongestionControl) : Prop where
  low : initCwnd ≤ control.cWnd
  high : control.cWnd ≤ intMax

/-- A window of at least the initial size can be divided by. -/
theorem positive_of_wide {control : TCPCongestionControl} (wide : initCwnd ≤ control.cWnd) :
    0 < control.cWnd := by
  -- The initial size is 1200.
  unfold initCwnd at wide
  omega

/-- The window a connection starts with is in bounds. -/
theorem bounded_new : Bounded new := ⟨by decide, by decide⟩

/-- An ack whose arithmetic stays within `int`, by the stage it arrives in. -/
def AckFits (getMSS : Int) (self : TCPCongestionControl) (numBytes : Int) : Prop :=
  match self.stage with
  | .slowStart => numBytes ≤ intMax - self.cWnd
  | .congestionAvoidance =>
    -- The window can grow past the largest `int` by the last byte only.
    getMSS * numBytes ≤ intMax ∧ ¬ (self.cWnd = intMax ∧ getMSS * numBytes = intMax)

instance (getMSS numBytes : Int) :
    ∀ self : TCPCongestionControl, Decidable (self.AckFits getMSS numBytes)
  | ⟨_, _, .slowStart⟩ => inferInstanceAs (Decidable (_ ≤ _))
  | ⟨_, _, .congestionAvoidance⟩ => inferInstanceAs (Decidable (_ ∧ _))

/-- Adding a share of a bounded number to a bounded window leaves the bound in one case only. -/
theorem add_ediv_le {window product bound : Int} (two : 2 ≤ window) (high : window ≤ bound)
    (nonneg : 0 ≤ product) (small : product ≤ bound)
    (apart : ¬ (window = bound ∧ product = bound)) : window + product / window ≤ bound := by
  have share : product / window * window ≤ product := Int.ediv_mul_le product (by omega)
  have positive : 0 ≤ product / window := Int.ediv_nonneg nonneg (by omega)
  -- A share of one needs a window of at least the product, a greater share a smaller window.
  rcases Int.lt_or_le (product / window) 2 with less | more
  · rcases Int.lt_or_le (product / window) 1 with zero | one
    · omega
    · have single : product / window = 1 := by omega
      rw [single, Int.one_mul] at share
      omega
  · have both : 0 ≤ (window - 2) * (product / window - 1) :=
      Int.mul_nonneg (by omega) (by omega)
    nlinarith

/-- In avoidance, the window grows by what an ack adds, and stays in bounds where that fits. -/
theorem Bounded.avoidance {self : TCPCongestionControl} (bounded : self.Bounded) {product : Int}
    (nonneg : 0 ≤ product) (small : product ≤ intMax)
    (apart : ¬ (self.cWnd = intMax ∧ product = intMax)) :
    self.cWnd ≤ self.cWnd + product / self.cWnd ∧
      self.cWnd + product / self.cWnd ≤ intMax := by
  -- A window in bounds is at least two, which the bound on the sum needs.
  have wide := bounded.low
  simp only [initCwnd] at wide
  have share : 0 ≤ product / self.cWnd := Int.ediv_nonneg nonneg (by omega)
  exact ⟨by omega, add_ediv_le (by omega) bounded.high nonneg small apart⟩

/-- In bounds, an ack that fits computes the exact result. -/
theorem onAck_eq {getMSS : Int} {self : TCPCongestionControl} {numBytes : Int}
    (bounded : self.Bounded) (low : 1 ≤ getMSS) (nonneg : 0 ≤ numBytes)
    (fits : self.AckFits getMSS numBytes) :
    self.onAck getMSS numBytes = .ok (self.exactAck getMSS numBytes) := by
  -- Each intermediate result is an `int`, so each check passes.
  have wide := bounded.low
  simp only [initCwnd] at wide
  cases staged : self.stage with
  | slowStart =>
    simp only [AckFits, staged] at fits
    have sum : checkedInt (self.cWnd + numBytes) = .ok (self.cWnd + numBytes) :=
      checkedInt_of_nonneg (by omega) (by omega)
    simp only [onAck, exactAck, staged, sum, ok_bind, pure_eq_ok]
    split <;> rfl
  | congestionAvoidance =>
    simp only [AckFits, staged] at fits
    have nonneg' : 0 ≤ getMSS * numBytes := Int.mul_nonneg (by omega) nonneg
    obtain ⟨grows, bound⟩ := bounded.avoidance nonneg' fits.1 fits.2
    have product : checkedInt (getMSS * numBytes) = .ok (getMSS * numBytes) :=
      checkedInt_of_nonneg nonneg' fits.1
    have quotient : checkedDiv (getMSS * numBytes) self.cWnd
        = .ok (getMSS * numBytes / self.cWnd) :=
      checkedDiv_of_pos nonneg' fits.1 (by omega)
    have sum : checkedInt (self.cWnd + getMSS * numBytes / self.cWnd)
        = .ok (self.cWnd + getMSS * numBytes / self.cWnd) :=
      checkedInt_of_nonneg (by omega) bound
    simp only [onAck, exactAck, staged, product, quotient, sum, ok_bind, pure_eq_ok,
      Int.tdiv_eq_ediv_of_nonneg nonneg']

/-- In bounds, an ack that does not fit overflows. -/
theorem onAck_overflows {getMSS : Int} {self : TCPCongestionControl} {numBytes : Int}
    (bounded : self.Bounded) (low : 1 ≤ getMSS) (nonneg : 0 ≤ numBytes)
    (large : ¬ self.AckFits getMSS numBytes) :
    ∃ result, self.onAck getMSS numBytes = .error (.intOverflow result) := by
  -- In slow start the sum is too large, in avoidance the product or the last sum.
  have wide := bounded.low
  have narrow := bounded.high
  simp only [initCwnd, intMax] at wide narrow
  cases staged : self.stage with
  | slowStart =>
    simp only [AckFits, staged, intMax] at large
    have sum := checkedInt_of_lt (show intMax < self.cWnd + numBytes by
      simp only [intMax]; omega)
    exact ⟨_, by simp only [onAck, staged, sum, error_bind]; rfl⟩
  | congestionAvoidance =>
    simp only [AckFits, staged, intMax] at large
    have nonneg' : 0 ≤ getMSS * numBytes := Int.mul_nonneg (by omega) nonneg
    rcases Int.lt_or_le intMax (getMSS * numBytes) with more | less
    · -- The product itself is no `int`.
      have product := checkedInt_of_lt more
      exact ⟨_, by simp only [onAck, staged, product, error_bind]; rfl⟩
    · -- The product is the largest `int`, and so is the window, which grows by one.
      simp only [intMax] at less
      have both : self.cWnd = 2147483647 ∧ getMSS * numBytes = 2147483647 := by
        by_contra apart
        exact large ⟨less, apart⟩
      exact ⟨_, by simp only [onAck, staged, both.1, both.2]; rfl⟩

/-- In bounds, a timeout always succeeds. -/
theorem onTimeout_eq {self : TCPCongestionControl} (bounded : self.Bounded) :
    self.onTimeout = .ok self.exactTimeout := by
  -- A window that is positive can be halved.
  have nonneg : 0 ≤ self.cWnd := Int.le_of_lt (positive_of_wide bounded.low)
  have half : checkedDiv self.cWnd 2 = .ok (self.cWnd / 2) :=
    checkedDiv_of_pos nonneg bounded.high (by omega)
  simp only [onTimeout, exactTimeout, half, ok_bind, pure_eq_ok,
    Int.tdiv_eq_ediv_of_nonneg nonneg]

/-- An ack that fits keeps the window in bounds. -/
theorem bounded_exactAck {getMSS : Int} {self : TCPCongestionControl} {numBytes : Int}
    (bounded : self.Bounded) (low : 1 ≤ getMSS) (nonneg : 0 ≤ numBytes)
    (fits : self.AckFits getMSS numBytes) : (self.exactAck getMSS numBytes).Bounded := by
  -- The window only grows, and what fits stays below the bound.
  have wide := bounded.low
  cases staged : self.stage with
  | slowStart =>
    simp only [AckFits, staged] at fits
    have grows : initCwnd ≤ self.cWnd + numBytes := by omega
    have bound : self.cWnd + numBytes ≤ intMax := by omega
    simp only [exactAck, staged]
    split
    · exact ⟨grows, bound⟩
    · exact ⟨grows, bound⟩
  | congestionAvoidance =>
    simp only [AckFits, staged] at fits
    have nonneg' : 0 ≤ getMSS * numBytes := Int.mul_nonneg (by omega) nonneg
    obtain ⟨grows, bound⟩ := bounded.avoidance nonneg' fits.1 fits.2
    simp only [exactAck, staged, Int.tdiv_eq_ediv_of_nonneg nonneg']
    exact ⟨wide.trans grows, bound⟩

/-- A timeout puts the window back to its initial size. -/
theorem bounded_exactTimeout (self : TCPCongestionControl) : self.exactTimeout.Bounded :=
  -- It is the window of a new connection, which is in bounds.
  ⟨Int.le_refl initCwnd, bounded_new.high⟩

end TCPCongestionControl

end StreamUP
