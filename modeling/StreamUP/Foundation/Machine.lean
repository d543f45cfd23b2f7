import Mathlib.Data.Int.ModEq
import StreamUP.Foundation.Fallible

/-! Machine integers of C++, the faults its abstract machine can run into, and counted loops. -/

namespace Machine

/-- A `uint8_t`. -/
abbrev Byte := BitVec 8

/-- Largest value of an `int`. -/
abbrev intMax : Int := 2147483647

/-- Smallest value of an `int`. -/
abbrev intMin : Int := -2147483648

/-- A value of type `int`. -/
abbrev IntValue : Type := { value : Int // intMin ≤ value ∧ value ≤ intMax }

/-- Number of values of a `size_t`. -/
abbrev sizeCount : Nat := 18446744073709551616

/-- Conversion of an integer to `size_t`, which keeps its residue. -/
def toSizeT (value : Int) : Nat := (value % 18446744073709551616).toNat

/-- Conversion of an integer to `int`, which keeps its residue on the signed range. -/
def toInt (value : Int) : Int := (value + 2147483648) % 4294967296 - 2147483648

/-- Places where the language gives a program no further meaning, or where it throws. -/
inductive Fault where
  /-- Bytes `[index, index + count)` loaded from an object of `size` bytes. -/
  | readOutside (index count size : Nat)
  /-- Bytes `[index, index + count)` stored into an object of `size` bytes. -/
  | writeOutside (index count : Int) (size : Nat)
  /-- An unsigned difference of a cursor and its bound that went below zero. -/
  | cursorPastEnd (index size : Nat)
  /-- A signed operation whose exact result is no `int`. -/
  | intOverflow (result : Int)
  /-- A division by zero. -/
  | divisionByZero
  /-- A container asked for more elements than it can ever hold. -/
  | lengthError (count : Nat)
  /-- A dereference of a pointer to no object. -/
  | danglingPointer (address : Nat)
  deriving Repr, DecidableEq

/-- A signed operation: its exact result where that is an `int`, a fault elsewhere. -/
def checkedInt (result : Int) : Except Fault Int :=
  if intMin ≤ result ∧ result ≤ intMax then .ok result else .error (.intOverflow result)

/-- Signed division, which truncates toward zero and traps on a zero divisor. -/
def checkedDiv (dividend divisor : Int) : Except Fault Int :=
  if divisor = 0 then .error .divisionByZero else checkedInt (dividend.tdiv divisor)

/-- Store one element into a container, inside its bounds only. -/
def storeAt {α : Type} (container : List α) (index : Nat) (value : α) : Except Fault (List α) :=
  -- An index at the end or beyond is outside.
  if index < container.length then .ok (container.set index value)
  else .error (.writeOutside index 1 container.length)

/-- Copy a run of elements to the front of a container, inside its bounds only. -/
def copyToFront {α : Type} (container source : List α) : Except Fault (List α) :=
  -- Everything behind the run that was copied stays.
  if source.length ≤ container.length then .ok (source ++ container.drop source.length)
  else .error (.writeOutside 0 source.length container.length)

/-- A sum that stays within `size_t` is the exact sum. -/
theorem toSizeT_of_lt {value : Nat} (fits : value < sizeCount) : toSizeT value = value := by
  -- The residue of a number below the modulus is the number.
  simp only [sizeCount] at fits
  unfold toSizeT
  omega

/-- A number on the signed range is unchanged by the conversion to `int`. -/
theorem toInt_of_mem {value : Int} (low : intMin ≤ value) (high : value ≤ intMax) :
    toInt value = value := by
  -- Shifted by the range's start, the value is its own residue.
  simp only [intMin, intMax] at low high
  unfold toInt
  omega

/-- A conversion to `int` always gives an `int`. -/
theorem toInt_mem (value : Int) : intMin ≤ toInt value ∧ toInt value ≤ intMax := by
  -- A residue shifted back by half the modulus is on the signed range.
  simp only [toInt, intMin, intMax]
  omega

/-- A signed operation succeeds exactly when its exact result is an `int`. -/
theorem checkedInt_ok {result value : Int} :
    checkedInt result = .ok value ↔ value = result ∧ intMin ≤ result ∧ result ≤ intMax := by
  -- The two branches of the check are the two directions.
  unfold checkedInt
  split
  · rename_i fits
    simp [fits, eq_comm]
  · rename_i outside
    simp only [reduceCtorEq, false_iff]
    tauto

/-- A result that is not negative passes the check where it is not too large. -/
theorem checkedInt_of_nonneg {result : Int} (nonneg : 0 ≤ result) (small : result ≤ intMax) :
    checkedInt result = .ok result := by
  -- Zero is above the smallest `int`.
  have low : intMin ≤ result := by
    simp only [intMin]
    omega
  exact checkedInt_ok.mpr ⟨rfl, low, small⟩

/-- A signed operation whose exact result is too large overflows. -/
theorem checkedInt_of_lt {result : Int} (large : intMax < result) :
    checkedInt result = .error (.intOverflow result) := by
  -- Beyond the largest `int` the check fails whatever the lower bound.
  unfold checkedInt
  rw [if_neg (by omega)]

/-- Dividing an `int` that is not negative by a positive one is exact. -/
theorem checkedDiv_of_pos {dividend divisor : Int} (low : 0 ≤ dividend) (high : dividend ≤ intMax)
    (positive : 0 < divisor) : checkedDiv dividend divisor = .ok (dividend / divisor) := by
  -- Truncation is toward zero from above, and the quotient is no larger than the dividend.
  have quotient := Int.ediv_le_self divisor low
  have below := Int.ediv_nonneg low (Int.le_of_lt positive)
  unfold checkedDiv
  rw [if_neg (by omega), Int.tdiv_eq_ediv_of_nonneg low]
  exact checkedInt_of_nonneg below (quotient.trans high)

/-- A store inside the bounds replaces one element. -/
theorem storeAt_of_lt {α : Type} {container : List α} {index : Nat} (value : α)
    (inside : index < container.length) :
    storeAt container index value = .ok (container.set index value) := by
  -- The bound is the one the store checks.
  simp only [storeAt, if_pos inside]

/-- A copy that fits replaces the front and keeps everything after it. -/
theorem copyToFront_of_le {α : Type} (container source : List α)
    (room : source.length ≤ container.length) :
    copyToFront container source = .ok (source ++ container.drop source.length) := by
  -- The bound is the one the copy checks.
  simp only [copyToFront, if_pos room]

/-- A counted loop: the body runs once for each index below the count, in ascending order. -/
def forLoop {ε σ : Type} (body : Nat → σ → Except ε σ) : Nat → σ → Except ε σ
  -- The last iteration is peeled off, so that a loop invariant is indexed by the loop variable.
  | 0, state => .ok state
  | count + 1, state => forLoop body count state >>= body count

/-- A loop whose body succeeds and advances its invariant ends with the invariant at the count. -/
theorem forLoop_ok {ε σ : Type} (body : Nat → σ → Except ε σ) (count : Nat) (start : σ)
    (invariant : Nat → σ → Prop) (entry : invariant 0 start)
    (step : ∀ index state, index < count → invariant index state →
      ∃ next, body index state = .ok next ∧ invariant (index + 1) next) :
    ∃ final, forLoop body count start = .ok final ∧ invariant count final := by
  -- The induction follows the loop itself: all iterations but the last, then the last.
  induction count with
  | zero => exact ⟨start, rfl, entry⟩
  | succ count ih =>
    obtain ⟨middle, ran, holds⟩ := ih fun index state below => step index state (by omega)
    obtain ⟨final, last, done⟩ := step count middle (by omega) holds
    exact ⟨final, by simp [forLoop, ran, last], done⟩

/-- A loop that has failed after some iterations fails in the same way when it is given more. -/
theorem forLoop_error {ε σ : Type} {body : Nat → σ → Except ε σ} {start : σ} {error : ε}
    {count total : Nat} (failed : forLoop body count start = .error error)
    (more : count ≤ total) : forLoop body total start = .error error := by
  -- The iterations after the failed one are never reached.
  induction total, more using Nat.le_induction with
  | base => exact failed
  | succ total _ ih => simp [forLoop, ih]

end Machine
