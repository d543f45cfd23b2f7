import StreamUP.Foundation.Machine

/-! Bit vectors as runs of bytes: splitting, joining, and the big-endian byte string of a value. -/

namespace BigEndian

open Machine

variable {w : Nat}

/-- The byte of a value that holds bits `8 * index` to `8 * index + 7`. -/
def splitByte (value : BitVec w) (index : Nat) : Byte :=
  value.extractLsb' (8 * index) 8

/-- The value whose byte at each index below the count is given, its other bits being zero. -/
def joinBytes (w : Nat) (byteAt : Nat → Byte) : Nat → BitVec w
  -- The first byte is the least significant one.
  | 0 => 0
  | count + 1 => joinBytes w byteAt count ||| ((byteAt count).setWidth w <<< (8 * count))

/-- Base-256 digits of a value, most significant first. -/
def toBytes (count : Nat) (value : BitVec w) : List Byte :=
  (List.range count).map fun position => splitByte value (count - 1 - position)

/-- The value that has the given base-256 digits, most significant first. -/
def ofBytes (w count : Nat) (bytes : List Byte) : BitVec w :=
  joinBytes w (fun index => bytes.getD (count - 1 - index) 0) count

@[simp] theorem getLsbD_splitByte (value : BitVec w) (index bit : Nat) :
    (splitByte value index).getLsbD bit
      = (decide (bit < 8) && value.getLsbD (8 * index + bit)) := by
  -- A byte is a window of eight bits on the value.
  simp only [splitByte, BitVec.getLsbD_extractLsb']

/-- A joined value has at each bit the bit of the byte that covers it. -/
theorem getLsbD_joinBytes (byteAt : Nat → Byte) (count : Nat) {bit : Nat} (inside : bit < w) :
    (joinBytes w byteAt count).getLsbD bit
      = (decide (bit < 8 * count) && (byteAt (bit / 8)).getLsbD (bit % 8)) := by
  -- Each further byte adds the eight bits just above the ones already placed.
  induction count with
  | zero => simp [joinBytes]
  | succ count ih =>
    simp only [joinBytes, BitVec.getLsbD_or, ih, BitVec.getLsbD_shiftLeft, BitVec.getLsbD_setWidth]
    rcases Nat.lt_trichotomy (bit / 8) count with below | same | above
    · -- A bit placed earlier lies below the new byte's shift.
      have old : bit < 8 * count := by omega
      have shifted : bit < 8 * (count + 1) := by omega
      simp [old, shifted]
    · -- A bit of the new byte sits at its own offset within the shift.
      have new : ¬ bit < 8 * count := by omega
      have shifted : bit < 8 * (count + 1) := by omega
      have offset : bit - 8 * count = bit % 8 := by omega
      simp [new, shifted, offset, inside, same, show bit % 8 < w by omega]
    · -- A bit above the new byte is beyond every byte of the value.
      have new : ¬ bit < 8 * count := by omega
      have shifted : ¬ bit < 8 * (count + 1) := by omega
      have beyond : 8 ≤ bit - 8 * count := by omega
      simp [new, shifted, BitVec.getLsbD_of_ge _ _ beyond]

/-- Joining the bytes a whole number of bytes was split into gives the value back. -/
theorem joinBytes_splitByte {count : Nat} (whole : w = 8 * count) (value : BitVec w) :
    joinBytes w (splitByte value) count = value := by
  -- Bit by bit: each bit is found in the byte whose window covers it.
  apply BitVec.eq_of_getLsbD_eq
  intro bit inside
  have position : 8 * (bit / 8) + bit % 8 = bit := by omega
  rw [getLsbD_joinBytes _ _ inside, getLsbD_splitByte, position]
  simp [show bit < 8 * count by omega, show bit % 8 < 8 by omega]

/-- Splitting a joined value gives each byte back. -/
theorem splitByte_joinBytes (byteAt : Nat → Byte) {count index : Nat} (wide : 8 * count ≤ w)
    (inside : index < count) : splitByte (joinBytes w byteAt count) index = byteAt index := by
  -- Bit by bit: the window of a byte shows that byte and no other.
  apply BitVec.eq_of_getLsbD_eq
  intro bit below
  rw [getLsbD_splitByte, getLsbD_joinBytes _ _ (by omega)]
  have byteIndex : (8 * index + bit) / 8 = index := by omega
  have offset : (8 * index + bit) % 8 = bit := by omega
  simp [byteIndex, offset, below, show 8 * index + bit < 8 * count by omega]

/-- Joining reads only the bytes below the count. -/
theorem joinBytes_congr {first second : Nat → Byte} {count : Nat}
    (agree : ∀ index, index < count → first index = second index) :
    joinBytes w first count = joinBytes w second count := by
  -- A value looks at the bytes of its own width only.
  induction count with
  | zero => rfl
  | succ count ih =>
    rw [joinBytes, joinBytes, ih fun index below => agree index (by omega),
      agree count (Nat.lt_succ_self count)]

@[simp] theorem length_toBytes (count : Nat) (value : BitVec w) :
    (toBytes count value).length = count := by
  -- There is one digit for each index below the count.
  simp [toBytes]

/-- The digit at a position is the byte that many places from the most significant end. -/
theorem getD_toBytes {count position : Nat} (value : BitVec w) (inside : position < count) :
    (toBytes count value).getD position 0 = splitByte value (count - 1 - position) := by
  -- The digits run from the most significant byte down.
  simp [toBytes, List.getD_eq_getElem?_getD, inside]

/-- A value is recovered from its big-endian digits. -/
theorem ofBytes_toBytes {count : Nat} (whole : w = 8 * count) (value : BitVec w) :
    ofBytes w count (toBytes count value) = value := by
  -- The digit the join asks for at an index is the byte of that index.
  rw [← joinBytes_splitByte whole value, ofBytes]
  apply joinBytes_congr
  intro index inside
  rw [joinBytes_splitByte whole value, getD_toBytes value (by omega)]
  congr 1
  omega

/-- Digits are recovered from the value they stand for. -/
theorem toBytes_ofBytes {count : Nat} (whole : w = 8 * count) {bytes : List Byte}
    (length : bytes.length = count) : toBytes count (ofBytes w count bytes) = bytes := by
  -- Digit by digit: each one is the byte that stood at its place.
  apply List.ext_getElem
  · simp [length]
  · intro position inLeft inRight
    have inside : position < count := by omega
    have back : count - 1 - (count - 1 - position) = position := by omega
    simp only [toBytes, List.getElem_map, List.getElem_range, ofBytes]
    rw [splitByte_joinBytes _ (by omega) (by omega), back, List.getD_eq_getElem?_getD,
      List.getElem?_eq_getElem inRight, Option.getD_some]

/-- One byte is its own only digit. -/
@[simp] theorem ofBytes_singleton (byte : Byte) : ofBytes 8 1 [byte] = byte := by
  -- One digit is the whole number.
  apply BitVec.eq_of_getLsbD_eq
  intro bit inside
  rw [ofBytes, getLsbD_joinBytes _ _ inside]
  simp [inside, show bit / 8 = 0 by omega, show bit % 8 = bit by omega]

/-- Only the first bytes, as many as the value has, take part in decoding. -/
theorem ofBytes_append {count : Nat} {bytes : List Byte} (length : bytes.length = count)
    (rest : List Byte) : ofBytes w count (bytes ++ rest) = ofBytes w count bytes := by
  -- Digits behind the count are never looked at.
  apply joinBytes_congr
  intro index inside
  simp only [List.getD_eq_getElem?_getD]
  rw [List.getElem?_append_left (by omega)]

end BigEndian
