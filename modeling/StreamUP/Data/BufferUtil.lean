import StreamUP.Foundation.BigEndian

/-! The templates of `BufferUtil.h`: arithmetic values as big-endian bytes, on either host. -/

namespace StreamUP.BufferUtil

open Machine BigEndian

/-- The types the templates are instantiated at, `std::is_arithmetic` being their requirement. -/
inductive Arithmetic where
  | uint8 | int8 | uint16 | int16 | uint32 | int32 | uint64 | int64
  | float | double
  deriving DecidableEq, Repr

/-- `std::endian::native` of the host the code is compiled for. -/
inductive Endian where
  | little
  | big
  deriving DecidableEq, Repr

namespace Arithmetic

/-- `sizeof(T)`. -/
def size : Arithmetic → Nat
  -- `sizeof` of each type, on every platform the library is built for.
  | uint8 | int8 => 1
  | uint16 | int16 => 2
  | uint32 | int32 | float => 4
  | uint64 | int64 | double => 8

/-- `std::is_integral_v<T>`. -/
def isIntegral : Arithmetic → Bool
  -- `std::is_integral`, which leaves the two floating-point types to the other overload.
  | float | double => false
  | _ => true

/-- `std::is_signed_v<T>`. -/
def isSigned : Arithmetic → Bool
  -- `std::is_signed` of an integer type.
  | int8 | int16 | int32 | int64 | float | double => true
  | uint8 | uint16 | uint32 | uint64 => false

/-- A value of the type, as its object representation: two's complement or IEEE bit pattern. -/
abbrev Value (t : Arithmetic) : Type := BitVec (8 * t.size)

/-- Width of the type after integral promotion: anything narrower than `int` becomes `int`. -/
def promotedBits (t : Arithmetic) : Nat := max 32 (8 * t.size)

/-- Whether the promoted type is signed, as `int` is even when promoted from an unsigned type. -/
def promotesToSigned (t : Arithmetic) : Bool := t.isSigned || decide (8 * t.size < 32)

/-- Integral promotion, which keeps the value: sign extension or zero extension. -/
def promote (t : Arithmetic) (value : t.Value) : BitVec t.promotedBits :=
  if t.isSigned then value.signExtend t.promotedBits else value.setWidth t.promotedBits

/-- `value >> count`: arithmetic on a signed promoted type, logical on an unsigned one. -/
def shiftRight (t : Arithmetic) (value : t.Value) (count : Nat) : BitVec t.promotedBits :=
  if t.promotesToSigned then (t.promote value).sshiftRight count else t.promote value >>> count

/-- `static_cast<T>(byte) << count`, in the promoted type. -/
def shiftLeft (t : Arithmetic) (byte : Byte) (count : Nat) : BitVec t.promotedBits :=
  t.promote (byte.setWidth (8 * t.size)) <<< count

end Arithmetic

open Arithmetic

/-- Bytes `data[0]` to `data[N - 1]` as the loop of `writeInt` stores them, and the returned `N`. -/
def writeInt (t : Arithmetic) (value : t.Value) : List Byte × Nat :=
  ((List.range t.size).map fun i => (t.shiftRight value (8 * (t.size - 1 - i))).setWidth 8, t.size)

/-- The variable `value` of `readInt` after the given number of iterations. -/
def readIntLoop (t : Arithmetic) (data : List Byte) : Nat → t.Value
  | 0 => 0
  | i + 1 =>
    -- `value |= e` computes in the promoted type and converts back to `T`.
    (t.promote (readIntLoop t data i)
      ||| t.shiftLeft (data.getD i 0) (8 * (t.size - 1 - i))).setWidth (8 * t.size)

/-- The value `readInt` leaves in its out parameter, and the returned `N`. -/
def readInt (t : Arithmetic) (data : List Byte) : t.Value × Nat :=
  (readIntLoop t data t.size, t.size)

/-- `std::bit_cast` of a floating-point value to bytes: the host decides their order. -/
def bitCastToBytes (host : Endian) (t : Arithmetic) (value : t.Value) : List Byte :=
  -- The host stores the least or the most significant byte first.
  match host with
  | .little => (List.range t.size).map (splitByte value)
  | .big => (List.range t.size).map fun i => splitByte value (t.size - 1 - i)

/-- `std::bit_cast` of bytes back to a floating-point value, in the host's order. -/
def bitCastFromBytes (host : Endian) (t : Arithmetic) (bytes : List Byte) : t.Value :=
  -- The cast back reads the bytes in the order of the host.
  match host with
  | .little => joinBytes (8 * t.size) (fun i => bytes.getD i 0) t.size
  | .big => joinBytes (8 * t.size) (fun i => bytes.getD (t.size - 1 - i) 0) t.size

/-- `std::reverse` when the host is little-endian. -/
def reverseOnLittle (host : Endian) (bytes : List Byte) : List Byte :=
  if host = .little then bytes.reverse else bytes

/-- Bytes `writeFloat` stores, and the returned `N`. -/
def writeFloat (host : Endian) (t : Arithmetic) (value : t.Value) : List Byte × Nat :=
  (reverseOnLittle host (bitCastToBytes host t value), t.size)

/-- The value `readFloat` leaves in its out parameter, and the returned `N`. -/
def readFloat (host : Endian) (t : Arithmetic) (data : List Byte) : t.Value × Nat :=
  (bitCastFromBytes host t (reverseOnLittle host (data.take t.size)), t.size)

/-- `write<T>`: the integral or the floating-point encoder, chosen at compile time. -/
def write (host : Endian) (t : Arithmetic) (value : t.Value) : List Byte × Nat :=
  if t.isIntegral then writeInt t value else writeFloat host t value

/-- `read<T>`: the integral or the floating-point decoder, chosen at compile time. -/
def read (host : Endian) (t : Arithmetic) (data : List Byte) : t.Value × Nat :=
  if t.isIntegral then readInt t data else readFloat host t data

/-- Every type is at least one byte wide and at most eight. -/
theorem size_bounds (t : Arithmetic) : 1 ≤ t.size ∧ t.size ≤ 8 := by
  cases t <;> decide

/-- Promotion never narrows. -/
theorem le_promotedBits (t : Arithmetic) : 8 * t.size ≤ t.promotedBits :=
  Nat.le_max_right _ _

/-- Promotion keeps every bit of the value, whatever it puts above them. -/
theorem getLsbD_promote (t : Arithmetic) (value : t.Value) {bit : Nat} (inside : bit < 8 * t.size) :
    (t.promote value).getLsbD bit = value.getLsbD bit := by
  -- Below the width promotion copies the bit, above it repeats the sign or a zero.
  have wide : bit < t.promotedBits := Nat.lt_of_lt_of_le inside (le_promotedBits t)
  unfold promote
  split
  · rw [BitVec.getLsbD_signExtend]
    simp [wide, inside]
  · rw [BitVec.getLsbD_setWidth]
    simp [wide]

/-- A right shift brings down the bits of the value, as long as it does not run out of them. -/
theorem getLsbD_shiftRight (t : Arithmetic) (value : t.Value) {count bit : Nat}
    (inside : count + bit < 8 * t.size) :
    (t.shiftRight value count).getLsbD bit = value.getLsbD (count + bit) := by
  -- Only the low bits of the shifted value survive the conversion to a byte.
  have wide : count + bit < t.promotedBits := Nat.lt_of_lt_of_le inside (le_promotedBits t)
  have promoted := getLsbD_promote t value inside
  unfold shiftRight
  split
  · -- The sign bits an arithmetic shift brings in land above the bits asked for.
    rw [BitVec.getLsbD_sshiftRight, if_pos wide, promoted]
    simp [show ¬ t.promotedBits ≤ bit by omega]
  · rw [BitVec.getLsbD_ushiftRight, promoted]

/-- A shifted byte occupies eight bits of the value, below the width of the type. -/
theorem getLsbD_shiftLeft (t : Arithmetic) (byte : Byte) {count bit : Nat}
    (inside : bit < 8 * t.size) :
    (t.shiftLeft byte count).getLsbD bit
      = (decide (count ≤ bit) && byte.getLsbD (bit - count)) := by
  -- The byte is promoted before it is shifted, so no bit of it is lost.
  have wide : bit < t.promotedBits := Nat.lt_of_lt_of_le inside (le_promotedBits t)
  unfold shiftLeft
  rw [BitVec.getLsbD_shiftLeft, getLsbD_promote t _ (by omega), BitVec.getLsbD_setWidth]
  by_cases placed : count ≤ bit
  · simp [wide, placed, show bit - count < 8 * t.size by omega]
  · simp [placed, show bit < count by omega]

/-- The shift loop of `writeInt` stores the big-endian digits of the value, signed or not. -/
theorem writeInt_eq (t : Arithmetic) (value : t.Value) :
    writeInt t value = (toBytes t.size value, t.size) := by
  have positive := (size_bounds t).1
  simp only [writeInt, toBytes, Prod.mk.injEq, and_true]
  apply List.map_congr_left
  intro i member
  have below : i < t.size := List.mem_range.mp member
  -- Compare the stored byte and the digit bit by bit.
  apply BitVec.eq_of_getLsbD_eq
  intro bit small
  rw [BitVec.getLsbD_setWidth, getLsbD_shiftRight t value (by omega), getLsbD_splitByte]

/-- After some iterations `readInt` has placed that many bytes, from the most significant down. -/
theorem getLsbD_readIntLoop (t : Arithmetic) (data : List Byte) {iterations bit : Nat}
    (bound : iterations ≤ t.size) (inside : bit < 8 * t.size) :
    (readIntLoop t data iterations).getLsbD bit
      = (decide (8 * (t.size - iterations) ≤ bit)
          && (data.getD (t.size - 1 - bit / 8) 0).getLsbD (bit % 8)) := by
  -- After some rounds, the value has the bits of the bytes read so far and no others.
  induction iterations with
  | zero => simp [readIntLoop, show ¬ 8 * t.size ≤ bit by omega]
  | succ i ih =>
    rw [readIntLoop, BitVec.getLsbD_setWidth, BitVec.getLsbD_or, getLsbD_promote t _ inside,
      getLsbD_shiftLeft t _ inside, ih (by omega)]
    rcases Nat.lt_trichotomy (bit / 8) (t.size - 1 - i) with below | same | above
    · -- The loop has not come down to this bit yet.
      simp [show ¬ 8 * (t.size - i) ≤ bit by omega, show ¬ 8 * (t.size - 1 - i) ≤ bit by omega,
        show ¬ 8 * (t.size - (i + 1)) ≤ bit by omega]
    · -- This iteration places exactly the byte that covers the bit.
      have position : t.size - 1 - bit / 8 = i := by omega
      have offset : bit - 8 * (t.size - 1 - i) = bit % 8 := by omega
      simp [inside, position, offset, show ¬ 8 * (t.size - i) ≤ bit by omega,
        show 8 * (t.size - 1 - i) ≤ bit by omega, show 8 * (t.size - (i + 1)) ≤ bit by omega]
    · -- The bit was placed by an earlier iteration and lies above this byte.
      have beyond : 8 ≤ bit - 8 * (t.size - 1 - i) := by omega
      simp [inside, show 8 * (t.size - i) ≤ bit by omega,
        show 8 * (t.size - (i + 1)) ≤ bit by omega, BitVec.getLsbD_of_ge _ _ beyond]

/-- The loop of `readInt` decodes big-endian digits, whatever promotion does on the way. -/
theorem readInt_eq (t : Arithmetic) (data : List Byte) :
    readInt t data = (ofBytes (8 * t.size) t.size data, t.size) := by
  -- Both sides have the same bits, which is all there is to two bit vectors.
  simp only [readInt, Prod.mk.injEq, and_true]
  apply BitVec.eq_of_getLsbD_eq
  intro bit inside
  rw [getLsbD_readIntLoop t data (Nat.le_refl _) inside, ofBytes, getLsbD_joinBytes _ _ inside]
  simp [inside]

/-- The reversal on little-endian hosts makes the bytes of a float its big-endian digits. -/
theorem writeFloat_eq (host : Endian) (t : Arithmetic) (value : t.Value) :
    writeFloat host t value = (toBytes t.size value, t.size) := by
  -- A little-endian host reverses the bytes of the cast, a big-endian one keeps them.
  cases host with
  | big => rfl
  | little =>
    simp only [writeFloat, reverseOnLittle, bitCastToBytes, toBytes, if_true, Prod.mk.injEq,
      and_true]
    apply List.ext_getElem
    · simp
    · intro i inLeft inRight
      simp [List.getElem_reverse]

/-- Reading a float undoes the host's order, so that only the big-endian digits matter. -/
theorem readFloat_eq (host : Endian) (t : Arithmetic) {data : List Byte}
    (enough : t.size ≤ data.length) :
    readFloat host t data = (ofBytes (8 * t.size) t.size data, t.size) := by
  -- The reversal in memory and the order of the host cancel out.
  have taken : (data.take t.size).length = t.size := by simp [enough]
  have split : ofBytes (8 * t.size) t.size data
      = ofBytes (8 * t.size) t.size (data.take t.size) := by
    conv_lhs => rw [← List.take_append_drop t.size data]
    exact ofBytes_append taken _
  rw [split]
  cases host with
  | big => rfl
  | little =>
    simp only [readFloat, reverseOnLittle, bitCastFromBytes, if_true, Prod.mk.injEq, and_true,
      ofBytes]
    apply joinBytes_congr
    intro i below
    simp only [List.getD_eq_getElem?_getD]
    rw [List.getElem?_reverse (by omega), taken]

/-- Every type is written as its big-endian digits, on either host. -/
theorem write_eq (host : Endian) (t : Arithmetic) (value : t.Value) :
    write host t value = (toBytes t.size value, t.size) := by
  -- Both overloads write the big-endian digits.
  unfold write
  split
  · exact writeInt_eq t value
  · exact writeFloat_eq host t value

/-- Every type is read from its big-endian digits, on either host. -/
theorem read_eq (host : Endian) (t : Arithmetic) {data : List Byte}
    (enough : t.size ≤ data.length) :
    read host t data = (ofBytes (8 * t.size) t.size data, t.size) := by
  -- Both overloads read the big-endian digits.
  unfold read
  split
  · exact readInt_eq t data
  · exact readFloat_eq host t enough

/-- A value that was written is the value that is read back. -/
theorem read_write (host : Endian) (t : Arithmetic) (value : t.Value) :
    read host t (write host t value).1 = (value, t.size) := by
  -- What was written are digits, and digits read back as their number.
  rw [write_eq, read_eq host t (by simp), ofBytes_toBytes rfl]

/-- Bytes that were read are the bytes that writing the value back stores. -/
theorem write_read (host : Endian) (t : Arithmetic) {data : List Byte}
    (length : data.length = t.size) : (write host t (read host t data).1).1 = data := by
  -- What was read is the number of the bytes, whose digits are the bytes.
  rw [read_eq host t (by omega), write_eq, toBytes_ofBytes rfl length]

end StreamUP.BufferUtil
