import StreamUP.Data.BufferUtil

/-! Floating-point values and the unsigned integers of their bit patterns have one encoding. -/

namespace BigEndian

open Machine

variable {v w count : Nat}

/-- Base-256 digits of a number, most significant first. -/
def digits (count number : Nat) : List Byte :=
  (List.range count).map fun position => BitVec.ofNat 8 (number / 256 ^ (count - 1 - position))

/-- The byte at an index is the digit that counts that power of 256. -/
theorem splitByte_eq_ofNat (value : BitVec w) (index : Nat) :
    splitByte value index = BitVec.ofNat 8 (value.toNat / 256 ^ index) := by
  -- Eight places of bits are one place of digits.
  apply BitVec.eq_of_toNat_eq
  rw [splitByte, BitVec.extractLsb'_toNat, BitVec.toNat_ofNat, Nat.shiftRight_eq_div_pow,
    Nat.pow_mul]

/-- The bytes of a value are its base-256 digits. -/
theorem toBytes_eq_digits (count : Nat) (value : BitVec w) :
    toBytes count value = digits count value.toNat := by
  simp only [toBytes, digits, splitByte_eq_ofNat]

/-- A value of the same width has the same number, and so the same bytes. -/
theorem toBytes_cast (same : v = w) (count : Nat) (value : BitVec v) :
    toBytes count (value.cast same) = toBytes count value := by
  rw [toBytes_eq_digits, toBytes_eq_digits, BitVec.toNat_cast]

/-- Bytes decode to the same bits at every width and count that are equal. -/
theorem cast_ofBytes {other : Nat} (same : v = w) (counts : count = other) (bytes : List Byte) :
    (ofBytes v count bytes).cast same = ofBytes w other bytes := by
  subst same counts
  rfl

end BigEndian

namespace StreamUP.BufferUtil

open Machine BigEndian

namespace Arithmetic

/-- The unsigned integer type of the same width. -/
def unsigned : Arithmetic → Arithmetic
  | uint8 | int8 => uint8
  | uint16 | int16 => uint16
  | uint32 | int32 | float => uint32
  | uint64 | int64 | double => uint64

/-- The unsigned integer type has the same width. -/
@[simp] theorem size_unsigned (t : Arithmetic) : t.unsigned.size = t.size := by
  cases t <;> rfl

/-- The unsigned integer type is an integer type. -/
theorem isIntegral_unsigned (t : Arithmetic) : t.unsigned.isIntegral = true := by
  cases t <;> rfl

/-- The bit pattern of a value, as an unsigned integer. -/
def bits {t : Arithmetic} (value : t.Value) : t.unsigned.Value :=
  value.cast (congrArg (8 * ·) t.size_unsigned.symm)

end Arithmetic

open Arithmetic

/-- The integer encoder stores the digits of a bit pattern. -/
theorem writeInt_bits (t : Arithmetic) (value : t.Value) :
    writeInt t.unsigned (bits value) = (digits t.size value.toNat, t.size) := by
  -- The pattern has the width of the value, and the same number.
  rw [writeInt_eq, bits, toBytes_cast, size_unsigned, toBytes_eq_digits]

/-- The integer decoder reads the bit pattern that the bytes stand for. -/
theorem readInt_unsigned (t : Arithmetic) (data : List Byte) :
    (readInt t.unsigned data).1 = bits (ofBytes (8 * t.size) t.size data) := by
  rw [readInt_eq]
  exact (cast_ofBytes _ t.size_unsigned.symm data).symm

/--
Floating-point values are written and read as the unsigned integers of their bit patterns.

Both hosts store the base-256 digits of the pattern, most significant first.
-/
theorem float_encoding_eq (host : Endian) (t : Arithmetic) :
    t.unsigned.isIntegral = true ∧ t.unsigned.size = t.size ∧
      (∀ value : t.Value, writeFloat host t value = writeInt t.unsigned (bits value) ∧
        (writeFloat host t value).1 = digits t.size value.toNat) ∧
      ∀ (bytes : Vector Byte t.size) (rest : List Byte),
        bits (readFloat host t (bytes.toList ++ rest)).1
          = (readInt t.unsigned (bytes.toList ++ rest)).1 := by
  refine ⟨t.isIntegral_unsigned, t.size_unsigned, ?_, ?_⟩
  · intro value
    -- Both encoders store the digits.
    rw [writeInt_bits, writeFloat_eq, toBytes_eq_digits]
    exact ⟨rfl, rfl⟩
  · intro bytes rest
    have enough : t.size ≤ (bytes.toList ++ rest).length := by simp
    rw [readInt_unsigned, readFloat_eq host t enough]

end StreamUP.BufferUtil
