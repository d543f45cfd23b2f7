import StreamUP.Data.BufferUtil
import StreamUP.Foundation.Refinement

/-! The read cursor of `ReadBufferWrapper.h`, and what a cursor with bytes left to read does. -/

namespace StreamUP.BufferUtil

open Machine

/-- A read cursor over the bytes of `[data, data + length)`. -/
structure ReadBufferWrapper where
  /-- The bytes the pointer addresses, as many as the `length` passed along with it. -/
  data : List Byte
  readIndex : Nat
  deriving DecidableEq, Repr

namespace ReadBufferWrapper

/-- The constructor, which starts at the first byte. -/
def new (data : List Byte) : ReadBufferWrapper := { data := data, readIndex := 0 }

/-- The `length` member, a `size_t`. -/
def length (reader : ReadBufferWrapper) : Nat := reader.data.length

def setReadIndex (reader : ReadBufferWrapper) (index : Nat) : ReadBufferWrapper :=
  { reader with readIndex := index }

def getReadIndex (reader : ReadBufferWrapper) : Nat := reader.readIndex

/-- `length - readIndex`, an unsigned difference that wraps below zero. -/
def getReadableBytes (reader : ReadBufferWrapper) : Nat :=
  toSizeT ((reader.length : Int) - reader.readIndex)

def ensureReadableBytes (reader : ReadBufferWrapper) (numBytes : Nat) : Bool :=
  decide (numBytes ≤ reader.getReadableBytes)

/-- The guard with its difference watched: a cursor past the end is reported, not wrapped. -/
def checkReadableBytes (reader : ReadBufferWrapper) (numBytes : Nat) : Except Fault Bool :=
  if reader.readIndex ≤ reader.length then .ok (reader.ensureReadableBytes numBytes)
  else .error (.cursorPastEnd reader.readIndex reader.length)

/-- Load a run of bytes at the cursor, which must lie inside `[0, length)`. -/
def load (reader : ReadBufferWrapper) (count : Nat) : Except Fault (List Byte) :=
  -- A load is inside the buffer or it is a fault; there is no third outcome.
  if reader.readIndex + count ≤ reader.length then
    .ok ((reader.data.drop reader.readIndex).take count)
  else .error (.readOutside reader.readIndex count reader.length)

/-- `readIndex += count` on a `size_t`. -/
def advance (reader : ReadBufferWrapper) (count : Nat) : ReadBufferWrapper :=
  { reader with readIndex := toSizeT (reader.readIndex + count) }

/-- `read<T>`, either of the two overloads: the value decoded at the cursor. -/
def read (host : Endian) (t : Arithmetic) (reader : ReadBufferWrapper) :
    Except Fault (t.Value × ReadBufferWrapper) := do
  -- The cursor moves by the count that `BufferUtil::read` returns.
  let bytes ← reader.load t.size
  let (value, count) := BufferUtil.read host t bytes
  return (value, reader.advance count)

/-- `read<uint8_t>`, whose decoder is the integral one on every host. -/
def readUInt8 (reader : ReadBufferWrapper) : Except Fault (Byte × ReadBufferWrapper) := do
  let bytes ← reader.load 1
  let (value, count) := BufferUtil.readInt .uint8 bytes
  return (value, reader.advance count)

/-- `read<uint16_t>`, whose decoder is the integral one on every host. -/
def readUInt16 (reader : ReadBufferWrapper) :
    Except Fault (BitVec 16 × ReadBufferWrapper) := do
  let bytes ← reader.load 2
  let (value, count) := BufferUtil.readInt .uint16 bytes
  return (value, reader.advance count)

/-- `readToArray`: the bytes copied to the front of the destination array. -/
def readToArray (reader : ReadBufferWrapper) (dest : List (Option Byte)) (numBytes : Nat) :
    Except Fault (List (Option Byte) × ReadBufferWrapper) := do
  -- The copy is `std::copy_n`, which needs room on both sides.
  let bytes ← reader.load numBytes
  let dest ← copyToFront dest (bytes.map some)
  return (dest, reader.advance numBytes)

/-- The named instances are the template at their types, whatever the host. -/
theorem readUInt8_eq (host : Endian) (reader : ReadBufferWrapper) :
    reader.readUInt8 = reader.read host .uint8 := rfl

theorem readUInt16_eq (host : Endian) (reader : ReadBufferWrapper) :
    reader.readUInt16 = reader.read host .uint16 := rfl

/-- A cursor inside its buffer, with exactly the given bytes left to read. -/
structure Positioned (reader : ReadBufferWrapper) (rest : List Byte) : Prop where
  addressable : reader.length < sizeCount
  inside : reader.readIndex ≤ reader.length
  remaining : reader.data.drop reader.readIndex = rest

variable {reader : ReadBufferWrapper} {rest : List Byte}

/-- A fresh cursor has the whole buffer left to read. -/
theorem positioned_new {data : List Byte} (addressable : data.length < sizeCount) :
    Positioned (new data) data :=
  ⟨addressable, Nat.zero_le _, rfl⟩

/-- The cursor and the bytes left to read add up to the buffer. -/
theorem Positioned.readIndex_add (at_ : Positioned reader rest) :
    reader.readIndex + rest.length = reader.length := by
  -- What is left is what the index has not passed.
  have inside := at_.inside
  rw [← at_.remaining, List.length_drop]
  simp only [length] at *
  omega

/-- A cursor inside its buffer counts its readable bytes without wrapping. -/
theorem Positioned.getReadableBytes_eq (at_ : Positioned reader rest) :
    reader.getReadableBytes = rest.length := by
  -- The unsigned difference is exact, as the index does not exceed the length.
  have total := at_.readIndex_add
  have addressable := at_.addressable
  unfold getReadableBytes
  rw [show (reader.length : Int) - reader.readIndex = (rest.length : Nat) by omega]
  exact toSizeT_of_lt (by omega)

/-- The guard of a positioned cursor compares with the bytes that are really left. -/
theorem Positioned.ensureReadableBytes_eq (at_ : Positioned reader rest) (numBytes : Nat) :
    reader.ensureReadableBytes numBytes = decide (numBytes ≤ rest.length) := by
  -- The guard compares with the number of bytes that are left.
  rw [ensureReadableBytes, at_.getReadableBytes_eq]

/-- Watching the difference changes nothing for a positioned cursor. -/
theorem Positioned.checkReadableBytes_eq (at_ : Positioned reader rest) (numBytes : Nat) :
    reader.checkReadableBytes numBytes = .ok (decide (numBytes ≤ rest.length)) := by
  -- An index inside the buffer never trips the check of the difference.
  rw [checkReadableBytes, if_pos at_.inside, at_.ensureReadableBytes_eq]

/-- Loading no more than is left gives the front of what is left. -/
theorem Positioned.load_eq (at_ : Positioned reader rest) {count : Nat}
    (enough : count ≤ rest.length) : reader.load count = .ok (rest.take count) := by
  -- The bytes asked for are at the front of those that are left.
  have total := at_.readIndex_add
  rw [load, if_pos (by omega), at_.remaining]

/-- Advancing over bytes that are left leaves the ones after them. -/
theorem Positioned.advance (at_ : Positioned reader rest) {count : Nat}
    (enough : count ≤ rest.length) : Positioned (reader.advance count) (rest.drop count) := by
  -- A sum inside the buffer does not wrap.
  have total := at_.readIndex_add
  have addressable := at_.addressable
  have index : (reader.advance count).readIndex = reader.readIndex + count := by
    simp only [ReadBufferWrapper.advance]
    have fits : reader.readIndex + count < sizeCount := by omega
    exact_mod_cast toSizeT_of_lt fits
  refine ⟨addressable, ?_, ?_⟩
  · rw [index]
    show reader.readIndex + count ≤ reader.length
    omega
  · rw [index, ← at_.remaining, List.drop_drop]
    rfl

/-- A read with enough bytes left decodes their front and moves past it. -/
theorem Positioned.read_eq (at_ : Positioned reader rest) (host : Endian) {t : Arithmetic}
    (enough : t.size ≤ rest.length) :
    reader.read host t
      = .ok (BigEndian.ofBytes (8 * t.size) t.size (rest.take t.size), reader.advance t.size) := by
  -- The bytes loaded are the digits of the value.
  have taken : t.size ≤ (rest.take t.size).length := by simp [enough]
  rw [ReadBufferWrapper.read, at_.load_eq enough]
  simp [BufferUtil.read_eq host t taken]

/-- Reading one byte gives the first byte left. -/
theorem Positioned.readUInt8_eq {byte : Byte} (at_ : Positioned reader (byte :: rest)) :
    reader.readUInt8 = .ok (byte, reader.advance 1) ∧ Positioned (reader.advance 1) rest := by
  refine ⟨?_, at_.advance (by simp)⟩
  rw [ReadBufferWrapper.readUInt8_eq .big, at_.read_eq .big (by simp [Arithmetic.size])]
  -- A single byte is its own only digit.
  exact congrArg (fun value => Except.ok (value, reader.advance 1))
    (BigEndian.ofBytes_singleton byte)

/-- With nothing left to read, reading a byte is a fault. -/
theorem Positioned.readUInt8_nil (at_ : Positioned reader []) :
    ∃ fault, reader.readUInt8 = .error fault := by
  have total := at_.readIndex_add
  -- The cursor is at the end, so the byte would lie behind it.
  have outside : ¬ reader.readIndex + Arithmetic.uint8.size ≤ reader.length := by
    simp only [List.length_nil, Arithmetic.size] at total ⊢
    omega
  rw [ReadBufferWrapper.readUInt8_eq .big, ReadBufferWrapper.read, load, if_neg outside]
  exact ⟨_, rfl⟩

end ReadBufferWrapper

end StreamUP.BufferUtil
