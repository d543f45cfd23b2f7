import StreamUP.Data.BufferUtil
import StreamUP.Foundation.Overlay

/-! The write cursor of `WriteBufferWrapper.h`, and what a write that fits does. -/

namespace StreamUP.BufferUtil

open Fallible Machine Overlay

/-- A write cursor over an object in memory. Its bounds are signed, and its setter is unchecked. -/
structure WriteBufferWrapper where
  /-- The bytes of the object the pointer addresses. -/
  data : List Byte
  length : Int
  writeIndex : Int
  deriving DecidableEq, Repr

namespace WriteBufferWrapper

/-- The constructor, which starts at the first byte. -/
def new (data : List Byte) (length : Int) : WriteBufferWrapper :=
  { data := data, length := length, writeIndex := 0 }

def setWriteIndex (writer : WriteBufferWrapper) (index : Int) : WriteBufferWrapper :=
  { writer with writeIndex := index }

def getWriteIndex (writer : WriteBufferWrapper) : Int := writer.writeIndex

/-- `length - writeIndex` on `int`. -/
def getWritableBytes (writer : WriteBufferWrapper) : Except Fault Int :=
  checkedInt (writer.length - writer.writeIndex)

def ensureWritableBytes (writer : WriteBufferWrapper) (numBytes : Int) : Except Fault Bool := do
  -- The guard fails where the difference itself is no `int`.
  let writable ← writer.getWritableBytes
  return decide (numBytes ≤ writable)

/-- Store bytes at the cursor, inside the object only; storing no bytes touches nothing. -/
def store (writer : WriteBufferWrapper) (bytes : List Byte) : Except Fault (List Byte) :=
  -- An empty copy dereferences nothing, wherever the cursor is.
  if bytes = [] then .ok writer.data
  else if 0 ≤ writer.writeIndex ∧ writer.writeIndex + bytes.length ≤ writer.data.length then
    .ok (overlay writer.data writer.writeIndex.toNat bytes)
  else .error (.writeOutside writer.writeIndex bytes.length writer.data.length)

/-- `write<T>`: the encoded value at the cursor, and the number of bytes written. -/
def write (host : Endian) (t : Arithmetic) (value : t.Value) (writer : WriteBufferWrapper) :
    Except Fault (Nat × WriteBufferWrapper) := do
  -- The count is a `size_t` that is converted to `int` before it is added.
  let (bytes, written) := BufferUtil.write host t value
  let data ← writer.store bytes
  let index ← checkedInt (writer.writeIndex + toInt written)
  return (written, { writer with data := data, writeIndex := index })

/-- `writeFromArray`: `std::copy_n` copies nothing when the count is not positive. -/
def writeFromArray (writer : WriteBufferWrapper) (src : List Byte) (numBytes : Int) :
    Except Fault WriteBufferWrapper := do
  -- The source must hold what is copied, and the cursor moves even by a negative count.
  let count := numBytes.toNat
  if src.length < count then throw (.readOutside 0 count src.length)
  let data ← writer.store (src.take count)
  let index ← checkedInt (writer.writeIndex + numBytes)
  return { writer with data := data, writeIndex := index }

/-- A store never changes the size of the object. -/
theorem length_of_store {writer : WriteBufferWrapper} {bytes data : List Byte}
    (stored : writer.store bytes = .ok data) : data.length = writer.data.length := by
  unfold store at stored
  split at stored
  · cases stored
    rfl
  · split at stored
    · rename_i inside
      cases stored
      -- The run ends inside the object.
      exact length_overlay (by omega)
    · contradiction

/-- A write changes neither the size of the object nor the cursor's bound. -/
theorem length_of_write {host : Endian} {t : Arithmetic} {value : t.Value}
    {writer after : WriteBufferWrapper} {count : Nat}
    (wrote : writer.write host t value = .ok (count, after)) :
    after.data.length = writer.data.length ∧ after.length = writer.length := by
  -- The bytes go through one store, behind which only the cursor moves.
  simp only [write, bind_eq_ok, pure_eq_ok, Except.ok.injEq, Prod.mk.injEq] at wrote
  obtain ⟨data, stored, index, _, _, rfl⟩ := wrote
  exact ⟨length_of_store stored, rfl⟩

/-- A copy changes neither the size of the object nor the cursor's bound. -/
theorem length_of_writeFromArray {writer after : WriteBufferWrapper} {src : List Byte}
    {numBytes : Int} (wrote : writer.writeFromArray src numBytes = .ok after) :
    after.data.length = writer.data.length ∧ after.length = writer.length := by
  -- Whatever the count, the bytes go through one store.
  unfold writeFromArray at wrote
  dsimp only at wrote
  split at wrote
  · contradiction
  · simp only [bind_eq_ok, pure_eq_ok, Except.ok.injEq] at wrote
    obtain ⟨data, stored, index, _, rfl⟩ := wrote
    exact ⟨length_of_store stored, rfl⟩

/-- A cursor inside an object whose size is an `int`, with `index` bytes already behind it. -/
structure Positioned (writer : WriteBufferWrapper) (index : Nat) : Prop where
  addressable : (writer.data.length : Int) ≤ intMax
  inside : index ≤ writer.data.length
  cursor : writer.writeIndex = index

variable {writer : WriteBufferWrapper} {index : Nat}

/-- A fresh cursor is at the start. -/
theorem positioned_new {data : List Byte} {length : Int}
    (addressable : (data.length : Int) ≤ intMax) : Positioned (new data length) 0 :=
  ⟨addressable, Nat.zero_le _, rfl⟩

/-- The writer after `bytes` have been laid over its object at the given index. -/
def overwrite (writer : WriteBufferWrapper) (index : Nat) (bytes : List Byte) :
    WriteBufferWrapper :=
  -- The index is where the run begins, and the cursor ends up behind the run.
  { writer with
    data := overlay writer.data index bytes
    writeIndex := index + bytes.length }

/-- Laying bytes that fit over an object moves the cursor behind them. -/
theorem Positioned.overwrite (at_ : Positioned writer index) {bytes : List Byte}
    (room : index + bytes.length ≤ writer.data.length) :
    Positioned (writer.overwrite index bytes) (index + bytes.length) := by
  -- The object keeps its size, and the run ends inside it.
  have size : (writer.overwrite index bytes).data.length = writer.data.length :=
    length_overlay room
  refine ⟨?_, ?_, ?_⟩
  · rw [size]
    exact at_.addressable
  · rw [size]
    exact room
  · simp [WriteBufferWrapper.overwrite]

/-- Storing bytes that fit at the cursor lays them over the object there. -/
theorem Positioned.store_eq (at_ : Positioned writer index) {bytes : List Byte}
    (room : index + bytes.length ≤ writer.data.length) :
    writer.store bytes = .ok (overlay writer.data index bytes) := by
  -- The cursor is not negative and the run fits, so the store is in bounds.
  have cursor := at_.cursor
  unfold store
  split
  · -- Laying nothing over an object leaves it as it was.
    rename_i empty
    rw [empty, overlay_nil]
  · rw [if_pos (by omega), cursor, Int.toNat_natCast]

/-- A write that fits lays the value's big-endian digits over the object at the cursor. -/
theorem Positioned.write_eq (at_ : Positioned writer index) (host : Endian) {t : Arithmetic}
    (value : t.Value) (room : index + t.size ≤ writer.data.length) :
    writer.write host t value
      = .ok (t.size, writer.overwrite index (BigEndian.toBytes t.size value)) := by
  -- The size of a type is small, so neither conversion nor sum loses anything.
  have addressable := at_.addressable
  have small := (size_bounds t).2
  have digits : (BigEndian.toBytes t.size value).length = t.size :=
    BigEndian.length_toBytes t.size value
  have converted : toInt t.size = t.size :=
    toInt_of_mem (by simp only [intMin]; omega) (by simp only [intMax]; omega)
  have moved : checkedInt (writer.writeIndex + toInt t.size) = .ok (index + t.size : Int) := by
    rw [converted, at_.cursor]
    have fits : (index + t.size : Int) ≤ intMax := by omega
    exact checkedInt_of_nonneg (by omega) fits
  have stored : writer.store (BigEndian.toBytes t.size value)
      = .ok (overlay writer.data index (BigEndian.toBytes t.size value)) :=
    at_.store_eq (by omega)
  rw [WriteBufferWrapper.write, BufferUtil.write_eq]
  simp [stored, moved, WriteBufferWrapper.overwrite, digits]

end WriteBufferWrapper

end StreamUP.BufferUtil
