import StreamUP.Data.ReadBufferWrapper
import StreamUP.Foundation.Run

/-! Histories of a read cursor: at which moments the check of its bounds can be trusted. -/

namespace StreamUP.BufferUtil

open Fallible Machine

/-- A buffer, and what lies behind it in the object it is part of. -/
structure Region where
  buffer : List Byte
  behind : List Byte
  addressable : (buffer ++ behind).length < sizeCount

/-- The whole object that the pointer of a cursor points into. -/
def Region.object (region : Region) : List Byte := region.buffer ++ region.behind

/-- The buffer is part of its object. -/
theorem Region.length_buffer_le (region : Region) :
    region.buffer.length ≤ region.object.length := by
  -- What lies behind the buffer only makes the object longer.
  rw [object, List.length_append]
  exact Nat.le_add_right _ _

/-- A call that moves a read cursor; its numbers are a `size_t`. -/
inductive ReaderCall where
  /-- Either overload of `read<T>`. -/
  | read (t : Arithmetic)
  /-- `readToArray`, with the array it copies to. -/
  | readToArray (dest : List (Option Byte)) (numBytes : BitVec 64)
  | setReadIndex (index : BitVec 64)

namespace ReaderCall

/-- Where the call leaves a cursor that stands at the index. -/
def target (call : ReaderCall) (index : Nat) : Nat :=
  match call with
  | .read t => index + t.size
  | .readToArray _ numBytes => index + numBytes.toNat
  | .setReadIndex target => target.toNat

/-- The bytes the call reads are in an object of the size, and an array it copies to has room. -/
def Defined (call : ReaderCall) (size index : Nat) : Prop :=
  -- Setting the index reads nothing.
  match call with
  | .read t => index + t.size ≤ size
  | .readToArray dest numBytes => index + numBytes.toNat ≤ size ∧ numBytes.toNat ≤ dest.length
  | .setReadIndex _ => True

end ReaderCall

namespace ReadBufferWrapper

/-- The cursor as its loads see it: the pointer leads to the whole object. -/
def onObject (reader : ReadBufferWrapper) (region : Region) : ReadBufferWrapper :=
  { reader with data := region.object }

/--
The cursor after a call.

A read past the buffer is undefined only where it leaves the object as well.
-/
def call (host : Endian) (region : Region) (reader : ReadBufferWrapper) :
    ReaderCall → Except Fault ReadBufferWrapper
  | .read t => do
    let (_, after) ← (reader.onObject region).read host t
    return reader.setReadIndex after.readIndex
  | .readToArray dest numBytes => do
    let (_, after) ← (reader.onObject region).readToArray dest numBytes.toNat
    return reader.setReadIndex after.readIndex
  | .setReadIndex index => .ok (reader.setReadIndex index.toNat)

/-- A check that passes promises room: so many bytes lie between the cursor and the end. -/
def GuardSound (reader : ReadBufferWrapper) : Prop :=
  ∀ numBytes, reader.ensureReadableBytes numBytes = true →
    reader.readIndex + numBytes ≤ reader.length

/-- The call leaves the cursor inside the buffer, unless it is undefined. -/
def KeepsInside (region : Region) (reader : ReadBufferWrapper) (call : ReaderCall) : Prop :=
  call.Defined region.object.length reader.readIndex →
    call.target reader.readIndex ≤ region.buffer.length

/-- The check can be trusted exactly while the cursor has not passed the end. -/
theorem guardSound_iff (reader : ReadBufferWrapper) (addressable : reader.length < sizeCount)
    (indexed : reader.readIndex < sizeCount) :
    reader.GuardSound ↔ reader.readIndex ≤ reader.length := by
  simp only [sizeCount] at addressable indexed
  constructor
  · intro sound
    -- Asking for no bytes always passes.
    have none : reader.ensureReadableBytes 0 = true := decide_eq_true (Nat.zero_le _)
    exact sound 0 none
  · intro inside numBytes passed
    -- The unsigned difference is exact, so it counts the bytes that are there.
    have exact_difference : reader.getReadableBytes = reader.length - reader.readIndex := by
      unfold getReadableBytes toSizeT
      omega
    have enough := of_decide_eq_true passed
    omega

/-- A cursor that stands inside the object has the rest of the object left to read. -/
theorem positioned_onObject {region : Region} {reader : ReadBufferWrapper} {count : Nat}
    (inside : reader.readIndex + count ≤ region.object.length) :
    (reader.onObject region).Positioned (region.object.drop reader.readIndex) ∧
      count ≤ (region.object.drop reader.readIndex).length := by
  -- The object is what the pointer leads to, and its size is a `size_t`.
  refine ⟨⟨region.addressable, ?_, rfl⟩, ?_⟩
  · show reader.readIndex ≤ region.object.length
    omega
  · rw [List.length_drop]
    omega

/-- Inside an object the cursor moves by exactly the bytes read. -/
theorem advance_onObject {region : Region} {reader : ReadBufferWrapper} {count : Nat}
    (inside : reader.readIndex + count ≤ region.object.length) :
    ((reader.onObject region).advance count).readIndex = reader.readIndex + count := by
  -- A sum that stays below the size of an object does not wrap.
  have fits : reader.readIndex + count < sizeCount :=
    Nat.lt_of_le_of_lt inside region.addressable
  exact_mod_cast toSizeT_of_lt fits

/-- A load that leaves the object is a fault. -/
theorem load_onObject_outside {region : Region} {reader : ReadBufferWrapper} {count : Nat}
    (outside : ¬ reader.readIndex + count ≤ region.object.length) :
    ∃ fault, (reader.onObject region).load count = .error fault := by
  -- The bound is the one the load checks.
  exact ⟨_, if_neg outside⟩

/-- Where a call is defined, it moves the cursor to its target. -/
theorem call_eq (host : Endian) {region : Region} {reader : ReadBufferWrapper} {call : ReaderCall}
    (defined : call.Defined region.object.length reader.readIndex) :
    reader.call host region call = .ok (reader.setReadIndex (call.target reader.readIndex)) := by
  cases call with
  | read t =>
    obtain ⟨placed, enough⟩ := positioned_onObject defined
    simp [ReadBufferWrapper.call, placed.read_eq host enough, advance_onObject defined,
      ReaderCall.target]
  | readToArray dest numBytes =>
    obtain ⟨inside, room⟩ := defined
    obtain ⟨placed, enough⟩ := positioned_onObject inside
    -- The bytes loaded are as many as were asked for, so the array has room for them.
    have size := List.length_take_of_le enough
    have copied := copyToFront_of_le dest
      (((region.object.drop reader.readIndex).take numBytes.toNat).map some)
      (by rw [List.length_map, size]; exact room)
    simp only [ReadBufferWrapper.call, ReadBufferWrapper.readToArray, placed.load_eq enough,
      ok_bind, copied, pure_eq_ok, advance_onObject inside, ReaderCall.target]
  | setReadIndex index => rfl

/-- Where a call is undefined, it is a fault. -/
theorem call_undefined (host : Endian) {region : Region} {reader : ReadBufferWrapper}
    {call : ReaderCall} (undefined : ¬ call.Defined region.object.length reader.readIndex) :
    ∃ fault, reader.call host region call = .error fault := by
  cases call with
  | read t =>
    obtain ⟨fault, failed⟩ := load_onObject_outside undefined
    exact ⟨fault, by simp [ReadBufferWrapper.call, ReadBufferWrapper.read, failed]⟩
  | readToArray dest numBytes =>
    by_cases inside : reader.readIndex + numBytes.toNat ≤ region.object.length
    · -- The bytes are there, so it is the array that has no room for them.
      have small : ¬ numBytes.toNat ≤ dest.length := fun room => undefined ⟨inside, room⟩
      obtain ⟨placed, enough⟩ := positioned_onObject inside
      have size := List.length_take_of_le enough
      simp only [ReadBufferWrapper.call, ReadBufferWrapper.readToArray, placed.load_eq enough,
        ok_bind, copyToFront, List.length_map, size, if_neg small, error_bind]
      exact ⟨_, rfl⟩
    · obtain ⟨fault, failed⟩ := load_onObject_outside inside
      exact ⟨fault, by simp [ReadBufferWrapper.call, ReadBufferWrapper.readToArray, failed]⟩
  | setReadIndex index => exact absurd trivial undefined

/-- A call leads to an index that is a `size_t`. -/
theorem target_lt {region : Region} {index : Nat} {call : ReaderCall}
    (defined : call.Defined region.object.length index) : call.target index < sizeCount := by
  have addressable : region.object.length < sizeCount := region.addressable
  cases call with
  | read t => exact Nat.lt_of_le_of_lt defined addressable
  | readToArray dest numBytes => exact Nat.lt_of_le_of_lt defined.1 addressable
  | setReadIndex target => exact target.isLt

/-- The check can be trusted after a call exactly when the call has kept inside the buffer. -/
theorem guardSound_call_iff (host : Endian) {region : Region} {reader : ReadBufferWrapper}
    (same : reader.data = region.buffer) (call : ReaderCall) :
    (∀ next, reader.call host region call = .ok next → next.GuardSound) ↔
      reader.KeepsInside region call := by
  unfold KeepsInside
  by_cases defined : call.Defined region.object.length reader.readIndex
  · have length : (reader.setReadIndex (call.target reader.readIndex)).length
        = region.buffer.length := congrArg List.length same
    have small : region.buffer.length < sizeCount :=
      Nat.lt_of_le_of_lt region.length_buffer_le region.addressable
    have sound := guardSound_iff (reader.setReadIndex (call.target reader.readIndex))
      (by rw [length]; exact small) (target_lt defined)
    rw [length] at sound
    simp only [call_eq host defined, Except.ok.injEq, forall_eq', sound, defined, forall_const]
    rfl
  · -- A fault leaves no cursor behind.
    obtain ⟨fault, failed⟩ := call_undefined host defined
    simp [failed, defined]

/-- A call moves the cursor and nothing else. -/
theorem data_of_call {host : Endian} {region : Region} {reader next : ReadBufferWrapper}
    {call : ReaderCall} (called : reader.call host region call = .ok next) :
    next.data = reader.data := by
  -- A call that succeeds is defined, and then only the index is set.
  by_cases defined : call.Defined region.object.length reader.readIndex
  · rw [call_eq host defined] at called
    cases called
    rfl
  · obtain ⟨fault, failed⟩ := call_undefined host defined
    rw [failed] at called
    contradiction

/--
The check can be trusted at every moment exactly when every call keeps inside the buffer.

What a check promises is counted exactly, and not modulo the size of a `size_t`.
-/
theorem alwaysGuardSound_iff (host : Endian) (region : Region) (calls : List ReaderCall) :
    Run.Always (call host region) GuardSound (new region.buffer) calls ↔
      Run.EveryStep (call host region) (KeepsInside region) (new region.buffer) calls := by
  -- No call changes the buffer, and a new cursor is inside of it.
  have small : region.buffer.length < sizeCount :=
    Nat.lt_of_le_of_lt region.length_buffer_le region.addressable
  have start : (new region.buffer).GuardSound :=
    (guardSound_iff (new region.buffer) small (Nat.zero_lt_of_lt small)).mpr (Nat.zero_le _)
  refine Run.always_iff (call host region) (fun reader => reader.data = region.buffer) GuardSound
    ?_ ?_ rfl start
  · intro reader event next same called
    exact (data_of_call called).trans same
  · intro reader event same _
    exact guardSound_call_iff host same event

/-- A buffer of one byte and nothing behind it. -/
def singleByte : Region where
  buffer := [7]
  behind := []
  addressable := by decide

/-- Past the end of the buffer the check counts almost the whole address space as readable. -/
theorem setPastEnd_not_guardSound :
    ¬ Run.Always (call .little singleByte) GuardSound (new singleByte.buffer)
      [.setReadIndex 2] := by
  -- One byte is promised behind the index two, in a buffer of one byte.
  intro always
  have sound := always [.setReadIndex 2] [] ⟨[7], 2⟩ rfl rfl
  have passed : (⟨[7], 2⟩ : ReadBufferWrapper).ensureReadableBytes 1 = true := by decide
  have room := sound 1 passed
  contradiction

end ReadBufferWrapper

end StreamUP.BufferUtil
