import Mathlib.Data.List.AList
import Mathlib.Order.Bounds.Defs
import StreamUP.Data.WriteBufferWrapper

/-! Packets to send, and the pool that hands them out by size class and takes them back. -/

namespace StreamUP

open Fallible Machine BufferUtil

/-- A packet to send: where it goes, and a write cursor over a buffer of its own. -/
structure SendPacket (Address : Type) where
  address : Address
  /-- The cursor; the bytes it writes to are the member `buffer`, whose size never changes. -/
  data : WriteBufferWrapper
  deriving DecidableEq

namespace SendPacket

variable {Address : Type}

/-- Most elements a `std::vector<uint8_t>` can hold. -/
def vectorMaxSize : Nat := 9223372036854775807

/-- The constructor: a zeroed buffer of the size, the address value-initialised, the cursor at 0. -/
def new [Inhabited Address] (size : Int) : Except Fault (SendPacket Address) :=
  -- The vector takes the size as a `size_t`, so a negative one becomes enormous and throws.
  if vectorMaxSize < toSizeT size then .error (.lengthError (toSizeT size))
  else .ok
    { address := default
      data := WriteBufferWrapper.new (List.replicate (toSizeT size) 0) size }

/-- `buffer.size()`. -/
def bufferCapacity (packet : SendPacket Address) : Nat := packet.data.data.length

/-- The cursor is bounded by the size of the buffer, which an `int` can count. -/
structure Sized (packet : SendPacket Address) : Prop where
  bound : packet.data.length = packet.data.data.length
  countable : (packet.data.data.length : Int) ≤ intMax

/-- The constructor succeeds on sizes that are not negative, and makes what they say. -/
theorem new_ok [Inhabited Address] {size : Int} {packet : SendPacket Address}
    (low : intMin ≤ size) (high : size ≤ intMax) :
    new size = .ok packet ↔ 0 ≤ size ∧
      packet = { address := default
                 data := WriteBufferWrapper.new (List.replicate size.toNat 0) size } := by
  -- The sign of the size decides, as every `int` fits into a vector.
  simp only [intMin, intMax] at low high
  by_cases nonneg : 0 ≤ size
  · -- A size that is not negative survives the conversion.
    have converted : toSizeT size = size.toNat := by
      unfold toSizeT
      omega
    have small : ¬ vectorMaxSize < size.toNat := by
      simp only [vectorMaxSize]
      omega
    rw [new, converted, if_neg small]
    simp [nonneg, eq_comm]
  · -- A negative size becomes larger than any vector.
    have large : vectorMaxSize < toSizeT size := by
      simp only [vectorMaxSize, toSizeT]
      omega
    rw [new, if_pos large]
    simp [nonneg]

/-- The constructor bounds the cursor by the buffer it makes. -/
theorem new_sized [Inhabited Address] {size : Int} {packet : SendPacket Address}
    (low : intMin ≤ size) (high : size ≤ intMax) (made : new size = .ok packet) :
    packet.Sized := by
  -- The buffer has as many bytes as the cursor is told.
  obtain ⟨nonneg, rfl⟩ := (new_ok low high).mp made
  have count : ((List.replicate size.toNat (0 : Byte)).length : Int) = size := by
    rw [List.length_replicate]
    omega
  exact ⟨count.symm, Int.le_trans (Int.le_of_eq count) high⟩

end SendPacket

/--
The pool: its margin, and for each size class the addresses of its free packets.

A free list is a `std::vector` of owning pointers, with its back at the end of the list.
-/
structure SendPacketPool where
  margin : Int
  sendPackets : AList fun _ : Nat => List Nat

namespace SendPacketPool

variable {Address : Type} [Inhabited Address]

/-- `explicit SendPacketPool(int margin)`. -/
def new (margin : Int) : SendPacketPool := { margin := margin, sendPackets := ∅ }

/-- `sendPackets.lower_bound(size)`: the smallest class that is no smaller than the size. -/
def lowerBound (pool : SendPacketPool) (size : Nat) : Option Nat :=
  (pool.sendPackets.keys.filter (size ≤ ·)).min?

/-- `sendPackets.emplace(bufferSize, {})`, which leaves a class that exists as it is. -/
def emplace (pool : SendPacketPool) (bufferSize : Nat) : SendPacketPool :=
  -- `std::map::emplace` does nothing where the key exists.
  if bufferSize ∈ pool.sendPackets then pool
  else { pool with sendPackets := pool.sendPackets.insert bufferSize [] }

/-- `addClassSize`: a class of its own, unless one exists within the margin above the size. -/
def addClassSize (pool : SendPacketPool) (bufferSize : Nat) : SendPacketPool :=
  -- The margin is converted to `size_t`, and the sum wraps there.
  let upper := toSizeT (bufferSize + toSizeT pool.margin)
  match pool.lowerBound bufferSize with
  | some classSize => if classSize ≤ upper then pool else pool.emplace bufferSize
  | none => pool.emplace bufferSize

/-- `std::make_unique<SendPacket>(size)`: the `size_t` is converted to the constructor's `int`. -/
def makeUnique (heap : List (SendPacket Address)) (size : Nat) :
    Except Fault (Nat × List (SendPacket Address)) := do
  -- A new packet gets an address of its own.
  let packet ← SendPacket.new (toInt size)
  return (heap.length, heap ++ [packet])

/-- `getSendPacket`: the address of the packet handed out, the heap and the pool afterwards. -/
def getSendPacket (pool : SendPacketPool) (heap : List (SendPacket Address)) (bufferSize : Nat) :
    Except Fault (Nat × List (SendPacket Address) × SendPacketPool) :=
  match pool.lowerBound bufferSize with
  | none => do
    -- No class is big enough: a packet on demand.
    let (packet, heap) ← makeUnique heap bufferSize
    return (packet, heap, pool)
  | some classSize =>
    match ((pool.sendPackets.lookup classSize).getD []).getLast? with
    | some packet =>
      -- A free packet is reused, as its last holder left it.
      let vec := ((pool.sendPackets.lookup classSize).getD []).dropLast
      .ok (packet, heap, { pool with sendPackets := pool.sendPackets.insert classSize vec })
    | none => do
      let (packet, heap) ← makeUnique heap classSize
      return (packet, heap, pool)

/-- `releaseSendPacket` of a packet: filed under its capacity if that is a class, else destroyed. -/
def releaseSendPacket (pool : SendPacketPool) (heap : List (SendPacket Address)) (packet : Nat) :
    SendPacketPool :=
  -- The vector takes the pointer over, and without one it is destroyed.
  match heap[packet]? with
  | none => pool
  | some pkt =>
    match pool.sendPackets.lookup pkt.bufferCapacity with
    | none => pool
    | some vec =>
      { pool with sendPackets := pool.sendPackets.insert pkt.bufferCapacity (vec ++ [packet]) }

/-- Registering a size adds at most one class, empty, and only where there was none. -/
theorem addClassSize_cases (pool : SendPacketPool) (bufferSize : Nat) :
    pool.addClassSize bufferSize = pool ∨
      pool.sendPackets.lookup bufferSize = none ∧
        pool.addClassSize bufferSize
          = { pool with sendPackets := pool.sendPackets.insert bufferSize [] } := by
  -- Both branches that register something do so by `emplace`.
  have emplaced : pool.emplace bufferSize = pool ∨
      pool.sendPackets.lookup bufferSize = none ∧
        pool.emplace bufferSize
          = { pool with sendPackets := pool.sendPackets.insert bufferSize [] } := by
    unfold emplace
    split
    · exact .inl rfl
    · rename_i absent
      exact .inr ⟨AList.lookup_eq_none.mpr absent, rfl⟩
  unfold addClassSize
  dsimp only
  split
  · split
    · exact .inl rfl
    · exact emplaced
  · exact emplaced

/-- A class is found exactly when it is the smallest one that is big enough. -/
theorem lowerBound_eq_some {pool : SendPacketPool} {size classSize : Nat} :
    pool.lowerBound size = some classSize ↔
      IsLeast {registered | registered ∈ pool.sendPackets ∧ size ≤ registered} classSize := by
  -- The list of the candidates has the same elements as the set.
  have candidates : ∀ registered, registered ∈ pool.sendPackets.keys.filter (size ≤ ·) ↔
      registered ∈ pool.sendPackets ∧ size ≤ registered := by
    intro registered
    rw [List.mem_filter, decide_eq_true_eq, AList.mem_keys]
  rw [lowerBound, List.min?_eq_some_iff]
  simp only [candidates]
  rfl

/-- No class is found exactly when none is big enough. -/
theorem lowerBound_eq_none {pool : SendPacketPool} {size : Nat} :
    pool.lowerBound size = none ↔ ∀ classSize ∈ pool.sendPackets, classSize < size := by
  -- There is nothing to choose from when every class is too small.
  rw [lowerBound, List.min?_eq_none_iff, List.filter_eq_nil_iff]
  simp only [decide_eq_true_eq, not_le]
  rfl

/-- A size that is a class of its own is served by that class. -/
theorem lowerBound_self {pool : SendPacketPool} {size : Nat} {vec : List Nat}
    (registered : pool.sendPackets.lookup size = some vec) : pool.lowerBound size = some size := by
  have member : size ∈ pool.sendPackets := AList.lookup_isSome.mp (by rw [registered]; rfl)
  -- No class that is big enough is smaller.
  exact lowerBound_eq_some.mpr ⟨⟨member, Nat.le_refl size⟩, fun _ candidate => candidate.2⟩

/-- The smallest class that is big enough is a class. -/
theorem lookup_of_lowerBound {pool : SendPacketPool} {size classSize : Nat}
    (smallest : pool.lowerBound size = some classSize) :
    ∃ vec, pool.sendPackets.lookup classSize = some vec := by
  -- The smallest is one of those it was chosen from.
  have registered : classSize ∈ pool.sendPackets := (lowerBound_eq_some.mp smallest).1.1
  exact Option.isSome_iff_exists.mp (AList.lookup_isSome.mpr registered)

/-- A packet that is made is new, and its address is the number of those made before. -/
theorem makeUnique_ok {heap heap' : List (SendPacket Address)} {size packet : Nat}
    (made : makeUnique heap size = .ok (packet, heap')) :
    ∃ pkt, SendPacket.new (toInt size) = .ok pkt ∧ packet = heap.length ∧
      heap' = heap ++ [pkt] := by
  -- Only the constructor can throw.
  simp only [makeUnique, bind_eq_ok, pure_eq_ok, Except.ok.injEq, Prod.mk.injEq] at made
  obtain ⟨pkt, new, rfl, rfl⟩ := made
  exact ⟨pkt, new, rfl, rfl⟩

/-- A packet handed out is the last of a free list, or it is new. -/
theorem getSendPacket_cases {pool after : SendPacketPool} {heap heap' : List (SendPacket Address)}
    {bufferSize packet : Nat}
    (handed : pool.getSendPacket heap bufferSize = .ok (packet, heap', after)) :
    (∃ classSize vec, pool.sendPackets.lookup classSize = some (vec ++ [packet]) ∧
      heap' = heap ∧
      after = { pool with sendPackets := pool.sendPackets.insert classSize vec }) ∨
    (∃ size, makeUnique heap size = .ok (packet, heap') ∧ after = pool) := by
  -- One case for each way through the function that returns a packet.
  unfold getSendPacket at handed
  split at handed
  · -- No class is big enough.
    simp only [bind_eq_ok, pure_eq_ok, Except.ok.injEq, Prod.mk.injEq] at handed
    obtain ⟨result, made, rfl, rfl, rfl⟩ := handed
    exact .inr ⟨bufferSize, made, rfl⟩
  · rename_i classSize smallest
    split at handed
    · -- The class that was found has a list, and the packet is at its back.
      rename_i last found
      obtain ⟨vec, registered⟩ := lookup_of_lowerBound smallest
      rw [registered, Option.getD_some] at found handed
      cases handed
      refine .inl ⟨classSize, vec.dropLast, ?_, rfl, rfl⟩
      rw [registered, List.dropLast_append_getLast? _ found]
    · -- The class has no free packet.
      simp only [bind_eq_ok, pure_eq_ok, Except.ok.injEq, Prod.mk.injEq] at handed
      obtain ⟨result, made, rfl, rfl, rfl⟩ := handed
      exact .inr ⟨classSize, made, rfl⟩

end SendPacketPool

end StreamUP
