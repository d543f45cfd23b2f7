import StreamUP.Protocol.PoolHistories

/-! The free lists of a pool taken together: every packet is in one place, under its capacity. -/

namespace StreamUP

open Fallible

namespace SendPacketPool

/-- The free packets of a class, which are none where the class does not exist. -/
def freeOf (pool : SendPacketPool) (classSize : Nat) : List Nat :=
  (pool.sendPackets.lookup classSize).getD []

/-- The free packets of all classes, one class after the other. -/
def freePackets (pool : SendPacketPool) : List Nat :=
  pool.sendPackets.entries.flatMap fun entry => entry.2

/-- After one list has been replaced, the class has that list and all others have their own. -/
theorem freeOf_insert (pool : SendPacketPool) (target classSize : Nat) (list : List Nat) :
    freeOf { pool with sendPackets := pool.sendPackets.insert target list } classSize
      = if classSize = target then list else pool.freeOf classSize := by
  -- The list is looked up under the class it was put in for.
  unfold freeOf
  by_cases same : classSize = target
  · rw [if_pos same, same, AList.lookup_insert, Option.getD_some]
  · rw [if_neg same, AList.lookup_insert_ne same]

/-- Putting the list of a class in again changes nothing. -/
theorem freeOf_insert_self {pool : SendPacketPool} {target : Nat} {list : List Nat}
    (before : pool.freeOf target = list) (classSize : Nat) :
    freeOf { pool with sendPackets := pool.sendPackets.insert target list } classSize
      = pool.freeOf classSize := by
  rw [freeOf_insert]
  split
  · rename_i same
    rw [same, before]
  · rfl

/-- One more packet in the list of a class is one more for that class only. -/
theorem length_freeOf_insert_concat (pool : SendPacketPool) (target classSize : Nat)
    (list : List Nat) (packet : Nat) :
    (freeOf { pool with sendPackets := pool.sendPackets.insert target (list ++ [packet]) }
        classSize).length
      = (freeOf { pool with sendPackets := pool.sendPackets.insert target list }
          classSize).length + if target = classSize then 1 else 0 := by
  rw [freeOf_insert, freeOf_insert]
  by_cases same : classSize = target
  · rw [if_pos same, if_pos same, if_pos same.symm, List.length_append, List.length_singleton]
  · rw [if_neg same, if_neg same, if_neg (Ne.symm same), Nat.add_zero]

/-- A packet is free in a class exactly when the class has a list that it is in. -/
theorem mem_freeOf {pool : SendPacketPool} {classSize packet : Nat} :
    packet ∈ pool.freeOf classSize ↔
      ∃ vec, pool.sendPackets.lookup classSize = some vec ∧ packet ∈ vec := by
  unfold freeOf
  cases pool.sendPackets.lookup classSize <;> simp

/-- A packet is free exactly when it is free in some class. -/
theorem mem_freePackets {pool : SendPacketPool} {packet : Nat} :
    packet ∈ pool.freePackets ↔ ∃ classSize, packet ∈ pool.freeOf classSize := by
  simp only [freePackets, List.mem_flatMap, mem_freeOf]
  constructor
  · intro found
    obtain ⟨⟨classSize, vec⟩, entry, member⟩ := found
    exact ⟨classSize, vec, AList.mem_lookup_iff.mpr entry, member⟩
  · intro found
    obtain ⟨classSize, vec, free, member⟩ := found
    exact ⟨⟨classSize, vec⟩, AList.mem_lookup_iff.mp free, member⟩

/-- Registering a size, whether it is new or not, leaves the free packets of every class alone. -/
theorem freeOf_addClassSize (pool : SendPacketPool) (bufferSize classSize : Nat) :
    (pool.addClassSize bufferSize).freeOf classSize = pool.freeOf classSize := by
  rcases pool.addClassSize_cases bufferSize with same | ⟨absent, added⟩
  · rw [same]
  · -- The class that is added has no packets, and had none before.
    rw [added, freeOf_insert]
    split
    · rename_i new
      rw [new, freeOf, absent, Option.getD_none]
    · rfl

end SendPacketPool

namespace PoolState

open SendPacketPool

variable {Address : Type} {state : PoolState Address}

/--
The free lists of a pool are well formed.

Each packet is filed under its capacity, is in one place, and stays there when a size is
registered.
-/
structure WellFormed (state : PoolState Address) : Prop where
  capacity : ∀ classSize, ∀ packet ∈ state.pool.freeOf classSize,
    ∃ pkt, state.heap[packet]? = some pkt ∧ pkt.bufferCapacity = classSize
  once : (state.pool.freePackets ++ state.held).Nodup
  registering : ∀ bufferSize classSize,
    (state.pool.addClassSize bufferSize).freeOf classSize = state.pool.freeOf classSize

/-- Where every packet has one owner, a free packet has the capacity of its class. -/
theorem Owned.capacity_of_free (owned : Owned state) {classSize packet : Nat}
    (member : packet ∈ state.pool.freeOf classSize) :
    ∃ pkt, state.heap[packet]? = some pkt ∧ pkt.bufferCapacity = classSize := by
  obtain ⟨vec, free, member⟩ := mem_freeOf.mp member
  exact owned.freeMade classSize vec free packet member

/-- Where every packet has one owner, none is free twice. -/
theorem Owned.nodup_freePackets (owned : Owned state) : state.pool.freePackets.Nodup := by
  refine List.nodup_flatMap.mpr ⟨?_, ?_⟩
  · intro entry member
    exact owned.freeNodup entry.1 entry.2 (AList.mem_lookup_iff.mpr member)
  · -- Two classes have no packet in common, as it would have the capacity of both.
    have keys := List.nodupKeys_iff_pairwise.mp state.pool.sendPackets.nodupKeys
    refine keys.imp_of_mem fun {first second} here there different => ?_
    intro packet member member'
    exact different (owned.class_unique (AList.mem_lookup_iff.mpr here) member
      (AList.mem_lookup_iff.mpr there) member')

/-- Where every packet has one owner, none is in two places. -/
theorem Owned.nodup_packets (owned : Owned state) :
    (state.pool.freePackets ++ state.held).Nodup := by
  refine List.nodup_append.mpr ⟨owned.nodup_freePackets, owned.heldNodup, ?_⟩
  intro packet free other held same
  -- A free packet is in nobody's hands.
  obtain ⟨classSize, member⟩ := mem_freePackets.mp free
  obtain ⟨vec, found, member⟩ := mem_freeOf.mp member
  exact owned.freeNotHeld classSize vec found packet member (same ▸ held)

variable [Inhabited Address]

/--
The free lists are well formed at every moment of every history.

Clients may hold packets that they have made themselves, of any capacity.
-/
theorem always_wellFormed (host : BufferUtil.Endian) (margin : Int)
    (own : List {packet : SendPacket Address // packet.Sized}) (calls : List (PoolCall Address)) :
    Run.Always (step host) WellFormed (holding margin own) calls := by
  -- Whatever the clients do, each packet keeps one owner.
  intro before after state split arrived
  have owned := (run_managed own arrived).1
  exact ⟨fun classSize packet member => owned.capacity_of_free member, owned.nodup_packets,
    state.pool.freeOf_addClassSize⟩

end PoolState

end StreamUP
