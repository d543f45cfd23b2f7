import Mathlib.Data.List.Count
import StreamUP.Protocol.PoolLists
import StreamUP.Protocol.PoolMargins

/-! How many packets of one capacity there are, against the most that clients have ever held. -/

namespace StreamUP

open Fallible Machine BufferUtil

namespace PoolState

open SendPacketPool

variable {Address : Type} {state next : PoolState Address}

/-- `bufferCapacity()` of the packet at an address, if there is one. -/
def capacityOf (state : PoolState Address) (packet : Nat) : Option Nat :=
  (state.heap[packet]?).map SendPacket.bufferCapacity

/-- A packet that was made has its own capacity. -/
theorem capacityOf_eq {packet : Nat} {pkt : SendPacket Address}
    (there : state.heap[packet]? = some pkt) :
    state.capacityOf packet = some pkt.bufferCapacity := by
  rw [capacityOf, there, Option.map_some]

/-- How many packets of a capacity clients hold. -/
def heldOf (state : PoolState Address) (capacity : Nat) : Nat :=
  state.held.countP fun packet => state.capacityOf packet = some capacity

/-- How many packets of a capacity exist, free or held. -/
def existing (state : PoolState Address) (capacity : Nat) : Nat :=
  (state.pool.freePackets ++ state.held).countP fun packet =>
    state.capacityOf packet = some capacity

/-- The free packets of a capacity are those of its class, so they and the held ones are all. -/
theorem Owned.existing_eq (owned : Owned state) (capacity : Nat) :
    state.existing capacity = (state.pool.freeOf capacity).length + state.heldOf capacity := by
  have nodup : (state.pool.freeOf capacity).Nodup := by
    unfold freeOf
    cases free : state.pool.sendPackets.lookup capacity with
    | none => exact List.nodup_nil
    | some vec => exact owned.freeNodup capacity vec free
  have same : (state.pool.freePackets.filter fun packet =>
      state.capacityOf packet = some capacity).Perm (state.pool.freeOf capacity) := by
    refine (List.perm_ext_iff_of_nodup (owned.nodup_freePackets.filter _) nodup).mpr ?_
    intro packet
    simp only [List.mem_filter, mem_freePackets, decide_eq_true_eq]
    constructor
    · intro found
      obtain ⟨⟨classSize, member⟩, counted⟩ := found
      -- A free packet has the capacity of its class.
      obtain ⟨pkt, there, rfl⟩ := owned.capacity_of_free member
      rw [capacityOf_eq there, Option.some.injEq] at counted
      exact counted ▸ member
    · intro member
      obtain ⟨pkt, there, sized⟩ := owned.capacity_of_free member
      exact ⟨⟨capacity, member⟩, by rw [capacityOf_eq there, sized]⟩
  rw [existing, List.countP_append, List.countP_eq_length_filter, same.length_eq, heldOf]

/-- Packets that keep their capacities are counted as before. -/
theorem heldOf_congr (same : ∀ packet ∈ state.held, next.capacityOf packet = state.capacityOf packet)
    (capacity : Nat) :
    (state.held.countP fun packet => next.capacityOf packet = some capacity)
      = state.heldOf capacity := by
  refine List.countP_congr fun packet member => ?_
  rw [same packet member]

/-- The held packets have their capacities from before, and the new one has its own. -/
theorem heldOf_allocated (owned : Owned state) (pkt : SendPacket Address) (capacity : Nat) :
    heldOf
        { state with heap := state.heap ++ [pkt], held := state.heap.length :: state.held }
        capacity
      = state.heldOf capacity + if pkt.bufferCapacity = capacity then 1 else 0 := by
  have old : ∀ packet ∈ state.held,
      capacityOf
          { state with heap := state.heap ++ [pkt], held := state.heap.length :: state.held }
          packet
        = state.capacityOf packet := by
    intro packet member
    simp only [capacityOf, List.getElem?_append_left (owned.heldMade packet member)]
  simp only [heldOf, List.countP_cons]
  rw [List.countP_congr fun packet member => by rw [old packet member]]
  simp [capacityOf]

/-- Changing a packet keeps its capacity, and that of every other. -/
theorem capacityOf_touched {packet : Nat} {pkt changed : SendPacket Address}
    (there : state.heap[packet]? = some pkt) (same : pkt.SameBuffer changed) (other : Nat) :
    capacityOf { state with heap := state.heap.set packet changed } other
      = state.capacityOf other := by
  have inside := (List.getElem?_eq_some_iff.mp there).1
  simp only [capacityOf]
  by_cases equal : packet = other
  · subst equal
    have kept : changed.bufferCapacity = pkt.bufferCapacity := same.capacity
    rw [List.getElem?_set_self inside, there, Option.map_some, Option.map_some, kept]
  · rw [List.getElem?_set_ne equal]

/-- Changing a packet makes none. -/
theorem length_heap_of_touch {packet : Nat}
    {change : SendPacket Address → Except Fault (SendPacket Address)}
    (touched : state.touch packet change = .ok next) : next.heap.length = state.heap.length := by
  unfold touch at touched
  split at touched
  · contradiction
  · split at touched
    · simp only [bind_eq_ok, pure_eq_ok, Except.ok.injEq] at touched
      obtain ⟨changed, _, rfl⟩ := touched
      exact List.length_set
    · contradiction

/-- A packet that a client gets counts for its capacity. -/
theorem heldOf_cons {pool : SendPacketPool} {packet : Nat} {pkt : SendPacket Address}
    (there : state.heap[packet]? = some pkt) (capacity : Nat) :
    heldOf { state with pool, held := packet :: state.held } capacity
      = state.heldOf capacity + if pkt.bufferCapacity = capacity then 1 else 0 := by
  have own := capacityOf_eq there
  have same : ∀ other, capacityOf { state with pool, held := packet :: state.held } other
      = state.capacityOf other := fun _ => rfl
  simp only [heldOf, List.countP_cons, same, own, Option.some.injEq, decide_eq_true_eq]

/-- A packet that a client gives up counts no longer. -/
theorem heldOf_erase (pool : SendPacketPool) {packet : Nat} {pkt : SendPacket Address}
    (there : state.heap[packet]? = some pkt) (holds : packet ∈ state.held) (capacity : Nat) :
    heldOf { state with pool, held := state.held.erase packet } capacity
        + (if pkt.bufferCapacity = capacity then 1 else 0)
      = state.heldOf capacity := by
  have own := capacityOf_eq there
  have same : ∀ other, capacityOf { state with pool, held := state.held.erase packet } other
      = state.capacityOf other := fun _ => rfl
  -- The packet and those that stay are all that were held.
  have parts := (List.perm_cons_erase holds).countP_eq
    fun packet => state.capacityOf packet = some capacity
  simp only [List.countP_cons, own, Option.some.injEq, decide_eq_true_eq] at parts
  simp only [heldOf, same]
  exact parts.symm

/-- A packet that is reused counts for its holder, and no longer for the pool. -/
theorem count_reused (owned : Owned state) {target packet : Nat} {list : List Nat}
    (given : state.Free target (list ++ [packet])) (capacity : Nat) :
    (freeOf { state.pool with sendPackets := state.pool.sendPackets.insert target list }
        capacity).length
        + heldOf
          { state with
            pool.sendPackets := state.pool.sendPackets.insert target list
            held := packet :: state.held } capacity
      = (state.pool.freeOf capacity).length + state.heldOf capacity := by
  have before : state.pool.freeOf target = list ++ [packet] := Option.getD_eq_iff.mpr (.inl given)
  have last : packet ∈ state.pool.freeOf target := by simp [before]
  obtain ⟨pkt, there, sized⟩ := owned.capacity_of_free last
  -- Only for its own capacity the packet makes a difference.
  have fewer := length_freeOf_insert_concat state.pool target capacity list packet
  rw [freeOf_insert_self before] at fewer
  rw [heldOf_cons there, sized]
  dsimp only
  omega

/-- A packet that is filed counts for the pool, and no longer for its holder. -/
theorem count_filed {packet : Nat} {pkt : SendPacket Address} {list : List Nat}
    (holds : packet ∈ state.held) (there : state.heap[packet]? = some pkt)
    (registered : state.Free pkt.bufferCapacity list) (capacity : Nat) :
    (freeOf
          { state.pool with
            sendPackets :=
              state.pool.sendPackets.insert pkt.bufferCapacity (list ++ [packet]) }
          capacity).length
        + heldOf
          { state with
            pool.sendPackets :=
              state.pool.sendPackets.insert pkt.bufferCapacity (list ++ [packet])
            held := state.held.erase packet } capacity
      = (state.pool.freeOf capacity).length + state.heldOf capacity := by
  have before : state.pool.freeOf pkt.bufferCapacity = list :=
    Option.getD_eq_iff.mpr (.inl registered)
  have fewer := heldOf_erase
    { state.pool with
      sendPackets := state.pool.sendPackets.insert pkt.bufferCapacity (list ++ [packet]) }
    there holds capacity
  -- Only for its own capacity the packet makes a difference.
  rw [length_freeOf_insert_concat, freeOf_insert_self before]
  omega

/-- Every class is a size that an `int` can count. -/
def SmallClasses (state : PoolState Address) : Prop :=
  ∀ classSize ∈ state.pool.sendPackets, (classSize : Int) ≤ intMax

/-- What keeps the counts of a pool in order: one owner for each packet, and small classes. -/
structure Counted (state : PoolState Address) : Prop where
  owned : Owned state
  classes : SmallClasses state

/-- A new pool has nothing to count. -/
theorem counted_new (margin : Int) : Counted (new margin : PoolState Address) where
  owned := (holding_managed margin []).1
  -- There are no classes yet.
  classes := fun classSize registered => by contradiction

variable [Inhabited Address]

/-- A request makes a packet only where none of the capacity that it gets is free. -/
theorem nothing_free {bufferSize packet : Nat} {pool : SendPacketPool} {pkt : SendPacket Address}
    (countable : (state.pool.servedSize bufferSize : Int) ≤ intMax)
    (handed : state.pool.getSendPacket state.heap bufferSize
      = .ok (packet, state.heap ++ [pkt], pool)) : state.pool.freeOf pkt.bufferCapacity = [] := by
  unfold SendPacketPool.getSendPacket at handed
  unfold servedSize at countable
  cases smallest : state.pool.lowerBound bufferSize with
  | none =>
    simp only [smallest, Option.getD_none] at countable handed
    obtain ⟨made, fresh, capacity⟩ := makeUnique_of_countable state.heap countable
    simp only [fresh, ok_bind, pure_eq_ok, Except.ok.injEq, Prod.mk.injEq,
      List.append_cancel_left_eq, List.singleton_inj] at handed
    obtain ⟨_, rfl, _⟩ := handed
    -- The size that was asked for is no class, as all classes are smaller.
    have absent : bufferSize ∉ state.pool.sendPackets := fun registered =>
      Nat.lt_irrefl bufferSize (lowerBound_eq_none.mp smallest bufferSize registered)
    rw [capacity, freeOf, AList.lookup_eq_none.mpr absent, Option.getD_none]
  | some classSize =>
    simp only [smallest, Option.getD_some] at countable handed
    cases last : (state.pool.freeOf classSize).getLast? with
    | some reused =>
      -- Reusing a packet makes none.
      rw [freeOf] at last
      rw [last] at handed
      simp at handed
    | none =>
      have empty := List.getLast?_eq_none_iff.mp last
      obtain ⟨made, fresh, capacity⟩ := makeUnique_of_countable state.heap countable
      rw [freeOf] at last
      simp only [last, fresh, ok_bind, pure_eq_ok, Except.ok.injEq, Prod.mk.injEq,
        List.append_cancel_left_eq, List.singleton_inj] at handed
      obtain ⟨_, rfl, _⟩ := handed
      rw [capacity, empty]

/-- The sizes of a call are those that an `int` can count. -/
def SmallSizes : PoolCall Address → Prop
  | .addClassSize bufferSize | .getSendPacket bufferSize => bufferSize < 2147483648
  | _ => True

/-- A call of small sizes adds small classes only. -/
theorem SmallClasses.step {host : Endian} {call : PoolCall Address} (classes : SmallClasses state)
    (small : SmallSizes call) (stepped : state.step host call = .ok next) :
    SmallClasses next := by
  intro classSize registered
  -- A class was there before, or the call has registered it.
  rcases effect_registers (step_effect stepped) registered with old | rfl
  · exact classes classSize old
  · simp only [SmallSizes] at small
    simp only [intMax]
    omega

/-- Only a request makes packets. -/
theorem length_heap_of_step {host : Endian} {call : PoolCall Address}
    (stepped : state.step host call = .ok next) :
    next.heap.length = state.heap.length ∨ ∃ bufferSize, call = .getSendPacket bufferSize := by
  cases call with
  | addClassSize bufferSize =>
    cases stepped
    exact .inl rfl
  | getSendPacket bufferSize => exact .inr ⟨bufferSize, rfl⟩
  | releaseSendPacket packet =>
    cases packet with
    | none =>
      cases stepped
      exact .inl rfl
    | some packet =>
      simp only [step, bind_eq_ok, pure_eq_ok, Except.ok.injEq] at stepped
      obtain ⟨held, _, rfl⟩ := stepped
      exact .inl rfl
  | write packet t value => exact .inl (length_heap_of_touch stepped)
  | writeFromArray packet src numBytes => exact .inl (length_heap_of_touch stepped)
  | setWriteIndex packet index => exact .inl (length_heap_of_touch stepped)
  | setAddress packet address => exact .inl (length_heap_of_touch stepped)
  | destroy packet =>
    simp only [step, bind_eq_ok, pure_eq_ok, Except.ok.injEq] at stepped
    obtain ⟨held, _, rfl⟩ := stepped
    exact .inl rfl

/-- A call that makes a packet is a request, and none of the packet's capacity was free. -/
theorem nothing_free_of_step {host : Endian} {call : PoolCall Address} {pkt : SendPacket Address}
    (classes : SmallClasses state) (small : SmallSizes call)
    (stepped : state.step host call = .ok next) (made : next.heap = state.heap ++ [pkt]) :
    state.pool.freeOf pkt.bufferCapacity = [] := by
  have longer : next.heap.length = state.heap.length + 1 := by
    rw [made, List.length_append, List.length_singleton]
  rcases length_heap_of_step stepped with same | ⟨bufferSize, rfl⟩
  · omega
  · simp only [step] at stepped
    split at stepped
    · rename_i packet heap pool handed
      cases stepped
      dsimp only at made
      rw [made] at handed
      have request : (bufferSize : Int) ≤ intMax := by
        simp only [SmallSizes] at small
        simp only [intMax]
        omega
      exact nothing_free (servedSize_le request classes) handed
    · -- A request that throws makes nothing.
      cases stepped
      omega

/--
A call makes no more packets of a capacity exist, or else all that exist are held.

The one call that makes a packet does so where none of its capacity is free.
-/
theorem existing_step {host : Endian} {call : PoolCall Address} (owned : Owned state)
    (classes : SmallClasses state) (small : SmallSizes call)
    (stepped : state.step host call = .ok next) (capacity : Nat) :
    next.existing capacity ≤ state.existing capacity ∨
      next.existing capacity = next.heldOf capacity := by
  have effect := step_effect stepped
  have owned' := owned.effect effect
  rw [owned.existing_eq, owned'.existing_eq]
  cases effect with
  | unchanged => exact .inl (Nat.le_refl _)
  | classAdded bufferSize absent =>
    left
    refine Nat.add_le_add_right ?_ _
    show (freeOf { state.pool with
      sendPackets := state.pool.sendPackets.insert bufferSize [] } capacity).length ≤ _
    rw [freeOf_insert]
    split
    · exact Nat.zero_le _
    · exact Nat.le_refl _
  | reused target list packet given =>
    exact .inl (Nat.le_of_eq (count_reused owned given capacity))
  | allocated size pkt low high made =>
    have held := heldOf_allocated owned pkt capacity
    by_cases counted : pkt.bufferCapacity = capacity
    · -- Nothing of this capacity was free, so all that exist are held.
      right
      have empty := nothing_free_of_step classes small stepped rfl
      rw [counted] at empty
      simp only [empty, List.length_nil, Nat.zero_add]
    · left
      rw [held, if_neg counted]
      exact Nat.le_refl _
  | filed packet pkt list holds there registered =>
    exact .inl (Nat.le_of_eq (count_filed holds there registered capacity))
  | dropped packet holds =>
    left
    exact Nat.add_le_add_left List.erase_sublist.countP_le _
  | touched packet pkt changed holds there same =>
    left
    refine Nat.add_le_add_left (Nat.le_of_eq ?_) _
    exact heldOf_congr (fun other _ => capacityOf_touched there same other) capacity

/--
The pool never hoards.

Of no capacity do more packets exist than clients have held at some moment so far.
-/
theorem existing_le_held {host : Endian} {margin : Int} {calls : List (PoolCall Address)}
    (small : ∀ call ∈ calls, SmallSizes call)
    (arrived : Run.run (step host) (new margin) calls = .ok state) (capacity : Nat) :
    ∃ before after moment, calls = before ++ after ∧
      Run.run (step host) (new margin) before = .ok moment ∧
      state.existing capacity ≤ moment.heldOf capacity := by
  refine Run.run_le_peak (step host) Counted (fun state => state.existing capacity)
    (fun state => state.heldOf capacity) ?_ (counted_new margin) (Nat.le_refl _)
    (Run.everyStep_of_forall (step host) small) arrived
  intro before call after counted small stepped
  refine ⟨⟨counted.owned.effect (step_effect stepped), counted.classes.step small stepped⟩, ?_⟩
  -- Where a packet is made, all that exist of its capacity are held.
  exact (existing_step counted.owned counted.classes small stepped capacity).imp_right
    Nat.le_of_eq

/-- A client asks for a packet and gives it back. -/
def takeAndRelease : List (PoolCall Nat) :=
  [.addClassSize 8, .getSendPacket 8, .releaseSendPacket (some 0)]

/-- A packet that has come back is the one that was held before. -/
theorem existing_le_held_released :
    ∃ state, Run.run (step .little) (new 32) takeAndRelease = .ok state ∧
      ∃ before after moment, takeAndRelease = before ++ after ∧
        Run.run (step .little) (new 32) before = .ok moment ∧
        state.existing 8 ≤ moment.heldOf 8 := by
  have small : ∀ call ∈ takeAndRelease, SmallSizes call := by
    simp [takeAndRelease, SmallSizes]
  obtain ⟨state, arrived⟩ : ∃ state : PoolState Nat,
      Run.run (step .little) (new 32) takeAndRelease = .ok state := ⟨_, rfl⟩
  exact ⟨state, arrived, existing_le_held small arrived 8⟩

end PoolState

end StreamUP
