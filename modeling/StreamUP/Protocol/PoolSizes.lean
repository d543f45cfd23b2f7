import StreamUP.Protocol.PoolReuse
import StreamUP.Protocol.Protocol

/-! How big the packets are that a pool hands out, over whole histories of a pool. -/

namespace StreamUP

open Fallible Machine BufferUtil

namespace SendPacketPool

variable {Address : Type} {pool : SendPacketPool} {bufferSize : Nat}

/-- The size a packet is made for: the smallest class that is big enough, or the request itself. -/
def servedSize (pool : SendPacketPool) (bufferSize : Nat) : Nat :=
  (pool.lowerBound bufferSize).getD bufferSize

/-- No packet is made for less than the request. -/
theorem le_servedSize : bufferSize ≤ pool.servedSize bufferSize := by
  unfold servedSize
  cases smallest : pool.lowerBound bufferSize with
  | none => exact Nat.le_refl bufferSize
  | some classSize => exact (lowerBound_eq_some.mp smallest).1.2

/-- Where every class is an `int`, a request that is one is served by a size that is one. -/
theorem servedSize_le {bound : Int} (request : (bufferSize : Int) ≤ bound)
    (classes : ∀ classSize ∈ pool.sendPackets, (classSize : Int) ≤ bound) :
    (pool.servedSize bufferSize : Int) ≤ bound := by
  unfold servedSize
  cases smallest : pool.lowerBound bufferSize with
  | none => exact request
  | some classSize => exact classes classSize (lowerBound_eq_some.mp smallest).1.1

/-- The packet is what a request is promised: big enough, of its class, and usable to its end. -/
structure Fits (pool : SendPacketPool) (bufferSize : Nat) (packet : SendPacket Address) :
    Prop where
  enough : bufferSize ≤ packet.bufferCapacity
  smallest : ∀ classSize,
    IsLeast {registered | registered ∈ pool.sendPackets ∧ bufferSize ≤ registered} classSize →
      packet.bufferCapacity = classSize
  onDemand : (∀ classSize ∈ pool.sendPackets, classSize < bufferSize) →
    packet.bufferCapacity = bufferSize
  bound : packet.data.length = packet.bufferCapacity

/-- A packet fits exactly when it has the size that a packet is made for. -/
theorem fits_iff {packet : SendPacket Address} (sized : packet.Sized) :
    Fits pool bufferSize packet ↔ packet.bufferCapacity = pool.servedSize bufferSize := by
  unfold servedSize
  constructor
  · intro fits
    cases smallest : pool.lowerBound bufferSize with
    | none => exact fits.onDemand (lowerBound_eq_none.mp smallest)
    | some classSize => exact fits.smallest classSize (lowerBound_eq_some.mp smallest)
  · intro capacity
    refine ⟨capacity ▸ le_servedSize, ?_, ?_, sized.bound⟩
    · intro classSize least
      rw [capacity, lowerBound_eq_some.mpr least]
      rfl
    · intro small
      rw [capacity, lowerBound_eq_none.mpr small]
      rfl

variable [Inhabited Address]

/-- A packet of a size that an `int` can count is made as asked. -/
theorem makeUnique_of_countable (heap : List (SendPacket Address)) {size : Nat}
    (countable : (size : Int) ≤ intMax) :
    ∃ pkt, makeUnique heap size = .ok (heap.length, heap ++ [pkt]) ∧
      pkt.bufferCapacity = size := by
  -- The conversion to the constructor's `int` keeps the size.
  have low : intMin ≤ (size : Int) := Int.le_trans (by decide) (Int.natCast_nonneg size)
  obtain ⟨pkt, made, capacity⟩ :
      ∃ pkt : SendPacket Address, SendPacket.new size = .ok pkt ∧ pkt.bufferCapacity = size :=
    ⟨_, (SendPacket.new_ok low countable).mpr ⟨Int.natCast_nonneg size, rfl⟩,
      List.length_replicate⟩
  refine ⟨pkt, ?_, capacity⟩
  rw [makeUnique, toInt_of_mem low countable, made]
  rfl

end SendPacketPool

namespace PoolState

open SendPacketPool

variable {Address : Type} {state : PoolState Address}

variable [Inhabited Address]

/-- A request whose packet is made for an `int` gets a packet of that size. -/
theorem getSendPacket_of_countable (owned : Owned state) {bufferSize : Nat}
    (countable : (state.pool.servedSize bufferSize : Int) ≤ intMax) :
    ∃ packet heap pool pkt, state.pool.getSendPacket state.heap bufferSize
        = .ok (packet, heap, pool) ∧
      heap[packet]? = some pkt ∧ pkt.bufferCapacity = state.pool.servedSize bufferSize := by
  unfold SendPacketPool.getSendPacket
  unfold servedSize at countable ⊢
  cases smallest : state.pool.lowerBound bufferSize with
  | none =>
    simp only [smallest, Option.getD_none] at countable ⊢
    obtain ⟨pkt, made, capacity⟩ := makeUnique_of_countable state.heap countable
    refine ⟨_, state.heap ++ [pkt], state.pool, pkt, ?_, List.getElem?_concat_length, capacity⟩
    rw [made]
    rfl
  | some classSize =>
    simp only [smallest, Option.getD_some] at countable ⊢
    obtain ⟨vec, registered⟩ := lookup_of_lowerBound smallest
    simp only [registered, Option.getD_some]
    cases last : vec.getLast? with
    | some packet =>
      -- A free packet has the capacity of its class.
      obtain ⟨pkt, there, capacity⟩ :=
        owned.freeMade classSize vec registered packet (List.mem_of_getLast? last)
      exact ⟨_, _, _, pkt, rfl, there, capacity⟩
    | none =>
      obtain ⟨pkt, made, capacity⟩ := makeUnique_of_countable state.heap countable
      refine ⟨_, state.heap ++ [pkt], state.pool, pkt, ?_, List.getElem?_concat_length, capacity⟩
      rw [made]
      rfl

/-- What is handed out has a cursor bounded by its buffer. -/
theorem sized_of_handed (sized : AllSized state) {bufferSize packet : Nat}
    {heap : List (SendPacket Address)} {pool : SendPacketPool} {pkt : SendPacket Address}
    (handed : state.pool.getSendPacket state.heap bufferSize = .ok (packet, heap, pool))
    (there : heap[packet]? = some pkt) : pkt.Sized := by
  -- The request is a step, and every step keeps the cursors bounded.
  have stepped : state.step .little (.getSendPacket bufferSize)
      = .ok { heap, pool, held := packet :: state.held } := by
    simp only [step, handed]
  exact sized.effect (step_effect stepped) packet pkt there

/-- A packet that is made for a size that an `int` can count fits its request. -/
theorem fits_of_countable (owned : Owned state) (sized : AllSized state)
    {bufferSize packet : Nat} {heap : List (SendPacket Address)} {pool : SendPacketPool}
    (countable : (state.pool.servedSize bufferSize : Int) ≤ intMax)
    (handed : state.pool.getSendPacket state.heap bufferSize = .ok (packet, heap, pool)) :
    ∃ pkt, heap[packet]? = some pkt ∧ Fits state.pool bufferSize pkt := by
  -- The request has one outcome, and its capacity is known.
  obtain ⟨_, _, _, pkt, handed', there, capacity⟩ := getSendPacket_of_countable owned countable
  rw [handed, Except.ok.injEq, Prod.mk.injEq, Prod.mk.injEq] at handed'
  obtain ⟨rfl, rfl, rfl⟩ := handed'
  exact ⟨pkt, there, (fits_iff (sized_of_handed sized handed there)).mpr capacity⟩

/--
A packet fits its request exactly when its size is one that an `int` can count.

This is so in every state of every history, whatever packets clients release to the pool.
-/
theorem getSendPacket_fits_iff {host : Endian} {margin : Int}
    {own : List {packet : SendPacket Address // packet.Sized}} {calls : List (PoolCall Address)}
    (arrived : Run.run (step host) (holding margin own) calls = .ok state)
    {bufferSize packet : Nat} {heap : List (SendPacket Address)} {pool : SendPacketPool}
    (handed : state.pool.getSendPacket state.heap bufferSize = .ok (packet, heap, pool)) :
    (∃ pkt, heap[packet]? = some pkt ∧ Fits state.pool bufferSize pkt) ↔
      (state.pool.servedSize bufferSize : Int) ≤ intMax := by
  obtain ⟨owned, sized⟩ := run_managed own arrived
  constructor
  · intro fitting
    obtain ⟨pkt, there, fits⟩ := fitting
    -- The capacity of every packet is one that an `int` can count.
    have small := sized_of_handed sized handed there
    rw [← (fits_iff small).mp fits]
    exact small.countable
  · intro countable
    exact fits_of_countable owned sized countable handed

/-- A client gets a packet of the class of eight bytes, and gives it back. -/
def getAndRelease : List (PoolCall Nat) :=
  [.addClassSize 8, .getSendPacket 5, .releaseSendPacket (some 0)]

/-- The next request of five bytes gets the same packet, of the eight bytes of its class. -/
theorem getSendPacket_again :
    ∃ state : PoolState Nat, Run.run (step .little) (holding 32 []) getAndRelease = .ok state ∧
      ∃ heap pool pkt, state.pool.getSendPacket state.heap 5 = .ok (0, heap, pool) ∧
        heap[0]? = some pkt ∧ Fits state.pool 5 pkt := by
  obtain ⟨state, arrived, heap, pool, handed, served⟩ : ∃ state : PoolState Nat,
      Run.run (step .little) (holding 32 []) getAndRelease = .ok state ∧ ∃ heap pool,
        state.pool.getSendPacket state.heap 5 = .ok (0, heap, pool) ∧
          state.pool.servedSize 5 = 8 := ⟨_, rfl, _, _, rfl, rfl⟩
  have countable : (state.pool.servedSize 5 : Int) ≤ intMax := by
    rw [served]
    decide
  obtain ⟨pkt, there, fits⟩ := (getSendPacket_fits_iff arrived handed).mpr countable
  exact ⟨state, arrived, heap, pool, pkt, handed, there, fits⟩

/-- A request of 2^32 bytes gets a packet without any. -/
theorem getSendPacket_wraps :
    ∃ heap pool pkt, (new 32 : PoolState Nat).pool.getSendPacket (new 32 : PoolState Nat).heap
        4294967296 = .ok (0, heap, pool) ∧
      heap[0]? = some pkt ∧ ¬ Fits (new 32 : PoolState Nat).pool 4294967296 pkt := by
  refine ⟨_, _, _, rfl, rfl, fun fits => ?_⟩
  -- The size is converted to an `int` on its way to the constructor, which leaves zero.
  have enough := fits.enough
  contradiction

end PoolState

open PoolState SendPacketPool

variable {Address : Type} [Inhabited Address]

/-- `createSendPacket`, which converts its `int` to the pool's `size_t`. -/
def Protocol.createSendPacket (self : Protocol) (heap : List (SendPacket Address)) (size : Int) :
    Except Fault (Nat × List (SendPacket Address) × SendPacketPool) :=
  self.sendPacketPool.getSendPacket heap (toSizeT size)

/-- A negative size throws, unless some class is bigger than what an `int` can count. -/
theorem createSendPacket_of_negative {self : Protocol} (heap : List (SendPacket Address))
    (classes : ∀ classSize ∈ self.sendPacketPool.sendPackets, (classSize : Int) ≤ intMax)
    {size : IntValue} (negative : size.val < 0) :
    ∃ fault, self.createSendPacket heap size.val = .error fault := by
  have low := size.property.1
  simp only [intMin] at low
  -- As a `size_t` the size is bigger than every class, and as an `int` it is itself again.
  have unserved : self.sendPacketPool.lowerBound (toSizeT size.val) = none := by
    refine lowerBound_eq_none.mpr fun classSize registered => ?_
    have small := classes classSize registered
    simp only [intMax] at small
    unfold toSizeT
    omega
  have back : toInt (toSizeT size.val) = size.val := by
    unfold toInt toSizeT
    omega
  have large : SendPacket.vectorMaxSize < toSizeT size.val := by
    simp only [SendPacket.vectorMaxSize]
    unfold toSizeT
    omega
  refine ⟨.lengthError (toSizeT size.val), ?_⟩
  rw [Protocol.createSendPacket, getSendPacket, unserved]
  simp only [makeUnique, back, SendPacket.new, if_pos large]
  rfl

/-- Where every class is an `int`, whatever packet is created fits the size asked for. -/
theorem createSendPacket_fits {self : Protocol} {state : PoolState Address}
    (same : self.sendPacketPool = state.pool) (owned : Owned state) (sized : AllSized state)
    (classes : ∀ classSize ∈ self.sendPacketPool.sendPackets, (classSize : Int) ≤ intMax)
    {size : IntValue} {packet : Nat} {heap : List (SendPacket Address)} {pool : SendPacketPool}
    (created : self.createSendPacket state.heap size.val = .ok (packet, heap, pool)) :
    0 ≤ size.val ∧ ∃ pkt, heap[packet]? = some pkt ∧ Fits state.pool (toSizeT size.val) pkt := by
  have nonneg : 0 ≤ size.val := by
    by_contra negative
    obtain ⟨fault, failed⟩ :=
      createSendPacket_of_negative state.heap classes (not_le.mp negative)
    rw [failed] at created
    contradiction
  -- A size that is not negative survives the conversion.
  have high := size.property.2
  have countable : ((toSizeT size.val : Nat) : Int) ≤ intMax := by
    simp only [intMax] at high ⊢
    unfold toSizeT
    omega
  rw [same] at classes
  rw [Protocol.createSendPacket, same] at created
  exact ⟨nonneg, fits_of_countable owned sized (servedSize_le countable classes) created⟩

end StreamUP
