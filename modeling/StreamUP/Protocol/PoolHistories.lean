import StreamUP.Foundation.Run
import StreamUP.Protocol.SendPacketPool

/-! Histories of a pool and its clients: who owns a packet, and what a step can do to it. -/

namespace StreamUP

open Fallible Machine BufferUtil

/-- The packets made so far, the pool, and the addresses of the packets that clients hold. -/
structure PoolState (Address : Type) where
  heap : List (SendPacket Address)
  pool : SendPacketPool
  held : List Nat

/-- A call of the pool, or what a client does to a packet it holds. -/
inductive PoolCall (Address : Type) where
  | addClassSize (bufferSize : Nat)
  | getSendPacket (bufferSize : Nat)
  /-- The pointer is moved into the call, and may be null. -/
  | releaseSendPacket (packet : Option Nat)
  | write (packet : Nat) (t : Arithmetic) (value : t.Value)
  | writeFromArray (packet : Nat) (src : List Byte) (numBytes : Int)
  | setWriteIndex (packet : Nat) (index : Int)
  | setAddress (packet : Nat) (address : Address)
  /-- The owning pointer goes out of scope. -/
  | destroy (packet : Nat)

namespace PoolState

variable {Address : Type}

/-- A new pool without clients. -/
def new (margin : Int) : PoolState Address where
  -- Nothing has been made, so nothing is held.
  heap := []
  pool := .new margin
  held := []

/-- A client changes a packet, which it must hold. -/
def touch (state : PoolState Address) (packet : Nat)
    (change : SendPacket Address → Except Fault (SendPacket Address)) :
    Except Fault (PoolState Address) :=
  -- A packet that is not held may be free, or gone.
  match state.heap[packet]? with
  | none => .error (.danglingPointer packet)
  | some pkt =>
    if packet ∈ state.held then do
      let changed ← change pkt
      return { state with heap := state.heap.set packet changed }
    else .error (.danglingPointer packet)

/-- A client gives a packet away, which it must hold. -/
def giveUp (state : PoolState Address) (packet : Nat) : Except Fault (List Nat) :=
  if packet ∈ state.held then .ok (state.held.erase packet) else .error (.danglingPointer packet)

/-- What a client gives away it held. -/
theorem giveUp_ok {state : PoolState Address} {packet : Nat} {held : List Nat}
    (gave : state.giveUp packet = .ok held) :
    packet ∈ state.held ∧ held = state.held.erase packet := by
  -- What is not held cannot be given away.
  unfold giveUp at gave
  split at gave
  · rename_i holds
    cases gave
    exact ⟨holds, rfl⟩
  · contradiction

variable [Inhabited Address]

/-- The state after a call. -/
def step (host : Endian) (state : PoolState Address) :
    PoolCall Address → Except Fault (PoolState Address)
  | .addClassSize bufferSize => .ok { state with pool := state.pool.addClassSize bufferSize }
  | .getSendPacket bufferSize =>
    match state.pool.getSendPacket state.heap bufferSize with
    | .ok (packet, heap, pool) => .ok { heap, pool, held := packet :: state.held }
    -- An exception of the allocation leaves the pool and its clients as they were.
    | .error _ => .ok state
  | .releaseSendPacket none => .ok state
  | .releaseSendPacket (some packet) => do
    let held ← state.giveUp packet
    return { state with pool := state.pool.releaseSendPacket state.heap packet, held }
  | .write packet t value => state.touch packet fun pkt => do
    let (_, data) ← pkt.data.write host t value
    return { pkt with data }
  | .writeFromArray packet src numBytes => state.touch packet fun pkt => do
    let data ← pkt.data.writeFromArray src numBytes
    return { pkt with data }
  | .setWriteIndex packet index => state.touch packet fun pkt =>
    .ok { pkt with data := pkt.data.setWriteIndex index }
  | .setAddress packet address => state.touch packet fun pkt => .ok { pkt with address }
  | .destroy packet => do
    let held ← state.giveUp packet
    return { state with held }

end PoolState

/-- Two packets have buffers of one size, with cursors of one bound. -/
structure SendPacket.SameBuffer {Address : Type} (before after : SendPacket Address) : Prop where
  capacity : after.data.data.length = before.data.data.length
  bound : after.data.length = before.data.length

/--
What a call can do to the state.

Every free list but one stays as it is, and only packets in clients' hands are changed.
-/
inductive Effect {Address : Type} [Inhabited Address] (state : PoolState Address) :
    PoolCall Address → PoolState Address → Prop where
  /-- The call found nothing to do, or threw. -/
  | unchanged {call : PoolCall Address} : Effect state call state
  /-- A class is registered that was not there. -/
  | classAdded (bufferSize : Nat)
      (absent : state.pool.sendPackets.lookup bufferSize = none) :
      Effect state (.addClassSize bufferSize)
        { state with
          pool.sendPackets := state.pool.sendPackets.insert bufferSize [] }
  /-- The last packet of a free list is handed out. -/
  | reused {call : PoolCall Address} (classSize : Nat) (vec : List Nat) (packet : Nat)
      (free : state.pool.sendPackets.lookup classSize = some (vec ++ [packet])) :
      Effect state call
        { state with
          pool.sendPackets := state.pool.sendPackets.insert classSize vec
          held := packet :: state.held }
  /-- A new packet is handed out. -/
  | allocated {call : PoolCall Address} (size : Int) (pkt : SendPacket Address)
      (low : intMin ≤ size) (high : size ≤ intMax) (made : SendPacket.new size = .ok pkt) :
      Effect state call
        { state with heap := state.heap ++ [pkt], held := state.heap.length :: state.held }
  /-- A packet comes back to the class of its capacity. -/
  | filed (packet : Nat) (pkt : SendPacket Address) (vec : List Nat)
      (holds : packet ∈ state.held) (there : state.heap[packet]? = some pkt)
      (registered : state.pool.sendPackets.lookup pkt.bufferCapacity = some vec) :
      Effect state (.releaseSendPacket (some packet))
        { state with
          pool.sendPackets :=
            state.pool.sendPackets.insert pkt.bufferCapacity (vec ++ [packet])
          held := state.held.erase packet }
  /-- A packet ceases to exist. -/
  | dropped {call : PoolCall Address} (packet : Nat) (holds : packet ∈ state.held) :
      Effect state call { state with held := state.held.erase packet }
  /-- A client changes a packet it holds, but not the size of its buffer. -/
  | touched {call : PoolCall Address} (packet : Nat) (pkt changed : SendPacket Address)
      (holds : packet ∈ state.held) (there : state.heap[packet]? = some pkt)
      (same : pkt.SameBuffer changed) :
      Effect state call { state with heap := state.heap.set packet changed }

namespace PoolState

variable {Address : Type} {state next : PoolState Address}

/-- The packets in the free list of a class. -/
def Free (state : PoolState Address) (classSize : Nat) (vec : List Nat) : Prop :=
  state.pool.sendPackets.lookup classSize = some vec

/--
Every packet has one owner.

Either a client holds it, or it is once in the free list of its capacity, or it is gone.
-/
structure Owned (state : PoolState Address) : Prop where
  heldNodup : state.held.Nodup
  heldMade : ∀ packet ∈ state.held, packet < state.heap.length
  freeNodup : ∀ classSize vec, state.Free classSize vec → vec.Nodup
  freeMade : ∀ classSize vec, state.Free classSize vec → ∀ packet ∈ vec,
    ∃ pkt, state.heap[packet]? = some pkt ∧ pkt.bufferCapacity = classSize
  freeNotHeld : ∀ classSize vec, state.Free classSize vec → ∀ packet ∈ vec, packet ∉ state.held

/-- Every packet there is has a cursor bounded by its buffer. -/
def AllSized (state : PoolState Address) : Prop :=
  ∀ (packet : Nat) (pkt : SendPacket Address), state.heap[packet]? = some pkt → pkt.Sized

/-- A new pool whose clients hold packets that they have made themselves. -/
def holding (margin : Int) (own : List {packet : SendPacket Address // packet.Sized}) :
    PoolState Address where
  heap := own.map Subtype.val
  pool := .new margin
  held := List.range own.length

/-- Every packet has one owner, and a cursor bounded by its buffer. -/
theorem holding_managed (margin : Int) (own : List {packet : SendPacket Address // packet.Sized}) :
    Owned (holding margin own) ∧ AllSized (holding margin own) := by
  -- Without classes there is no free list to speak of.
  have empty : ∀ classSize vec, ¬ (holding margin own).Free classSize vec := by
    intro classSize vec free
    simp [Free, holding, SendPacketPool.new] at free
  refine ⟨⟨List.nodup_range, ?_, fun classSize vec free => absurd free (empty classSize vec),
    fun classSize vec free => absurd free (empty classSize vec),
    fun classSize vec free => absurd free (empty classSize vec)⟩, ?_⟩
  · intro packet member
    simpa [holding] using member
  · intro packet pkt there
    simp only [holding, List.getElem?_map, Option.map_eq_some_iff] at there
    obtain ⟨made, _, rfl⟩ := there
    exact made.property

/-- After one list has been replaced, a free list is that one or an old one of another class. -/
theorem free_insert {pool : SendPacketPool} {target classSize : Nat} {list vec : List Nat}
    (free : (pool.sendPackets.insert target list).lookup classSize = some vec) :
    classSize = target ∧ vec = list ∨
      classSize ≠ target ∧ pool.sendPackets.lookup classSize = some vec := by
  -- Replacing a list leaves the lists of all other classes alone.
  by_cases same : classSize = target
  · subst same
    rw [AList.lookup_insert, Option.some.injEq] at free
    exact .inl ⟨rfl, free.symm⟩
  · rw [AList.lookup_insert_ne same] at free
    exact .inr ⟨same, free⟩

/-- A packet cannot be free in two classes, as it has only one capacity. -/
theorem Owned.class_unique (owned : Owned state) {classSize other packet : Nat}
    {vec list : List Nat} (free : state.Free classSize vec) (member : packet ∈ vec)
    (free' : state.Free other list) (member' : packet ∈ list) : classSize = other := by
  -- The capacity of the packet is the class in both cases.
  obtain ⟨pkt, there, capacity⟩ := owned.freeMade classSize vec free packet member
  obtain ⟨pkt', there', capacity'⟩ := owned.freeMade other list free' packet member'
  rw [there, Option.some.injEq] at there'
  rw [← capacity, ← capacity', there']

/-- What is true of the list that was put in, and of every old list, is true of every list. -/
theorem forall_free_insert {pool : SendPacketPool} {target : Nat} {list : List Nat}
    {property : Nat → List Nat → Prop} (now : property target list)
    (old : ∀ classSize vec, pool.sendPackets.lookup classSize = some vec → property classSize vec)
    (classSize : Nat) (vec : List Nat)
    (free : (pool.sendPackets.insert target list).lookup classSize = some vec) :
    property classSize vec := by
  -- A list is the one that was put in, or it was there before.
  rcases free_insert free with ⟨rfl, rfl⟩ | ⟨_, before⟩
  · exact now
  · exact old classSize vec before

/-- A free packet was made, and so it is not the next one to be made. -/
theorem Owned.free_lt (owned : Owned state) {classSize packet : Nat} {vec : List Nat}
    (free : state.Free classSize vec) (member : packet ∈ vec) : packet < state.heap.length := by
  obtain ⟨_, there, _⟩ := owned.freeMade classSize vec free packet member
  exact (List.getElem?_eq_some_iff.mp there).1

/-- A new class has nothing in it. -/
theorem Owned.addClass (owned : Owned state) (bufferSize : Nat) :
    Owned { state with
      pool.sendPackets := state.pool.sendPackets.insert bufferSize [] } where
  heldNodup := owned.heldNodup
  heldMade := owned.heldMade
  freeNodup := forall_free_insert List.nodup_nil owned.freeNodup
  freeMade := forall_free_insert (fun _ member => absurd member List.not_mem_nil) owned.freeMade
  freeNotHeld :=
    forall_free_insert (fun _ member => absurd member List.not_mem_nil) owned.freeNotHeld

/-- The last packet of a list passes from the pool to a client. -/
theorem Owned.reuse (owned : Owned state) {target packet : Nat} {list : List Nat}
    (given : state.Free target (list ++ [packet])) :
    Owned { state with
      pool.sendPackets := state.pool.sendPackets.insert target list
      held := packet :: state.held } := by
  have last : packet ∈ list ++ [packet] := by simp
  have nodup := List.nodup_append.mp (owned.freeNodup target _ given)
  have apart : packet ∉ list := fun member => nodup.2.2 packet member packet (by simp) rfl
  refine ⟨?_, ?_, ?_, ?_, ?_⟩
  · exact List.nodup_cons.mpr ⟨owned.freeNotHeld target _ given packet last, owned.heldNodup⟩
  · rw [List.forall_mem_cons]
    exact ⟨owned.free_lt given last, owned.heldMade⟩
  · exact forall_free_insert nodup.1 owned.freeNodup
  · apply forall_free_insert _ owned.freeMade
    exact fun other member => owned.freeMade target _ given other (List.mem_append_left _ member)
  · -- The packet handed out is in no list any more: it was last in its own, and in no other.
    intro classSize vec free other member
    rw [List.mem_cons, not_or]
    rcases free_insert free with ⟨rfl, rfl⟩ | ⟨different, old⟩
    · exact ⟨fun same => apart (same ▸ member),
        owned.freeNotHeld classSize _ given other (List.mem_append_left _ member)⟩
    · refine ⟨fun same => ?_, owned.freeNotHeld classSize vec old other member⟩
      subst same
      exact different (owned.class_unique old member given last)

/-- A packet that is made belongs to the client that asked for it. -/
theorem Owned.allocate (owned : Owned state) (pkt : SendPacket Address) :
    Owned { state with
      heap := state.heap ++ [pkt]
      held := state.heap.length :: state.held } := by
  refine ⟨?_, ?_, owned.freeNodup, ?_, ?_⟩
  · refine List.nodup_cons.mpr ⟨fun member => ?_, owned.heldNodup⟩
    exact absurd (owned.heldMade _ member) (Nat.lt_irrefl _)
  · simp only [List.length_append, List.length_singleton, List.forall_mem_cons]
    refine ⟨Nat.lt_succ_self _, fun packet member => ?_⟩
    exact Nat.lt_succ_of_lt (owned.heldMade packet member)
  · intro classSize vec free packet member
    simp only [List.getElem?_append_left (owned.free_lt free member)]
    exact owned.freeMade classSize vec free packet member
  · intro classSize vec free packet member
    rw [List.mem_cons, not_or]
    exact ⟨Nat.ne_of_lt (owned.free_lt free member),
      owned.freeNotHeld classSize vec free packet member⟩

/-- A client gives up a packet, to the pool or for good. -/
theorem Owned.drop (owned : Owned state) (packet : Nat) :
    Owned { state with held := state.held.erase packet } where
  heldNodup := owned.heldNodup.erase packet
  heldMade := fun other member => owned.heldMade other (List.mem_of_mem_erase member)
  freeNodup := owned.freeNodup
  freeMade := owned.freeMade
  freeNotHeld := fun classSize vec free other member held =>
    owned.freeNotHeld classSize vec free other member (List.mem_of_mem_erase held)

/-- A packet that nobody holds joins the list of its capacity. -/
theorem Owned.file (owned : Owned state) {packet : Nat} {pkt : SendPacket Address}
    {list : List Nat} (unheld : packet ∉ state.held) (there : state.heap[packet]? = some pkt)
    (registered : state.Free pkt.bufferCapacity list) (absent : packet ∉ list) :
    Owned { state with
      pool.sendPackets :=
        state.pool.sendPackets.insert pkt.bufferCapacity (list ++ [packet]) } := by
  refine ⟨owned.heldNodup, owned.heldMade, ?_, ?_, ?_⟩
  · apply forall_free_insert _ owned.freeNodup
    refine List.nodup_append.mpr ⟨owned.freeNodup _ list registered, by simp, ?_⟩
    intro other member last same
    rw [List.mem_singleton.mp same]
    exact fun equal => absent (equal ▸ member)
  · apply forall_free_insert _ owned.freeMade
    intro other member
    rcases List.mem_append.mp member with before | now
    · exact owned.freeMade _ list registered other before
    · rw [List.mem_singleton.mp now]
      exact ⟨pkt, there, rfl⟩
  · apply forall_free_insert _ owned.freeNotHeld
    intro other member
    rcases List.mem_append.mp member with before | now
    · exact owned.freeNotHeld _ list registered other before
    · rw [List.mem_singleton.mp now]
      exact unheld

/-- A client changes a packet that it holds. -/
theorem Owned.touch (owned : Owned state) {packet : Nat} (changed : SendPacket Address)
    (holds : packet ∈ state.held) :
    Owned { state with heap := state.heap.set packet changed } := by
  refine ⟨owned.heldNodup, ?_, owned.freeNodup, ?_, owned.freeNotHeld⟩
  · intro other member
    simp only [List.length_set]
    exact owned.heldMade other member
  · -- A free packet is not in a client's hands, so it is another one.
    intro classSize vec free other member
    have different : packet ≠ other := fun equal =>
      owned.freeNotHeld classSize vec free other member (equal ▸ holds)
    simp only [List.getElem?_set_ne different]
    exact owned.freeMade classSize vec free other member

variable [Inhabited Address]

/-- Changing a packet that is held is an effect, provided its buffer keeps its size. -/
theorem effect_of_touch {call : PoolCall Address} {packet : Nat}
    {change : SendPacket Address → Except Fault (SendPacket Address)}
    (same : ∀ pkt changed, change pkt = .ok changed → pkt.SameBuffer changed)
    (touched : state.touch packet change = .ok next) : Effect state call next := by
  unfold touch at touched
  split at touched
  · contradiction
  · rename_i pkt there
    split at touched
    · rename_i holds
      -- Only the change itself can still fail.
      simp only [bind_eq_ok, pure_eq_ok, Except.ok.injEq] at touched
      obtain ⟨changed, made, rfl⟩ := touched
      exact .touched packet pkt changed holds there (same pkt changed made)
    · contradiction

/-- Registering a size adds a class or does nothing. -/
theorem effect_of_addClassSize (state : PoolState Address) (bufferSize : Nat) :
    Effect state (.addClassSize bufferSize)
      { state with pool := state.pool.addClassSize bufferSize } := by
  rcases state.pool.addClassSize_cases bufferSize with same | ⟨absent, added⟩
  · rw [same]
    exact .unchanged
  · rw [added]
    exact .classAdded bufferSize absent

/-- A packet that is handed out has been free, or has just been made. -/
theorem effect_of_getSendPacket {bufferSize packet : Nat} {heap : List (SendPacket Address)}
    {pool : SendPacketPool}
    (handed : state.pool.getSendPacket state.heap bufferSize = .ok (packet, heap, pool)) :
    Effect state (.getSendPacket bufferSize) { heap, pool, held := packet :: state.held } := by
  rcases SendPacketPool.getSendPacket_cases handed with reused | allocated
  · obtain ⟨classSize, vec, free, rfl, rfl⟩ := reused
    exact .reused classSize vec packet free
  · obtain ⟨size, made, rfl⟩ := allocated
    obtain ⟨pkt, fresh, rfl, rfl⟩ := SendPacketPool.makeUnique_ok made
    exact .allocated (toInt size) pkt (toInt_mem size).1 (toInt_mem size).2 fresh

/-- A packet that is given back is filed where its capacity is a class, and destroyed elsewhere. -/
theorem effect_of_releaseSendPacket {packet : Nat} (holds : packet ∈ state.held) :
    Effect state (.releaseSendPacket (some packet))
      { state with
        pool := state.pool.releaseSendPacket state.heap packet
        held := state.held.erase packet } := by
  unfold SendPacketPool.releaseSendPacket
  cases there : state.heap[packet]? with
  | none => exact .dropped packet holds
  | some pkt =>
    cases registered : state.pool.sendPackets.lookup pkt.bufferCapacity with
    | none => simpa [registered] using Effect.dropped packet holds
    | some vec => simpa [registered] using Effect.filed packet pkt vec holds there registered

/-- Every call that does not fault has one of the effects. -/
theorem step_effect {host : Endian} {call : PoolCall Address}
    (stepped : state.step host call = .ok next) : Effect state call next := by
  cases call with
  | addClassSize bufferSize =>
    cases stepped
    exact effect_of_addClassSize state bufferSize
  | getSendPacket bufferSize =>
    simp only [step] at stepped
    split at stepped
    · rename_i packet heap pool handed
      cases stepped
      exact effect_of_getSendPacket handed
    · cases stepped
      exact .unchanged
  | releaseSendPacket packet =>
    cases packet with
    | none =>
      cases stepped
      exact .unchanged
    | some packet =>
      simp only [step, bind_eq_ok, pure_eq_ok, Except.ok.injEq] at stepped
      obtain ⟨held, gave, rfl⟩ := stepped
      obtain ⟨holds, rfl⟩ := giveUp_ok gave
      exact effect_of_releaseSendPacket holds
  | write packet t value =>
    refine effect_of_touch ?_ stepped
    intro pkt changed made
    simp only [bind_eq_ok, pure_eq_ok, Except.ok.injEq] at made
    obtain ⟨result, wrote, rfl⟩ := made
    obtain ⟨capacity, bound⟩ := WriteBufferWrapper.length_of_write wrote
    exact ⟨capacity, bound⟩
  | writeFromArray packet src numBytes =>
    refine effect_of_touch ?_ stepped
    intro pkt changed made
    simp only [bind_eq_ok, pure_eq_ok, Except.ok.injEq] at made
    obtain ⟨data, wrote, rfl⟩ := made
    obtain ⟨capacity, bound⟩ := WriteBufferWrapper.length_of_writeFromArray wrote
    exact ⟨capacity, bound⟩
  | setWriteIndex packet index =>
    refine effect_of_touch ?_ stepped
    intro pkt changed made
    cases made
    exact ⟨rfl, rfl⟩
  | setAddress packet address =>
    refine effect_of_touch ?_ stepped
    intro pkt changed made
    cases made
    exact ⟨rfl, rfl⟩
  | destroy packet =>
    simp only [step, bind_eq_ok, pure_eq_ok, Except.ok.injEq] at stepped
    obtain ⟨held, gave, rfl⟩ := stepped
    obtain ⟨holds, rfl⟩ := giveUp_ok gave
    exact .dropped packet holds

/-- Every call keeps every packet with one owner. -/
theorem Owned.effect {call : PoolCall Address} (owned : Owned state)
    (effect : Effect state call next) : Owned next := by
  cases effect with
  | unchanged => exact owned
  | classAdded bufferSize absent => exact owned.addClass bufferSize
  | reused target list packet given => exact owned.reuse given
  | allocated size pkt low high made => exact owned.allocate pkt
  | filed packet pkt list holds there registered =>
    -- The client gives the packet up first, so that nobody holds what the pool files.
    apply (owned.drop packet).file owned.heldNodup.not_mem_erase there registered
    exact fun member => owned.freeNotHeld _ list registered packet member holds
  | dropped packet holds => exact owned.drop packet
  | touched packet pkt changed holds there same => exact owned.touch changed holds

/-- Every call keeps the cursors bounded by their buffers. -/
theorem AllSized.effect {call : PoolCall Address} (sized : AllSized state)
    (effect : Effect state call next) : AllSized next := by
  cases effect with
  | unchanged => exact sized
  | classAdded bufferSize absent => exact sized
  | reused target list packet given => exact sized
  | allocated size pkt low high made =>
    intro packet other there
    -- A packet was there before, or it is the one that has just been made.
    rcases Nat.lt_or_ge packet state.heap.length with old | beyond
    · rw [List.getElem?_append_left old] at there
      exact sized packet other there
    · rw [List.getElem?_append_right beyond] at there
      obtain ⟨_, same⟩ := List.getElem?_eq_some_iff.mp there
      rw [← same, List.getElem_singleton]
      exact SendPacket.new_sized low high made
  | filed packet pkt list holds there registered => exact sized
  | dropped packet holds => exact sized
  | touched packet pkt changed holds there same =>
    intro other found present
    by_cases equal : packet = other
    · subst equal
      have inside := (List.getElem?_eq_some_iff.mp there).1
      simp only [List.getElem?_set_self inside, Option.some.injEq] at present
      subst present
      have before := sized packet pkt there
      exact ⟨by rw [same.bound, same.capacity, before.bound], by
        rw [same.capacity]
        exact before.countable⟩
    · simp only [List.getElem?_set_ne equal] at present
      exact sized other found present

/-- Along every history, packets keep one owner each, and cursors are bounded by their buffers. -/
theorem run_managed {host : Endian} {margin : Int}
    (own : List {packet : SendPacket Address // packet.Sized}) {calls : List (PoolCall Address)}
    (arrived : Run.run (step host) (holding margin own) calls = .ok state) :
    Owned state ∧ AllSized state :=
  -- No admission is needed: clients can neither steal a packet nor resize one.
  Run.reachable_invariant (step host) (fun state => Owned state ∧ AllSized state)
    (holding_managed margin own)
    (fun _ _ _ managed stepped => ⟨managed.1.effect (step_effect stepped),
      managed.2.effect (step_effect stepped)⟩) ⟨calls, arrived⟩

end PoolState

end StreamUP
