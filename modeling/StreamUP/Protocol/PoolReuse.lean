import StreamUP.Protocol.PoolHistories

/-! Whether a pooled packet is as good as a new one, over whole histories of a pool. -/

namespace StreamUP

open Machine BufferUtil

namespace SendPacket

variable {Address : Type} [Inhabited Address]

/-- The cursor is at the start, and no address has been set. -/
structure Clean (packet : SendPacket Address) : Prop where
  atStart : packet.data.getWriteIndex = 0
  unaddressed : packet.address = default

/-- Nothing but its content tells the packet from a new one of the same capacity. -/
structure AsNew (packet : SendPacket Address) : Prop where
  like : ∃ fresh, new packet.bufferCapacity = .ok fresh ∧
    packet.data.getWriteIndex = fresh.data.getWriteIndex ∧
    packet.data.getWritableBytes = fresh.data.getWritableBytes ∧ packet.address = fresh.address
  atStart : packet.data.getWriteIndex = 0
  allWritable : packet.data.getWritableBytes = .ok packet.bufferCapacity

/-- The constructor makes clean packets. -/
theorem new_clean {size : Int} {packet : SendPacket Address} (low : intMin ≤ size)
    (high : size ≤ intMax) (made : new size = .ok packet) : packet.Clean := by
  -- The constructor value-initialises the address and starts the cursor at zero.
  obtain ⟨_, rfl⟩ := (new_ok low high).mp made
  exact ⟨rfl, rfl⟩

/-- A packet is as good as a new one exactly when it is clean. -/
theorem asNew_iff {packet : SendPacket Address} (sized : packet.Sized) :
    packet.AsNew ↔ packet.Clean := by
  have countable := sized.countable
  -- A new packet of this capacity has the same bound, and its cursor is at the start.
  have fresh : (new (Int.ofNat packet.bufferCapacity) : Except Fault (SendPacket Address))
      = .ok { address := default
              data := .new (List.replicate packet.bufferCapacity 0) packet.bufferCapacity } := by
    refine (new_ok ?_ countable).mpr ⟨Int.natCast_nonneg _, rfl⟩
    exact Int.le_trans (by decide) (Int.natCast_nonneg packet.data.data.length)
  constructor
  · intro asNew
    obtain ⟨other, made, _, _, unaddressed⟩ := asNew.like
    rw [show (packet.bufferCapacity : Int) = Int.ofNat packet.bufferCapacity from rfl, fresh,
      Except.ok.injEq] at made
    subst made
    exact ⟨asNew.atStart, unaddressed⟩
  · intro clean
    have start : packet.data.writeIndex = 0 := clean.atStart
    have writable : packet.data.getWritableBytes = .ok packet.bufferCapacity := by
      rw [WriteBufferWrapper.getWritableBytes, sized.bound, start, Int.sub_zero]
      exact checkedInt_of_nonneg (Int.natCast_nonneg _) countable
    refine ⟨⟨_, fresh, clean.atStart, ?_, clean.unaddressed⟩, clean.atStart, writable⟩
    rw [writable, WriteBufferWrapper.getWritableBytes, WriteBufferWrapper.new, Int.sub_zero]
    exact (checkedInt_of_nonneg (Int.natCast_nonneg _) countable).symm

end SendPacket

namespace PoolState

variable {Address : Type} {state next : PoolState Address}

variable [Inhabited Address]

/-- Every free packet is clean. -/
def FreeClean (state : PoolState Address) : Prop :=
  -- Packets in the hands of clients may be in any state.
  ∀ classSize vec, state.Free classSize vec → ∀ packet ∈ vec, ∀ pkt,
    state.heap[packet]? = some pkt → pkt.Clean

/-- A packet that is released to a class is clean. -/
def ReleasesClean (state : PoolState Address) : PoolCall Address → Prop
  -- Where the capacity is no class, the packet is destroyed, and it does not matter.
  | .releaseSendPacket (some packet) => ∀ pkt vec, packet ∈ state.held →
    state.heap[packet]? = some pkt → state.Free pkt.bufferCapacity vec → pkt.Clean
  | _ => True

/-- Whatever size is asked for, the packet handed out is as good as a new one. -/
def ServesNew (state : PoolState Address) : Prop :=
  -- A request that throws hands nothing out.
  ∀ bufferSize packet heap pool,
    state.pool.getSendPacket state.heap bufferSize = .ok (packet, heap, pool) →
    ∃ pkt, heap[packet]? = some pkt ∧ pkt.AsNew

/-- At every moment of a history, whatever is asked for is as good as new. -/
def AlwaysServesNew (host : Endian) (margin : Int) (calls : List (PoolCall Address)) : Prop :=
  -- The history is stopped at any moment, and any size is asked for there.
  ∀ before after state, calls = before ++ after →
    Run.run (step host) (new margin) before = .ok state → state.ServesNew

/-- Every call that releases only clean packets to classes keeps the free packets clean. -/
theorem FreeClean.effect {call : PoolCall Address} (clean : FreeClean state)
    (owned : Owned state) (releases : ReleasesClean state call)
    (effect : Effect state call next) : FreeClean next := by
  cases effect with
  | unchanged => exact clean
  | classAdded bufferSize absent =>
    exact forall_free_insert (fun _ member => absurd member List.not_mem_nil) clean
  | reused target list packet given =>
    apply forall_free_insert _ clean
    exact fun other member => clean target _ given other (List.mem_append_left _ member)
  | allocated size pkt low high made =>
    intro classSize vec free packet member found there
    -- A free packet was made earlier, so it is where it was.
    obtain ⟨before, present, _⟩ := owned.freeMade classSize vec free packet member
    have old := (List.getElem?_eq_some_iff.mp present).1
    simp only [List.getElem?_append_left old] at there
    exact clean classSize vec free packet member found there
  | filed packet pkt list holds there registered =>
    apply forall_free_insert _ clean
    intro other member found present
    rcases List.mem_append.mp member with before | now
    · exact clean _ list registered other before found present
    · -- The packet that came back was clean.
      rw [List.mem_singleton.mp now, there, Option.some.injEq] at present
      exact present ▸ releases pkt list holds there registered
  | dropped packet holds => exact clean
  | touched packet pkt changed holds there same =>
    intro classSize vec free other member found present
    -- A free packet is not in a client's hands, so it is another one.
    have different : packet ≠ other := fun equal =>
      owned.freeNotHeld classSize vec free other member (equal ▸ holds)
    simp only [List.getElem?_set_ne different] at present
    exact clean classSize vec free other member found present

/-- Nothing is free in a new pool. -/
theorem freeClean_new (margin : Int) : FreeClean (new margin : PoolState Address) := by
  -- There is no free list to look at.
  intro classSize vec free
  simp [Free, new, SendPacketPool.new] at free

/-- Where all free packets are clean, whatever is handed out is as good as new. -/
theorem servesNew_of_freeClean (owned : Owned state) (sized : AllSized state)
    (clean : FreeClean state) : ServesNew state := by
  -- The packet comes from a free list or from the constructor.
  intro bufferSize packet heap pool handed
  rcases SendPacketPool.getSendPacket_cases handed with reused | allocated
  · -- A reused packet was free, and so it was clean.
    obtain ⟨classSize, vec, free, rfl, rfl⟩ := reused
    have last : packet ∈ vec ++ [packet] := by simp
    obtain ⟨pkt, there, _⟩ := owned.freeMade classSize _ free packet last
    refine ⟨pkt, there, (SendPacket.asNew_iff (sized packet pkt there)).mpr ?_⟩
    exact clean classSize _ free packet last pkt there
  · -- A packet made on demand is new.
    obtain ⟨size, made, rfl⟩ := allocated
    obtain ⟨pkt, fresh, rfl, rfl⟩ := SendPacketPool.makeUnique_ok made
    have sized := SendPacket.new_sized (toInt_mem size).1 (toInt_mem size).2 fresh
    have clean := SendPacket.new_clean (toInt_mem size).1 (toInt_mem size).2 fresh
    exact ⟨pkt, List.getElem?_concat_length, (SendPacket.asNew_iff sized).mpr clean⟩

/-- A packet released to a class is the next one that is handed out for its capacity. -/
theorem getSendPacket_after_release {packet : Nat} {pkt : SendPacket Address} {vec : List Nat}
    (there : state.heap[packet]? = some pkt) (free : state.Free pkt.bufferCapacity vec) :
    ∃ pool, (state.pool.releaseSendPacket state.heap packet).getSendPacket state.heap
      pkt.bufferCapacity = .ok (packet, state.heap, pool) := by
  -- The list of the capacity's own class now ends with the packet.
  have released : (state.pool.releaseSendPacket state.heap packet).sendPackets.lookup
      pkt.bufferCapacity = some (vec ++ [packet]) := by
    have registered : state.pool.sendPackets.lookup pkt.bufferCapacity = some vec := free
    simp only [SendPacketPool.releaseSendPacket, there, registered]
    exact AList.lookup_insert _
  unfold SendPacketPool.getSendPacket
  rw [SendPacketPool.lowerBound_self released]
  simp only [released, Option.getD_some, List.getLast?_concat]
  exact ⟨_, rfl⟩

/-- Where everything handed out is as good as new, only clean packets go back to a class. -/
theorem releasesClean_of_alwaysServesNew {host : Endian} {margin : Int}
    {calls : List (PoolCall Address)} (always : AlwaysServesNew host margin calls) :
    Run.EveryStep (step host) ReleasesClean (new margin) calls := by
  refine (Run.everyStep_iff (step host)).mpr ?_
  intro before call after middle split arrived
  cases call with
  | releaseSendPacket released =>
    cases released with
    | none => trivial
    | some packet =>
      intro pkt vec holds there free
      -- Asking for its capacity right after the release gives the packet back as it was.
      have stepped : middle.step host (.releaseSendPacket (some packet))
          = .ok { middle with
            pool := middle.pool.releaseSendPacket middle.heap packet
            held := middle.held.erase packet } := by
        simp [step, giveUp, holds]
      have serves := always (before ++ [.releaseSendPacket (some packet)]) after _ (by simp [split])
        ((Run.run_snoc_ok (step host)).mpr ⟨middle, arrived, stepped⟩)
      obtain ⟨pool, handed⟩ := getSendPacket_after_release there free
      obtain ⟨other, present, asNew⟩ := serves _ _ _ _ handed
      rw [there, Option.some.injEq] at present
      subst present
      exact (SendPacket.asNew_iff ((run_managed [] arrived).2 packet pkt there)).mp asNew
  | _ => trivial

/-- Everything handed out is as good as new exactly when only clean packets go back to a class. -/
theorem alwaysServesNew_iff (host : Endian) (margin : Int) (calls : List (PoolCall Address)) :
    AlwaysServesNew host margin calls ↔
      Run.EveryStep (step host) ReleasesClean (new margin) calls := by
  constructor
  · exact releasesClean_of_alwaysServesNew
  · intro releases before after state split arrived
    rw [split] at releases
    have sofar := ((Run.everyStep_append (step host)).mp releases).1
    -- Ownership is what keeps a client from changing a packet that is free.
    obtain ⟨owned, clean⟩ := Run.run_invariant (step host)
      (fun state => Owned state ∧ FreeClean state)
      (fun _ _ _ holds releases stepped => ⟨holds.1.effect (step_effect stepped),
        holds.2.effect holds.1 releases (step_effect stepped)⟩)
      ⟨(holding_managed margin []).1, freeClean_new margin⟩ sofar arrived
    exact servesNew_of_freeClean owned (run_managed [] arrived).2 clean

/-- A client gets a packet, writes one byte to it and gives it back, and another one gets it. -/
def writeAndRelease : List (PoolCall Nat) :=
  [.addClassSize 8, .getSendPacket 8, .write 0 .uint8 5, .releaseSendPacket (some 0),
    .getSendPacket 8]

/-- The next client gets the packet with its cursor behind that byte. -/
theorem writeAndRelease_not_asNew : ¬ AlwaysServesNew .little 32 writeAndRelease := by
  -- The cursor of the packet that the last call hands out stands at one.
  intro always
  have serves := always (writeAndRelease.take 4) [.getSendPacket 8] _ rfl rfl
  obtain ⟨pkt, there, asNew⟩ := serves 8 0 _ _ rfl
  cases there
  have moved := asNew.atStart
  contradiction

end PoolState

end StreamUP
