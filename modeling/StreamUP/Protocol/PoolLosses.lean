import StreamUP.Protocol.PoolMargins
import StreamUP.Protocol.PoolPeaks
import StreamUP.Protocol.Sending

/-! Where packets go: which calls lose one for good, and when none is ever lost. -/

namespace StreamUP

open Fallible Machine BufferUtil SendPacketPool

namespace PoolState

variable {Address : Type} {state next : PoolState Address}

/-- Somebody has the packet: a client, or the pool in one of its free lists. -/
def Has (state : PoolState Address) (packet : Nat) : Prop :=
  packet ∈ state.held ∨ ∃ classSize, packet ∈ state.pool.freeOf classSize

/-- A packet is gone exactly when it was made and nobody has it. -/
theorem gone_iff_not_has {packet : Nat} :
    state.Gone packet ↔ packet < state.heap.length ∧ ¬ state.Has packet := by
  simp only [Has, mem_freeOf, not_or, not_exists, not_and]
  constructor
  · intro gone
    exact ⟨gone.made, gone.unheld, fun classSize vec free => gone.unfree classSize vec free⟩
  · rintro ⟨made, unheld, unfree⟩
    exact ⟨made, unheld, unfree⟩

/-- Where every packet has one owner, what somebody has was made. -/
theorem Owned.has_made (owned : Owned state) {packet : Nat} (has : state.Has packet) :
    packet < state.heap.length := by
  rcases has with holds | ⟨classSize, free⟩
  · exact owned.heldMade packet holds
  · obtain ⟨vec, found, member⟩ := mem_freeOf.mp free
    exact owned.free_lt found member

/-- Registering a size leaves every packet where it is. -/
theorem has_addClassSize (bufferSize packet : Nat) :
    Has { state with pool := state.pool.addClassSize bufferSize } packet ↔ state.Has packet := by
  simp only [Has, freeOf_addClassSize]

/-- A client that gives up a packet has the others. -/
theorem Owned.has_giveUp (owned : Owned state) {given packet : Nat} (holds : given ∈ state.held) :
    Has { state with held := state.held.erase given } packet
      ↔ state.Has packet ∧ packet ≠ given := by
  have unfree : ∀ classSize, given ∉ state.pool.freeOf classSize := by
    intro classSize free
    obtain ⟨vec, found, member⟩ := mem_freeOf.mp free
    exact owned.freeNotHeld classSize vec found given member holds
  simp only [Has, owned.heldNodup.mem_erase_iff]
  constructor
  · rintro (⟨apart, held⟩ | ⟨classSize, free⟩)
    · exact ⟨.inl held, apart⟩
    · -- What is free is not what the client has given up.
      exact ⟨.inr ⟨classSize, free⟩, fun same => unfree classSize (same ▸ free)⟩
  · rintro ⟨held | free, apart⟩
    · exact .inl ⟨apart, held⟩
    · exact .inr free

/-- A packet that is filed goes from a client to the pool. -/
theorem Owned.has_filed (owned : Owned state) {target filed packet : Nat} {vec : List Nat}
    (holds : filed ∈ state.held) (registered : state.pool.sendPackets.lookup target = some vec) :
    Has { state with
      pool.sendPackets := state.pool.sendPackets.insert target (vec ++ [filed])
      held := state.held.erase filed } packet ↔ state.Has packet := by
  have before : state.pool.freeOf target = vec := by
    rw [freeOf, registered, Option.getD_some]
  simp only [Has, freeOf_insert, owned.heldNodup.mem_erase_iff]
  constructor
  · rintro (⟨_, held⟩ | ⟨classSize, free⟩)
    · exact .inl held
    · split at free
      · rcases List.mem_append.mp free with old | now
        · exact .inr ⟨target, before ▸ old⟩
        · exact .inl (List.mem_singleton.mp now ▸ holds)
      · exact .inr ⟨classSize, free⟩
  · rintro (held | ⟨classSize, free⟩)
    · by_cases same : packet = filed
      · exact .inr ⟨target, by rw [if_pos rfl, same]; simp⟩
      · exact .inl ⟨same, held⟩
    · -- What was free in a class is still there.
      refine .inr ⟨classSize, ?_⟩
      split
      · rename_i same
        rw [same, before] at free
        exact List.mem_append_left _ free
      · exact free

/-- A packet that is reused goes from the pool to a client. -/
theorem has_reused {target reused packet : Nat} {vec : List Nat}
    (free : state.pool.sendPackets.lookup target = some (vec ++ [reused])) :
    Has { state with
      pool.sendPackets := state.pool.sendPackets.insert target vec
      held := reused :: state.held } packet ↔ state.Has packet := by
  have before : state.pool.freeOf target = vec ++ [reused] := by
    rw [freeOf, free, Option.getD_some]
  simp only [Has, freeOf_insert, List.mem_cons]
  constructor
  · rintro ((rfl | held) | ⟨classSize, listed⟩)
    · exact .inr ⟨target, by rw [before]; simp⟩
    · exact .inl held
    · split at listed
      · exact .inr ⟨target, by rw [before]; exact List.mem_append_left _ listed⟩
      · exact .inr ⟨classSize, listed⟩
  · rintro (held | ⟨classSize, listed⟩)
    · exact .inl (.inr held)
    · by_cases same : classSize = target
      · -- It is the packet handed out, or one of those behind.
        rw [same, before] at listed
        rcases List.mem_append.mp listed with old | now
        · exact .inr ⟨target, by rw [if_pos rfl]; exact old⟩
        · exact .inl (.inl (List.mem_singleton.mp now))
      · exact .inr ⟨classSize, by rw [if_neg same]; exact listed⟩

end PoolState

namespace Sender

variable {Address : Type} {sender next : Sender Address}

/--
A call takes a packet out of the world.

It is sent or destroyed, or it is released while there is no class for its capacity.
-/
def Loses (sender : Sender Address) : SenderCall Address → Nat → Prop
  | .sendPacket sent, packet => packet = sent
  | .onPool (.destroy destroyed), packet => packet = destroyed
  | .onPool (.releaseSendPacket (some released)), packet => packet = released ∧
    ∀ pkt, sender.pool.heap[released]? = some pkt →
      sender.pool.pool.sendPackets.lookup pkt.bufferCapacity = none
  | _, _ => False

/-- A release hands the packet over to the pool, or loses it where its capacity is no class. -/
theorem has_release {after : PoolState Address} {released packet : Nat}
    (owned : sender.pool.Owned) (holds : released ∈ sender.pool.held)
    (rest : { sender.pool with
      pool := sender.pool.pool.releaseSendPacket sender.pool.heap released
      held := sender.pool.held.erase released } = after) :
    after.Has packet ↔ sender.pool.Has packet ∧
      ¬ sender.Loses (.onPool (.releaseSendPacket (some released))) packet := by
  have made := owned.heldMade released holds
  have there := List.getElem?_eq_getElem made
  subst rest
  simp only [SendPacketPool.releaseSendPacket, Loses, there, Option.some.injEq, forall_eq']
  cases registered : sender.pool.pool.sendPackets.lookup
      sender.pool.heap[released].bufferCapacity with
  | none =>
    simp only [and_true]
    exact owned.has_giveUp holds
  | some vec =>
    simp only [reduceCtorEq, and_false, not_false_iff, and_true]
    exact owned.has_filed holds registered

/-- A call of the pool loses what it destroys, and what it releases without a class for it. -/
theorem loses_onPool {call : PoolCall Address} {packet : Nat}
    (loses : sender.Loses (.onPool call) packet) :
    call = .destroy packet ∨ call = .releaseSendPacket (some packet) ∧
      ∀ pkt, sender.pool.heap[packet]? = some pkt →
        sender.pool.pool.sendPackets.lookup pkt.bufferCapacity = none := by
  cases call with
  | destroy destroyed => exact .inl (congrArg _ loses.symm)
  | releaseSendPacket released =>
    cases released with
    | none => exact absurd loses (fun never => never)
    | some released =>
      obtain ⟨rfl, unregistered⟩ := loses
      exact .inr ⟨rfl, unregistered⟩
  | addClassSize bufferSize => exact absurd loses (fun never => never)
  | getSendPacket bufferSize => exact absurd loses (fun never => never)
  | write packet t value => exact absurd loses (fun never => never)
  | writeFromArray packet src numBytes => exact absurd loses (fun never => never)
  | setWriteIndex packet index => exact absurd loses (fun never => never)
  | setAddress packet address => exact absurd loses (fun never => never)

/-- The packet was made by the call that led from one state to the other. -/
def NewIn (sender next : Sender Address) (packet : Nat) : Prop :=
  sender.pool.heap.length ≤ packet ∧ packet < next.pool.heap.length

/-- A call that makes no packet makes none. -/
theorem not_newIn {packet : Nat} (same : next.pool.heap.length = sender.pool.heap.length) :
    ¬ NewIn sender next packet := by
  unfold NewIn
  omega

variable [Inhabited Address]

/-- After a request, what somebody has is what somebody had, or a packet that was made for it. -/
theorem has_getSendPacket {state : PoolState Address} {bufferSize handed packet : Nat}
    {heap : List (SendPacket Address)} {pool : SendPacketPool}
    (given : state.pool.getSendPacket state.heap bufferSize = .ok (handed, heap, pool)) :
    PoolState.Has { heap, pool, held := handed :: state.held } packet ↔
      state.Has packet ∨ state.heap.length ≤ packet ∧ packet < heap.length := by
  rcases SendPacketPool.getSendPacket_cases given with reused | allocated
  · obtain ⟨classSize, vec, free, rfl, rfl⟩ := reused
    rw [PoolState.has_reused free]
    exact ⟨.inl, fun either => either.elim id fun new => absurd new.2 (Nat.not_lt.mpr new.1)⟩
  · obtain ⟨size, made, rfl⟩ := allocated
    obtain ⟨pkt, _, rfl, rfl⟩ := SendPacketPool.makeUnique_ok made
    -- There is exactly one new packet, and it is handed out.
    simp only [PoolState.Has, List.mem_cons, List.length_append, List.length_singleton]
    have new : packet = state.heap.length ↔
        state.heap.length ≤ packet ∧ packet < state.heap.length + 1 := by omega
    rw [← new, or_assoc, or_comm]

/-- After a call somebody has the packets that were had, apart from those lost, and the new ones. -/
theorem has_step {host : Endian} {call : SenderCall Address} {packet : Nat}
    (owned : sender.pool.Owned) (stepped : sender.step host call = .ok next) :
    next.pool.Has packet ↔
      sender.pool.Has packet ∧ ¬ sender.Loses call packet ∨ NewIn sender next packet := by
  cases call with
  | sendPacket sent =>
    obtain ⟨_, _, _, holds, _, same⟩ := step_sendPacket_ok stepped
    have old : ¬ NewIn sender next packet := not_newIn (by rw [same])
    rw [or_iff_left old, same]
    exact owned.has_giveUp holds
  | onPool call =>
    obtain ⟨stepped, _⟩ := step_onPool_ok stepped
    -- A call that changes a packet leaves all of them where they are.
    have touched : ∀ action, call.target = some action →
        (next.pool.Has packet ↔ sender.pool.Has packet) ∧ ¬ NewIn sender next packet := by
      intro action aimed
      obtain ⟨_, _, _, _, _, same⟩ := PoolState.step_of_target aimed stepped
      refine ⟨?_, not_newIn (by rw [same, List.length_set])⟩
      rw [same]
      rfl
    cases call with
    | addClassSize bufferSize =>
      simp only [PoolState.step, Except.ok.injEq] at stepped
      rw [or_iff_left (not_newIn (by rw [← stepped])), ← stepped, PoolState.has_addClassSize]
      simp [Loses]
    | getSendPacket bufferSize =>
      simp only [PoolState.step] at stepped
      split at stepped
      · rename_i handed heap pool given
        simp only [Except.ok.injEq] at stepped
        unfold NewIn
        rw [← stepped, has_getSendPacket given]
        simp [Loses]
      · simp only [Except.ok.injEq] at stepped
        rw [or_iff_left (not_newIn (by rw [← stepped])), ← stepped]
        simp [Loses]
    | releaseSendPacket released =>
      cases released with
      | none =>
        simp only [PoolState.step, Except.ok.injEq] at stepped
        rw [or_iff_left (not_newIn (by rw [← stepped])), ← stepped]
        simp [Loses]
      | some released =>
        simp only [PoolState.step, bind_eq_ok, pure_eq_ok, Except.ok.injEq] at stepped
        obtain ⟨held, gave, rest⟩ := stepped
        obtain ⟨holds, rfl⟩ := PoolState.giveUp_ok gave
        rw [or_iff_left (not_newIn (by rw [← rest]))]
        exact has_release owned holds rest
    | destroy destroyed =>
      simp only [PoolState.step, bind_eq_ok, pure_eq_ok, Except.ok.injEq] at stepped
      obtain ⟨held, gave, rest⟩ := stepped
      obtain ⟨holds, rfl⟩ := PoolState.giveUp_ok gave
      rw [or_iff_left (not_newIn (by rw [← rest])), ← rest]
      exact owned.has_giveUp holds
    | write packet t value => simp [touched _ rfl, Loses]
    | writeFromArray packet src numBytes => simp [touched _ rfl, Loses]
    | setWriteIndex packet index => simp [touched _ rfl, Loses]
    | setAddress packet address => simp [touched _ rfl, Loses]

/-- Only what a client holds can be lost. -/
theorem held_of_loses {host : Endian} {call : SenderCall Address} {packet : Nat}
    (loses : sender.Loses call packet) (stepped : sender.step host call = .ok next) :
    packet ∈ sender.pool.held := by
  cases call with
  | sendPacket sent =>
    obtain ⟨_, _, _, holds, _, _⟩ := step_sendPacket_ok stepped
    exact loses ▸ holds
  | onPool call =>
    obtain ⟨stepped, _⟩ := step_onPool_ok stepped
    -- Both calls that lose a packet have it given up by its holder.
    rcases loses_onPool loses with rfl | ⟨rfl, _⟩
    · simp only [PoolState.step, bind_eq_ok] at stepped
      obtain ⟨held, gave, _⟩ := stepped
      exact (PoolState.giveUp_ok gave).1
    · simp only [PoolState.step, bind_eq_ok] at stepped
      obtain ⟨held, gave, _⟩ := stepped
      exact (PoolState.giveUp_ok gave).1

/-- A packet is gone after a call exactly when it was gone before, or the call loses it. -/
theorem gone_step {host : Endian} {call : SenderCall Address} {packet : Nat}
    (owned : sender.pool.Owned) (stepped : sender.step host call = .ok next) :
    next.pool.Gone packet ↔ sender.pool.Gone packet ∨ sender.Loses call packet := by
  have has : next.pool.Has packet ↔
      (sender.pool.Has packet ∧ ¬ sender.Loses call packet) ∨ NewIn sender next packet :=
    has_step owned stepped
  have grows := (packets_members host).length_le stepped
  have lost : sender.Loses call packet → packet < sender.pool.heap.length := fun loses =>
    owned.heldMade packet (held_of_loses loses stepped)
  rw [PoolState.gone_iff_not_has, PoolState.gone_iff_not_has, has]
  by_cases made : packet < sender.pool.heap.length
  · -- The packet is not a new one.
    have old : ¬ NewIn sender next packet := fun new => Nat.not_le.mpr made new.1
    have still : packet < next.pool.heap.length := Nat.lt_of_lt_of_le made grows
    tauto
  · -- A packet that has just been made is with whoever asked for it.
    have new : packet < next.pool.heap.length → NewIn sender next packet :=
      fun now => ⟨Nat.not_lt.mp made, now⟩
    tauto

/--
A packet that was made is gone exactly when a call has lost it.

Packets are lost by sending or destroying them, or by a release where their capacity is no class.
-/
theorem gone_iff_lost {host : Endian} {margin : Int}
    {own : List {packet : SendPacket Address // packet.Sized}} {calls : List (SenderCall Address)}
    (arrived : Run.run (step host) (holding margin own) calls = .ok sender) (packet : Nat) :
    sender.pool.Gone packet ↔ ∃ before call after middle, calls = before ++ call :: after ∧
      Run.run (step host) (holding margin own) before = .ok middle ∧
      middle.Loses call packet := by
  refine Run.run_brought_iff (step host) (fun sender => sender.pool.Gone packet)
    (fun sender call => sender.Loses call packet) (fun sender => sender.pool.Owned) ?_ ?_
    (PoolState.holding_managed margin own).1 ?_ arrived
  · intro before call after owned stepped
    cases call with
    | onPool call => exact owned.effect (PoolState.step_effect (step_onPool_ok stepped).1)
    | sendPacket sent =>
      obtain ⟨_, _, _, _, _, rfl⟩ := step_sendPacket_ok stepped
      exact owned.drop sent
  · exact fun before call after owned stepped => gone_step owned stepped
  · -- At first the clients hold all packets there are.
    intro gone
    have made := gone.made
    refine gone.unheld (List.mem_range.mpr ?_)
    rw [holding, PoolState.holding, List.length_map] at made
    exact made

/-- A packet of a size that was never registered is lost when it is released. -/
theorem gone_iff_lost_released :
    ∃ sender : Sender Nat, Run.run (step .little) (holding 32 [])
        [.onPool (.getSendPacket 3), .onPool (.releaseSendPacket (some 0))] = .ok sender ∧
      sender.pool.Gone 0 := by
  obtain ⟨sender, arrived⟩ : ∃ sender : Sender Nat, Run.run (step .little) (holding 32 [])
      [.onPool (.getSendPacket 3), .onPool (.releaseSendPacket (some 0))] = .ok sender := ⟨_, rfl⟩
  refine ⟨sender, arrived, (gone_iff_lost arrived 0).mpr ?_⟩
  obtain ⟨middle, reached⟩ : ∃ middle : Sender Nat, Run.run (step .little) (holding 32 [])
      [.onPool (.getSendPacket 3)] = .ok middle := ⟨_, rfl⟩
  refine ⟨[.onPool (.getSendPacket 3)], _, [], middle, rfl, reached, rfl, fun pkt _ => ?_⟩
  -- The pool has no class at all.
  cases reached
  exact AList.lookup_empty pkt.bufferCapacity

end Sender

namespace PoolState

variable {Address : Type} {state next : PoolState Address} [Inhabited Address]

/-- Every packet has the capacity of some class. -/
def Classed (state : PoolState Address) : Prop :=
  ∀ (packet : Nat) (pkt : SendPacket Address), state.heap[packet]? = some pkt →
    pkt.bufferCapacity ∈ state.pool.sendPackets

/-- Some class is big enough for the request, if the call is one. -/
def Served (state : PoolState Address) (call : PoolCall Address) : Prop :=
  ∀ bufferSize, call = .getSendPacket bufferSize →
    ∃ classSize ∈ state.pool.sendPackets, bufferSize ≤ classSize

/-- A request that is served by a class gets a packet of that class. -/
theorem served_capacity {bufferSize packet : Nat} {pool : SendPacketPool}
    {pkt : SendPacket Address} (owned : Owned state) (classes : SmallClasses state)
    (served : state.Served (.getSendPacket bufferSize))
    (handed : state.pool.getSendPacket state.heap bufferSize
      = .ok (packet, state.heap ++ [pkt], pool)) :
    pkt.bufferCapacity ∈ state.pool.sendPackets := by
  obtain ⟨classSize, registered, big⟩ := served bufferSize rfl
  have member : state.pool.servedSize bufferSize ∈ state.pool.sendPackets := by
    unfold servedSize
    cases smallest : state.pool.lowerBound bufferSize with
    | none => exact absurd (lowerBound_eq_none.mp smallest classSize registered) (by omega)
    | some least => exact (lowerBound_eq_some.mp smallest).1.1
  have countable := classes _ member
  obtain ⟨packet', heap', pool', pkt', handed', there, capacity⟩ :=
    getSendPacket_of_countable owned countable
  rw [handed, Except.ok.injEq, Prod.mk.injEq, Prod.mk.injEq] at handed'
  obtain ⟨rfl, rfl, rfl⟩ := handed'
  rcases SendPacketPool.getSendPacket_cases handed with reused | allocated
  · -- A packet that is reused is no new one.
    obtain ⟨_, _, _, same, _⟩ := reused
    simp at same
  · obtain ⟨size, made, _⟩ := allocated
    obtain ⟨_, _, rfl, _⟩ := SendPacketPool.makeUnique_ok made
    rw [List.getElem?_concat_length, Option.some.injEq] at there
    rw [there, capacity]
    exact member

/-- Where requests are served by classes, every packet has the capacity of one. -/
theorem Classed.step {host : Endian} {call : PoolCall Address} (classed : Classed state)
    (counted : Counted state) (served : state.Served call)
    (stepped : state.step host call = .ok next) : Classed next := by
  have effect := step_effect stepped
  have kept := (keepsClasses_of_effect effect).classes
  cases effect with
  | unchanged => exact classed
  | classAdded bufferSize absent => exact fun packet pkt there => kept _ (classed packet pkt there)
  | reused target list reused given =>
    exact fun packet pkt there => kept _ (classed packet pkt there)
  | allocated size pkt low high fresh =>
    intro packet other there
    rcases Nat.lt_or_ge packet state.heap.length with old | beyond
    · rw [List.getElem?_append_left old] at there
      exact classed packet other there
    · -- The packet that has just been made is the one that was asked for.
      rw [List.getElem?_append_right beyond] at there
      obtain ⟨_, same⟩ := List.getElem?_eq_some_iff.mp there
      rw [List.getElem_singleton] at same
      subst same
      rcases length_heap_of_step stepped with short | ⟨bufferSize, rfl⟩
      · simp at short
      · simp only [PoolState.step] at stepped
        split at stepped
        · rename_i handed heap pool given
          simp only [Except.ok.injEq, PoolState.mk.injEq] at stepped
          obtain ⟨made, _, _⟩ := stepped
          rw [made] at given
          have registered := served_capacity counted.owned counted.classes served given
          exact registered
        · have short := congrArg (fun state => state.heap.length) (Except.ok.inj stepped)
          simp at short
  | filed filed pkt list holds there registered =>
    exact fun packet pkt there => kept _ (classed packet pkt there)
  | dropped dropped holds => exact classed
  | touched touched pkt changed holds there same =>
    intro packet other found
    by_cases equal : touched = packet
    · subst equal
      rw [List.getElem?_set_self (List.getElem?_eq_some_iff.mp there).1,
        Option.some.injEq] at found
      have capacity : changed.bufferCapacity = pkt.bufferCapacity := same.capacity
      rw [← found, capacity]
      exact classed touched pkt there
    · rw [List.getElem?_set_ne equal] at found
      exact classed packet other found

end PoolState

namespace Sender

variable {Address : Type} {sender next : Sender Address}

/--
A call by which no packet is lost unseen.

Sizes are small, requests are served by classes, and no client destroys a packet.
-/
structure Keeps (sender : Sender Address) (call : SenderCall Address) : Prop where
  small : ∀ pooled, call = .onPool pooled → PoolState.SmallSizes pooled
  served : ∀ pooled, call = .onPool pooled → sender.pool.Served pooled
  undestroyed : ∀ packet, call ≠ .onPool (.destroy packet)

/-- Sending loses no packet unseen. -/
theorem keeps_sendPacket (sender : Sender Address) (packet : Nat) :
    Keeps sender (.sendPacket packet) :=
  -- It is no call of the pool.
  ⟨fun _ same => by contradiction, fun _ same => by contradiction, fun _ same => by contradiction⟩

/-- Nor does a call of the pool that is served, with a small size, if it destroys nothing. -/
theorem keeps_onPool {call : PoolCall Address} (small : PoolState.SmallSizes call)
    (served : sender.pool.Served call) (spares : ∀ packet, call ≠ .destroy packet) :
    Keeps sender (.onPool call) where
  small := by
    rintro _ ⟨⟩
    exact small
  served := by
    rintro _ ⟨⟩
    exact served
  undestroyed := by
    rintro packet ⟨⟩
    exact spares packet rfl

/-- Every packet that was made is with somebody, or has been sent. -/
structure Accounted (sender : Sender Address) : Prop where
  settled : Settled sender
  classes : sender.pool.SmallClasses
  classed : sender.pool.Classed
  located : ∀ packet < sender.pool.heap.length,
    sender.pool.Has packet ∨ packet ∈ sender.sent.map Prod.fst

/-- An empty pool has no packets to account for. -/
theorem accounted_holding (margin : Int) : Accounted (holding margin [] : Sender Address) := by
  refine ⟨⟨(PoolState.holding_managed margin []).1, List.nodup_nil, fun _ _ member => ?_⟩,
    fun _ registered => ?_, fun _ _ there => ?_, fun _ made => ?_⟩
  · exact absurd member List.not_mem_nil
  · contradiction
  · simp [holding, PoolState.holding] at there
  · simp [holding, PoolState.holding] at made

variable [Inhabited Address]

/-- What has been sent stays so. -/
theorem mem_sent_step {host : Endian} {call : SenderCall Address} {packet : Nat}
    (member : packet ∈ sender.sent.map Prod.fst) (stepped : sender.step host call = .ok next) :
    packet ∈ next.sent.map Prod.fst := by
  cases call with
  | sendPacket sent =>
    obtain ⟨_, datagram, _, _, _, rfl⟩ := step_sendPacket_ok stepped
    rw [List.map_append]
    exact List.mem_append_left _ member
  | onPool call =>
    rw [(step_onPool_ok stepped).2]
    exact member

/-- What such a call loses it sends. -/
theorem Accounted.sent_of_loses {host : Endian} {call : SenderCall Address} {packet : Nat}
    (accounted : Accounted sender) (keeps : sender.Keeps call)
    (loses : sender.Loses call packet) (stepped : sender.step host call = .ok next) :
    packet ∈ next.sent.map Prod.fst := by
  have holds := held_of_loses loses stepped
  cases call with
  | sendPacket sent =>
    obtain ⟨_, datagram, _, _, _, rfl⟩ := step_sendPacket_ok stepped
    rw [loses]
    simp
  | onPool call =>
    rcases loses_onPool loses with rfl | ⟨rfl, unregistered⟩
    · exact absurd rfl (keeps.undestroyed packet)
    · -- There is a class for the capacity of every packet.
      have there := List.getElem?_eq_getElem (accounted.settled.owned.heldMade packet holds)
      have registered := accounted.classed packet _ there
      exact absurd registered (AList.lookup_eq_none.mp (unregistered _ there))

/-- Calls that keep packets keep them accounted for. -/
theorem Accounted.step {host : Endian} {call : SenderCall Address}
    (accounted : Accounted sender) (keeps : sender.Keeps call)
    (stepped : sender.step host call = .ok next) : Accounted next := by
  have owned := accounted.settled.owned
  have located : ∀ packet < next.pool.heap.length,
      next.pool.Has packet ∨ packet ∈ next.sent.map Prod.fst := by
    intro packet made
    rw [has_step owned stepped]
    by_cases new : NewIn sender next packet
    · exact .inl (.inr new)
    · have old : packet < sender.pool.heap.length := by
        unfold NewIn at new
        omega
      rcases accounted.located packet old with has | gone
      · by_cases loses : sender.Loses call packet
        · exact .inr (accounted.sent_of_loses keeps loses stepped)
        · exact .inl (.inl ⟨has, loses⟩)
      · exact .inr (mem_sent_step gone stepped)
  have settled := accounted.settled.step stepped
  cases call with
  | onPool call =>
    obtain ⟨pooled, _⟩ := step_onPool_ok stepped
    have small := keeps.small call rfl
    exact ⟨settled, accounted.classes.step small pooled,
      accounted.classed.step ⟨owned, accounted.classes⟩ (keeps.served call rfl) pooled, located⟩
  | sendPacket sent =>
    -- Sending changes neither classes nor packets.
    obtain ⟨_, _, _, _, _, rfl⟩ := step_sendPacket_ok stepped
    exact ⟨settled, accounted.classes, accounted.classed, located⟩

/--
No packet is lost where requests are served by classes.

All packets that were ever made are free, held or sent, and each of them is in one of these places.
-/
theorem run_accounted {host : Endian} {margin : Int} {calls : List (SenderCall Address)}
    (keeps : Run.EveryStep (step host) Keeps (holding margin []) calls)
    (arrived : Run.run (step host) (holding margin []) calls = .ok sender) :
    (sender.pool.pool.freePackets ++ (sender.pool.held ++ sender.sent.map Prod.fst)).Perm
      (List.range sender.pool.heap.length) := by
  have accounted := Run.run_invariant (step host) Accounted
    (fun _ _ _ accounted keeps stepped => accounted.step keeps stepped) (accounted_holding margin)
    keeps arrived
  have settled := accounted.settled
  have owned := settled.owned
  -- What has been sent is neither free nor held.
  have gone : ∀ packet, packet ∈ sender.sent.map Prod.fst → sender.pool.Gone packet := by
    intro packet member
    obtain ⟨⟨same, datagram⟩, among, rfl⟩ := List.mem_map.mp member
    exact (settled.gone same datagram among).1
  have has : ∀ packet, packet ∈ sender.pool.pool.freePackets ++ sender.pool.held ↔
      sender.pool.Has packet := by
    intro packet
    rw [List.mem_append, mem_freePackets, or_comm]
    rfl
  have once : (sender.pool.pool.freePackets ++ sender.pool.held
      ++ sender.sent.map Prod.fst).Nodup := by
    refine List.nodup_append.mpr ⟨owned.nodup_packets, settled.once, ?_⟩
    rintro packet there _ sent rfl
    exact (PoolState.gone_iff_not_has.mp (gone packet sent)).2 ((has packet).mp there)
  rw [← List.append_assoc, List.perm_ext_iff_of_nodup once List.nodup_range]
  intro packet
  rw [List.mem_append, has, List.mem_range]
  constructor
  · rintro (there | sent)
    · exact owned.has_made there
    · exact (gone packet sent).made
  · exact fun made => accounted.located packet made

/-- A client takes a packet of a class and sends it. -/
def takeAndSend : List (SenderCall Nat) :=
  [.onPool (.addClassSize 8), .onPool (.getSendPacket 5), .sendPacket 0]

/-- The packet that was made has been sent. -/
theorem run_accounted_sent :
    ∃ sender : Sender Nat, Run.run (step .little) (holding 32 []) takeAndSend = .ok sender ∧
      (sender.pool.pool.freePackets ++ (sender.pool.held ++ sender.sent.map Prod.fst)).Perm
        (List.range sender.pool.heap.length) := by
  obtain ⟨sender, arrived⟩ : ∃ sender : Sender Nat,
      Run.run (step .little) (holding 32 []) takeAndSend = .ok sender := ⟨_, rfl⟩
  have keeps : Run.EveryStep (step .little) Keeps (holding 32 []) takeAndSend := by
    refine (Run.everyStep_cons_of_ok _ rfl).mpr ⟨keeps_onPool ?_ ?_ ?_, ?_⟩
    · exact show 8 < 2147483648 by omega
    · intro bufferSize request
      contradiction
    · intro packet same
      contradiction
    refine (Run.everyStep_cons_of_ok _ rfl).mpr ⟨keeps_onPool ?_ ?_ ?_, ?_⟩
    · exact show 5 < 2147483648 by omega
    · intro bufferSize request
      cases request
      -- The class of eight bytes has been registered first.
      exact ⟨8, by decide, by omega⟩
    · intro packet same
      contradiction
    exact (Run.everyStep_singleton _).mpr (keeps_sendPacket _ 0)
  exact ⟨sender, arrived, run_accounted keeps arrived⟩

end Sender

end StreamUP
