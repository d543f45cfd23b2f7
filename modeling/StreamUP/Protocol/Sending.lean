import StreamUP.Data.MessageCodec
import StreamUP.Protocol.PacketContents

/-! Sending packets of a pool: what goes out, and that a packet goes out only once. -/

namespace StreamUP

open Fallible Machine BufferUtil

/-- What a socket is given to send: where to, and the bytes. -/
structure Datagram (Address : Type) where
  dst : Address
  bytes : List Byte

/-- `const_buffer(buffer.data, buffer.getWriteIndex())`, whose size is a `size_t`. -/
def SendPacket.constBuffer {Address : Type} (packet : SendPacket Address) :
    Except Fault (List Byte) :=
  -- The cursor is converted, so that one in front of the buffer becomes enormous.
  let size := toSizeT packet.data.getWriteIndex
  if size ≤ packet.data.data.length then .ok (packet.data.data.take size)
  else .error (.readOutside 0 size packet.data.data.length)

/--
`sendPacketHandler`: what `send_to` of the socket is given.

What the socket makes of it is left out: an exception is caught, and the packet destroyed anyway.
A size beyond the buffer is an error here, though a socket may refuse such a buffer unread.
-/
def sendPacketHandler {Address : Type} (packet : SendPacket Address) :
    Except Fault (Datagram Address) := do
  let bytes ← packet.constBuffer
  return { dst := packet.address, bytes }

/-- A pool with its clients, and what has been sent so far. -/
structure Sender (Address : Type) where
  pool : PoolState Address
  /-- What the socket was given, passed on by it or not, each with the packet it was in. -/
  sent : List (Nat × Datagram Address)

/-- A call of the pool or of a client, or `Protocol::sendPacket` of a packet. -/
inductive SenderCall (Address : Type) where
  | onPool (call : PoolCall Address)
  /-- The packet is moved into the handler, which destroys it when it returns. -/
  | sendPacket (packet : Nat)

namespace Sender

variable {Address : Type}

/-- A sender whose clients hold packets of their own, and that has sent nothing. -/
def holding (margin : Int) (own : List {packet : SendPacket Address // packet.Sized}) :
    Sender Address where
  pool := .holding margin own
  sent := []

variable [Inhabited Address]

/-- The sender after a call. -/
def step (host : Endian) (sender : Sender Address) :
    SenderCall Address → Except Fault (Sender Address)
  | .onPool call => do
    let pool ← sender.pool.step host call
    return { sender with pool }
  | .sendPacket packet =>
    match sender.pool.heap[packet]? with
    | none => .error (.danglingPointer packet)
    | some pkt => do
      -- The handler owns the packet from here on, and does not give it back.
      let held ← sender.pool.giveUp packet
      let datagram ← sendPacketHandler pkt
      let sent := sender.sent ++ [(packet, datagram)]
      return { pool := { sender.pool with held }, sent }

end Sender

/-- The packet a call changes, and how; sending changes none. -/
def SenderCall.target {Address : Type} : SenderCall Address → Option (Nat × PacketAction Address)
  | .onPool call => call.target
  | .sendPacket _ => none

/-- The packet that a call looks into through the pointer of its client, if there is one. -/
def SenderCall.dereferences {Address : Type} : SenderCall Address → Option Nat
  | .onPool (.write packet _ _) => some packet
  | .onPool (.writeFromArray packet _ _) => some packet
  | .onPool (.setWriteIndex packet _) => some packet
  | .onPool (.setAddress packet _) => some packet
  | .sendPacket packet => some packet
  -- A pointer that has been moved from is null, and null is released or destroyed without a look.
  | .onPool (.releaseSendPacket _) | .onPool (.destroy _) => none
  | .onPool (.addClassSize _) | .onPool (.getSendPacket _) => none

/-- A packet is gone: it was made, and neither a client nor the pool has it any more. -/
structure PoolState.Gone {Address : Type} (state : PoolState Address) (packet : Nat) : Prop where
  made : packet < state.heap.length
  unheld : packet ∉ state.held
  unfree : ∀ classSize vec, state.Free classSize vec → packet ∉ vec

namespace PoolState

variable {Address : Type} {state next : PoolState Address} [Inhabited Address]

/-- A packet that is gone stays gone, and as it was. -/
theorem Gone.effect {call : PoolCall Address} {packet : Nat} (gone : Gone state packet)
    (effect : Effect state call next) :
    Gone next packet ∧ next.heap[packet]? = state.heap[packet]? := by
  -- What a call hands out, files or changes is free or held before.
  have ⟨made, unheld, unfree⟩ := gone
  cases effect with
  | unchanged => exact ⟨gone, rfl⟩
  | classAdded bufferSize absent =>
    exact ⟨⟨made, unheld, forall_free_insert List.not_mem_nil unfree⟩, rfl⟩
  | reused target list reused given =>
    have apart : packet ≠ reused := fun same =>
      unfree target _ given (List.mem_append_right _ (List.mem_singleton.mpr same))
    refine ⟨⟨made, ?_, ?_⟩, rfl⟩
    · rw [List.mem_cons, not_or]
      exact ⟨apart, unheld⟩
    · refine forall_free_insert (fun member => ?_) unfree
      exact unfree target _ given (List.mem_append_left _ member)
  | allocated size pkt low high fresh =>
    refine ⟨⟨?_, ?_, unfree⟩, List.getElem?_append_left made⟩
    · rw [List.length_append]
      omega
    · rw [List.mem_cons, not_or]
      exact ⟨by omega, unheld⟩
  | filed filed pkt list holds there registered =>
    refine ⟨⟨made, fun member => unheld (List.mem_of_mem_erase member), ?_⟩, rfl⟩
    refine forall_free_insert (fun member => ?_) unfree
    rcases List.mem_append.mp member with before | now
    · exact unfree _ list registered before
    · exact unheld (List.mem_singleton.mp now ▸ holds)
  | dropped dropped holds =>
    exact ⟨⟨made, fun member => unheld (List.mem_of_mem_erase member), unfree⟩, rfl⟩
  | touched touched pkt changed holds there same =>
    have apart : touched ≠ packet := fun same => unheld (same ▸ holds)
    refine ⟨⟨?_, unheld, unfree⟩, List.getElem?_set_ne apart⟩
    rw [List.length_set]
    exact made

end PoolState

namespace Sender

variable {Address : Type} {sender next : Sender Address} [Inhabited Address]

/-- Sending takes a packet from its holder for good. -/
theorem step_sendPacket_ok {host : Endian} {packet : Nat}
    (stepped : sender.step host (.sendPacket packet) = .ok next) :
    ∃ pkt datagram, sender.pool.heap[packet]? = some pkt ∧ packet ∈ sender.pool.held ∧
      sendPacketHandler pkt = .ok datagram ∧
      next =
        { pool := { sender.pool with held := sender.pool.held.erase packet }
          sent := sender.sent ++ [(packet, datagram)] } := by
  simp only [step] at stepped
  split at stepped
  · contradiction
  · rename_i pkt there
    simp only [bind_eq_ok, pure_eq_ok, Except.ok.injEq] at stepped
    obtain ⟨held, gave, datagram, handled, rfl⟩ := stepped
    obtain ⟨holds, rfl⟩ := PoolState.giveUp_ok gave
    exact ⟨pkt, datagram, there, holds, handled, rfl⟩

/-- A call of the pool sends nothing. -/
theorem step_onPool_ok {host : Endian} {call : PoolCall Address}
    (stepped : sender.step host (.onPool call) = .ok next) :
    sender.pool.step host call = .ok next.pool ∧ next.sent = sender.sent := by
  simp only [step, bind_eq_ok, pure_eq_ok, Except.ok.injEq] at stepped
  obtain ⟨pool, stepped, rfl⟩ := stepped
  exact ⟨stepped, rfl⟩

/-- The packets of a sender are those of its pool, and act on their own. -/
theorem packets_members (host : Endian) :
    Family.Members (step host) (fun sender : Sender Address => sender.pool.heap)
      (SendPacket.act host) SenderCall.target SendPacket.Fresh where
  acts := by
    intro sender call next packet action aimed stepped
    cases call with
    | onPool call =>
      obtain ⟨stepped, _⟩ := step_onPool_ok stepped
      exact (PoolState.packets_members host).acts _ call _ packet action aimed stepped
    | sendPacket sent => contradiction
  grows := by
    intro sender call next unaimed stepped
    cases call with
    | onPool call =>
      obtain ⟨stepped, _⟩ := step_onPool_ok stepped
      exact (PoolState.packets_members host).grows _ call _ unaimed stepped
    | sendPacket sent =>
      obtain ⟨_, _, _, _, _, rfl⟩ := step_sendPacket_ok stepped
      exact ⟨[], (List.append_nil _).symm, fun _ member => absurd member List.not_mem_nil⟩

/--
What has been sent is out of everyone's hands.

No packet has been sent twice, and each one that was sent is gone, as it was when it went out.
-/
structure Settled (sender : Sender Address) : Prop where
  owned : sender.pool.Owned
  once : (sender.sent.map Prod.fst).Nodup
  gone : ∀ packet datagram, (packet, datagram) ∈ sender.sent → sender.pool.Gone packet ∧
    ∃ pkt, sender.pool.heap[packet]? = some pkt ∧ sendPacketHandler pkt = .ok datagram

/-- Every call keeps what has been sent out of everyone's hands. -/
theorem Settled.step {host : Endian} {call : SenderCall Address} (settled : Settled sender)
    (stepped : sender.step host call = .ok next) : Settled next := by
  cases call with
  | onPool call =>
    obtain ⟨stepped, same⟩ := step_onPool_ok stepped
    have effect := PoolState.step_effect stepped
    refine ⟨settled.owned.effect effect, same ▸ settled.once, ?_⟩
    intro packet datagram member
    rw [same] at member
    obtain ⟨gone, pkt, there, handled⟩ := settled.gone packet datagram member
    obtain ⟨still, unchanged⟩ := gone.effect effect
    exact ⟨still, pkt, unchanged.trans there, handled⟩
  | sendPacket packet =>
    obtain ⟨pkt, datagram, there, holds, handled, rfl⟩ := step_sendPacket_ok stepped
    -- What is sent was held, so it had not been sent before.
    have unsent : packet ∉ sender.sent.map Prod.fst := by
      intro member
      obtain ⟨⟨same, earlier⟩, before, rfl⟩ := List.mem_map.mp member
      exact (settled.gone same earlier before).1.unheld holds
    refine ⟨settled.owned.drop packet, ?_, ?_⟩
    · rw [List.map_append, List.map_singleton]
      refine List.nodup_append.mpr ⟨settled.once, List.nodup_singleton packet, ?_⟩
      intro other member last equal same
      rw [same, List.mem_singleton.mp equal] at member
      exact unsent member
    · intro other sent member
      rcases List.mem_append.mp member with before | now
      · obtain ⟨gone, found⟩ := settled.gone other sent before
        exact ⟨⟨gone.made, fun held => gone.unheld (List.mem_of_mem_erase held), gone.unfree⟩,
          found⟩
      · rw [List.mem_singleton, Prod.mk.injEq] at now
        obtain ⟨rfl, rfl⟩ := now
        have made := settled.owned.heldMade other holds
        refine ⟨⟨made, settled.owned.heldNodup.not_mem_erase, ?_⟩, pkt, there, handled⟩
        exact fun classSize vec free listed =>
          settled.owned.freeNotHeld classSize vec free other listed holds

/-- Along every run, what has been sent is out of everyone's hands. -/
theorem run_settled {host : Endian} {margin : Int}
    {own : List {packet : SendPacket Address // packet.Sized}} {calls : List (SenderCall Address)}
    (arrived : Run.run (step host) (holding margin own) calls = .ok sender) : Settled sender := by
  refine Run.reachable_invariant (step host) Settled ?_ (fun _ _ _ => Settled.step) ⟨calls, arrived⟩
  exact ⟨(PoolState.holding_managed margin own).1, List.nodup_nil,
    fun _ _ member => absurd member List.not_mem_nil⟩

/-- Along every run, cursors are bounded by their buffers. -/
theorem run_sized {host : Endian} {margin : Int}
    {own : List {packet : SendPacket Address // packet.Sized}} {calls : List (SenderCall Address)}
    (arrived : Run.run (step host) (holding margin own) calls = .ok sender) :
    sender.pool.AllSized := by
  refine Run.reachable_invariant (step host) (fun sender => sender.pool.AllSized)
    (PoolState.holding_managed margin own).2 ?_ ⟨calls, arrived⟩
  intro sender call next sized stepped
  cases call with
  | onPool call => exact sized.effect (PoolState.step_effect (step_onPool_ok stepped).1)
  | sendPacket packet =>
    -- Sending changes no packet.
    obtain ⟨_, _, _, _, _, rfl⟩ := step_sendPacket_ok stepped
    exact sized

/-- Whoever looks into a packet that is gone dereferences a pointer to nothing. -/
theorem step_of_gone {host : Endian} {call : SenderCall Address} {packet : Nat}
    (gone : sender.pool.Gone packet) (looks : call.dereferences = some packet) :
    sender.step host call = .error (.danglingPointer packet) := by
  have unheld := gone.unheld
  -- A change looks at the packet before it asks who holds it.
  have touched : ∀ change, sender.pool.touch packet change = .error (.danglingPointer packet) := by
    intro change
    rw [PoolState.touch, List.getElem?_eq_getElem gone.made]
    simp only [if_neg unheld]
  cases call with
  | sendPacket sent =>
    cases looks
    -- It is given up before the handler sees it.
    have given : sender.pool.giveUp packet = .error (.danglingPointer packet) := if_neg unheld
    simp only [step, List.getElem?_eq_getElem gone.made, given, error_bind]
  | onPool call =>
    cases call with
    | write packet t value =>
      cases looks
      simp only [step, PoolState.step, touched, error_bind]
    | writeFromArray packet src numBytes =>
      cases looks
      simp only [step, PoolState.step, touched, error_bind]
    | setWriteIndex packet index =>
      cases looks
      simp only [step, PoolState.step, touched, error_bind]
    | setAddress packet address =>
      cases looks
      simp only [step, PoolState.step, touched, error_bind]
    | releaseSendPacket released => contradiction
    | destroy packet => contradiction
    | addClassSize bufferSize => contradiction
    | getSendPacket bufferSize => contradiction

/--
A packet goes out at most once, and nobody has it afterwards.

So no datagram is sent twice from one buffer, and no buffer changes once it has been sent.
The client is left with a null pointer, and looking into the packet through it has no meaning.
-/
theorem sent_once {host : Endian} {margin : Int}
    {own : List {packet : SendPacket Address // packet.Sized}} {calls : List (SenderCall Address)}
    (arrived : Run.run (step host) (holding margin own) calls = .ok sender) :
    (sender.sent.map Prod.fst).Nodup ∧ sender.sent.length ≤ sender.pool.heap.length ∧
      ∀ packet datagram, (packet, datagram) ∈ sender.sent →
        sender.pool.Gone packet ∧ ∀ call : SenderCall Address, call.dereferences = some packet →
          sender.step host call = .error (.danglingPointer packet) := by
  have settled := run_settled arrived
  refine ⟨settled.once, ?_, ?_⟩
  · -- The packets that have been sent are different ones of those that were made.
    have among : sender.sent.map Prod.fst ⊆ List.range sender.pool.heap.length := by
      intro packet member
      obtain ⟨⟨same, datagram⟩, before, rfl⟩ := List.mem_map.mp member
      exact List.mem_range.mpr (settled.gone same datagram before).1.made
    simpa using (List.subperm_of_subset settled.once among).length_le
  · intro packet datagram member
    have gone := (settled.gone packet datagram member).1
    exact ⟨gone, fun call looks => step_of_gone gone looks⟩

/-- Two clients get a packet each. -/
def twoRequests : List (SenderCall Nat) :=
  [.onPool (.getSendPacket 3), .onPool (.getSendPacket 3)]

/-- Both clients fill their packets in turn, and the one with the second packet sends it first. -/
def interleaved : List (SenderCall Nat) :=
  [.onPool (.write 1 .uint8 9), .onPool (.setAddress 0 7), .onPool (.setWriteIndex 0 0),
    .onPool (.write 1 .uint8 8), .onPool (.write 0 .uint16 0x0102), .sendPacket 1,
    .onPool (.write 0 .uint8 3)]

/-- Two packets that are sent are two different ones. -/
theorem sent_once_interleaved :
    ∃ sender, Run.run (step .little) (holding 32 []) (twoRequests ++ interleaved
        ++ [.sendPacket 0]) = .ok sender ∧ (sender.sent.map Prod.fst).Nodup := by
  obtain ⟨sender, arrived⟩ : ∃ sender : Sender Nat, Run.run (step .little) (holding 32 [])
      (twoRequests ++ interleaved ++ [.sendPacket 0]) = .ok sender := ⟨_, rfl⟩
  exact ⟨sender, arrived, (sent_once arrived).1⟩

/-- A datagram is what the calls on its own packet have made of it. -/
theorem sent_alone {host : Endian} {margin : Int}
    {own : List {packet : SendPacket Address // packet.Sized}} {calls : List (SenderCall Address)}
    (arrived : Run.run (step host) (holding margin own) calls = .ok sender) {packet : Nat}
    {datagram : Datagram Address} (sent : (packet, datagram) ∈ sender.sent) :
    ∃ origin pkt, Family.Origin SendPacket.Fresh (own.map Subtype.val) packet origin ∧
      Run.run (SendPacket.act host) origin (Family.actionsOn SenderCall.target packet calls)
        = .ok pkt ∧
      sendPacketHandler pkt = .ok datagram := by
  -- The packet is as it was when it went out.
  obtain ⟨_, pkt, there, handled⟩ := (run_settled arrived).gone packet datagram sent
  obtain ⟨origin, from_start, own_run⟩ := (packets_members host).run_member arrived there
  exact ⟨origin, pkt, from_start, own_run, handled⟩

/-- The packet that is sent first has been made by the two writes of its client. -/
theorem sent_alone_interleaved :
    ∃ sender datagram, Run.run (step .little) (holding 32 []) (twoRequests ++ interleaved)
        = .ok sender ∧ (1, datagram) ∈ sender.sent ∧
      ∃ origin pkt, Family.Origin SendPacket.Fresh [] 1 origin ∧
        Run.run (SendPacket.act .little) origin [.write .uint8 9, .write .uint8 8] = .ok pkt ∧
        sendPacketHandler pkt = .ok datagram := by
  obtain ⟨sender, arrived, sent⟩ : ∃ sender : Sender Nat,
      Run.run (step .little) (holding 32 []) (twoRequests ++ interleaved) = .ok sender ∧
        sender.sent = [(1, { dst := 0, bytes := [9, 8] })] := ⟨_, rfl, rfl⟩
  have member : (1, { dst := 0, bytes := [9, 8] }) ∈ sender.sent := by
    rw [sent]
    exact List.mem_singleton.mpr rfl
  exact ⟨sender, _, arrived, member, sent_alone arrived member⟩

end Sender

/-- The action that writes a field. -/
def Field.action {Address : Type} (field : Field) : PacketAction Address :=
  .write field.1 field.2

namespace SendPacket

variable {Address : Type}

/-- Writing fields into a packet writes them through its cursor, and changes nothing else. -/
theorem run_fields (host : Endian) (packet : SendPacket Address) (fields : List Field) :
    Run.run (act host) packet (fields.map Field.action)
      = (writeMessage host packet.data fields).map fun data => { packet with data } := by
  induction fields generalizing packet with
  | nil => rfl
  | cons field fields ih =>
    simp only [writeMessage, Run.run, List.map_cons, Field.action, act, writeField] at ih ⊢
    -- Both runs take the same first step.
    cases packet.data.write host field.1 field.2 with
    | error fault => rfl
    | ok wrote => exact ih _

/-- The calls that compose a message: where it goes, and its fields from the start on. -/
def composing (dst : Address) (fields : List Field) : List (PacketAction Address) :=
  .setAddress dst :: .setWriteIndex 0 :: fields.map Field.action

/-- A packet in which a message has been composed sends that message. -/
theorem composing_sends (host : Endian) {packet : SendPacket Address} (sized : packet.Sized)
    (dst : Address) {fields : List Field}
    (room : schemaSize (schemaOf fields) ≤ packet.bufferCapacity) :
    ∃ composed, Run.run (act host) packet (composing dst fields) = .ok composed ∧
      sendPacketHandler composed = .ok { dst, bytes := encodeMessage fields } := by
  have size := length_encodeMessage fields
  have start : (packet.data.setWriteIndex 0).Positioned 0 :=
    ⟨sized.countable, Nat.zero_le _, rfl⟩
  have fits : 0 + (encodeMessage fields).length ≤ packet.data.data.length := by
    unfold bufferCapacity at room
    omega
  have written := writeMessage_eq host fields start fits
  refine ⟨⟨dst, (packet.data.setWriteIndex 0).overwrite 0 (encodeMessage fields)⟩, ?_, ?_⟩
  · simp only [composing, Run.run, act]
    rw [run_fields, written]
    rfl
  · -- The cursor is behind the message, and the message is at the front.
    have countable := sized.countable
    have front : (Overlay.overlay packet.data.data 0 (encodeMessage fields)).take
        (0 + (encodeMessage fields).length) = packet.data.data.take 0 ++ encodeMessage fields :=
      Overlay.take_add_overlay (Nat.zero_le _)
    rw [Nat.zero_add, List.take_zero, List.nil_append] at front
    have whole : ((packet.data.setWriteIndex 0).overwrite 0 (encodeMessage fields)).data
        = Overlay.overlay packet.data.data 0 (encodeMessage fields) := rfl
    have cursor : toSizeT ((packet.data.setWriteIndex 0).overwrite 0
        (encodeMessage fields)).getWriteIndex = (encodeMessage fields).length := by
      have small : (encodeMessage fields).length < sizeCount := by
        simp only [intMax, sizeCount] at countable ⊢
        omega
      simpa [WriteBufferWrapper.getWriteIndex, WriteBufferWrapper.overwrite] using
        toSizeT_of_lt small
    have inside : (encodeMessage fields).length
        ≤ (Overlay.overlay packet.data.data 0 (encodeMessage fields)).length := by
      rw [Overlay.length_overlay fits]
      omega
    simp only [sendPacketHandler, constBuffer, cursor, whole, if_pos inside, front, ok_bind,
      pure_eq_ok]

end SendPacket

namespace Sender

variable {Address : Type} {sender final : Sender Address} [Inhabited Address]

/-- A message that is composed in a packet goes out as it is, whatever happens to other packets. -/
theorem message_sent {host : Endian} {calls : List (SenderCall Address)} {packet : Nat}
    {pkt : SendPacket Address} {dst : Address} {fields : List Field} (sized : pkt.Sized)
    (there : sender.pool.heap[packet]? = some pkt)
    (room : schemaSize (schemaOf fields) ≤ pkt.bufferCapacity)
    (composes : Family.actionsOn SenderCall.target packet calls
      = SendPacket.composing dst fields)
    (arrived : Run.run (step host) sender (calls ++ [.sendPacket packet]) = .ok final) :
    ∃ earlier, final.sent = earlier ++ [(packet, { dst, bytes := encodeMessage fields })] := by
  obtain ⟨composed, made, sends⟩ := SendPacket.composing_sends host sized dst room
  obtain ⟨middle, between, stepped⟩ := (Run.run_snoc_ok (step host)).mp arrived
  obtain ⟨member, now, alone⟩ := (packets_members host).run_member_of_start there between
  -- The packet is what composing the message has made of it.
  rw [composes, made, Except.ok.injEq] at alone
  subst alone
  obtain ⟨pkt', datagram, there', _, handled, rfl⟩ := step_sendPacket_ok stepped
  rw [now, Option.some.injEq] at there'
  rw [← there', sends, Except.ok.injEq] at handled
  exact ⟨middle.sent, by rw [handled]⟩

end Sender

end StreamUP
