import StreamUP.Protocol.ReceiveLoop
import StreamUP.Protocol.Sending

/-! A message from the fields its sender writes to the fields its receiver reads. -/

namespace StreamUP

open Fallible Machine BufferUtil Overlay

/-- A message that fits into the array can be read at its front once it has been received. -/
theorem ReceiveLoop.read_received (loop : ReceiveLoop) (host : Endian) {fields : List Field}
    (short : schemaSize (schemaOf fields) ≤ receiveSize) :
    ∃ reader, readMessage host (schemaOf fields)
      (.new (loop.receive (encodeMessage fields)).buf) = .ok (fields, reader) := by
  have size := length_encodeMessage fields
  have whole : (encodeMessage fields).take receiveSize = encodeMessage fields :=
    List.take_of_length_le (by omega)
  -- The message is in front of what lay behind it before.
  have layout : (loop.receive (encodeMessage fields)).buf
      = encodeMessage fields ++ loop.buf.drop (encodeMessage fields).length := by
    simp only [ReceiveLoop.receive, whole, overlay, List.take_zero, List.nil_append, Nat.zero_add]
  have addressable := (loop.receive (encodeMessage fields)).packet.addressable
  simp only [ReceiveLoop.packet, layout] at addressable
  obtain ⟨reader, read, _, _⟩ :=
    readMessage_encode host (ReadBufferWrapper.positioned_new addressable)
  exact ⟨reader, by rw [layout]; exact read⟩

/-- A message for a connection in the table is handled by that connection, as it was sent. -/
theorem ReceiveLoop.handles_received (loop : ReceiveLoop) {bytes : List Byte} {id : ConnectionId}
    {connection : Nat} (starts : bytes.take connectionIdSize = id.toList)
    (known : loop.router.protocol.connectionManager.getConnection id = some connection)
    (short : bytes.length ≤ receiveSize) (random : ConnectionId) :
    loop.step (.received bytes random) = .ok
      { loop.receive bytes with
        router :=
          { protocol := loop.router.protocol
            handled := loop.router.handled ++ [⟨connection, bytes⟩] } } := by
  have whole : bytes.take receiveSize = bytes := List.take_of_length_le short
  have long : connectionIdSize ≤ bytes.length := by
    have size := congrArg List.length starts
    rw [List.length_take, Vector.length_toList] at size
    omega
  have front := take_receive loop bytes
  rw [whole] at front
  have carries : (loop.receive bytes).packet.Carries id := by
    have shorter : (loop.receive bytes).buf.take connectionIdSize
        = bytes.take connectionIdSize := by
      rw [← congrArg (List.take connectionIdSize) front, List.take_take, Nat.min_eq_left long]
    exact shorter.trans starts
  have found := Protocol.connectionFor_known known random
  have counted : (loop.receive bytes).n = some bytes.length := by
    simp only [ReceiveLoop.receive, whole]
  have same : (loop.receive bytes).router = loop.router := rfl
  simp only [ReceiveLoop.step, dispatch_some counted carries, same, found, front, Router.handle]

variable {Address : Type} [Inhabited Address]

/--
What is written is what is read, at the connection it is meant for.

A client composes a message in a packet of the pool while others use the pool at the same time.
The datagram that goes out is received by a loop in any state, on a host of any byte order.
The message must fit into the packet, and into the array of the receiver as well.
-/
theorem message_delivered {senderHost receiverHost : Endian} {margin : Int}
    {own : List {packet : SendPacket Address // packet.Sized}}
    {before calls : List (SenderCall Address)}
    {sender final : Sender Address} {loop : ReceiveLoop} {packet connection : Nat}
    {pkt : SendPacket Address} {dst : Address} {fields : List Field} {id : ConnectionId}
    (reached : Run.run (Sender.step senderHost) (.holding margin own) before = .ok sender)
    (there : sender.pool.heap[packet]? = some pkt)
    (room : schemaSize (schemaOf fields) ≤ pkt.bufferCapacity)
    (composes : Family.actionsOn SenderCall.target packet calls
      = SendPacket.composing dst fields)
    (sent : Run.run (Sender.step senderHost) sender (calls ++ [.sendPacket packet]) = .ok final)
    (starts : (encodeMessage fields).take connectionIdSize = id.toList)
    (known : loop.router.protocol.connectionManager.getConnection id = some connection)
    (short : schemaSize (schemaOf fields) ≤ receiveSize) (random : ConnectionId) :
    ∃ datagram next, final.sent.getLast? = some (packet, datagram) ∧ datagram.dst = dst ∧
      loop.step (.received datagram.bytes random) = .ok next ∧
      next.router.protocol = loop.router.protocol ∧
      next.router.handled = loop.router.handled ++ [⟨connection, encodeMessage fields⟩] ∧
      ∃ reader, readMessage receiverHost (schemaOf fields) (.new next.buf)
        = .ok (fields, reader) := by
  have sized := Sender.run_sized reached packet pkt there
  obtain ⟨earlier, out⟩ := Sender.message_sent sized there room composes sent
  have last : final.sent.getLast? = some (packet, { dst, bytes := encodeMessage fields }) := by
    rw [out, List.getLast?_concat]
  have size := length_encodeMessage fields
  have handles := loop.handles_received starts known (by omega) random
  have reads := loop.read_received receiverHost short
  exact ⟨_, _, last, rfl, handles, rfl, rfl, reads⟩

/-- A message to the connection with the id of sevens: its id and a number. -/
def sevensMessage : List Field :=
  List.replicate 12 ⟨.uint8, 7⟩ ++ [⟨.uint16, 0x0102⟩]

/-- Two clients get a packet each. -/
def twoPackets : List (SenderCall Nat) :=
  [.onPool (.getSendPacket 14), .onPool (.getSendPacket 14)]

/-- The first client composes the message while the other one fills and sends its own packet. -/
def composedBetween : List (SenderCall Nat) :=
  [.onPool (.write 1 .uint8 9), .onPool (.setAddress 0 5), .onPool (.setWriteIndex 0 0)]
    ++ List.replicate 12 (.onPool (.write 0 .uint8 7))
    ++ [.sendPacket 1, .onPool (.write 0 .uint16 0x0102)]

/-- The message reaches the connection that has been created with its id. -/
theorem message_delivered_sevens :
    ∃ final : Sender Nat, Run.run (Sender.step .little) (.holding 32 [])
        (twoPackets ++ (composedBetween ++ [.sendPacket 0])) = .ok final ∧
      ∃ datagram next, final.sent.getLast? = some (0, datagram) ∧ datagram.dst = 5 ∧
        (ReceiveLoop.start (secureServer.createNewConnection ReceiveLoop.sevens).2).step
          (.received datagram.bytes ReceiveLoop.sevens) = .ok next ∧
        next.router.protocol = (secureServer.createNewConnection ReceiveLoop.sevens).2 ∧
        next.router.handled = [] ++ [⟨0, encodeMessage sevensMessage⟩] ∧
        ∃ reader, readMessage .big (schemaOf sevensMessage) (.new next.buf)
          = .ok (sevensMessage, reader) := by
  obtain ⟨sender, reached⟩ : ∃ sender : Sender Nat,
      Run.run (Sender.step .little) (.holding 32 []) twoPackets = .ok sender := ⟨_, rfl⟩
  obtain ⟨final, whole⟩ : ∃ final : Sender Nat, Run.run (Sender.step .little) (.holding 32 [])
      (twoPackets ++ (composedBetween ++ [.sendPacket 0])) = .ok final := ⟨_, rfl⟩
  obtain ⟨again, reached', sent⟩ := (Run.run_append_ok _).mp whole
  rw [reached, Except.ok.injEq] at reached'
  subst reached'
  have there : sender.pool.heap[0]? = some ⟨0, .new (List.replicate 14 0) 14⟩ := by
    cases reached
    rfl
  -- The other client's calls, and what it sends, are left out here.
  have composes : Family.actionsOn SenderCall.target 0 composedBetween
      = SendPacket.composing 5 sevensMessage := rfl
  have known : (secureServer.createNewConnection
      ReceiveLoop.sevens).2.connectionManager.getConnection ReceiveLoop.sevens = some 0 := by
    decide
  exact ⟨final, whole, message_delivered reached there (by decide) composes sent (by decide) known
    (by decide) ReceiveLoop.sevens⟩

end StreamUP
