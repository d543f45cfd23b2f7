import StreamUP.Data.ReadBufferWrapper
import StreamUP.Foundation.Run
import StreamUP.Protocol.Protocol

/-! Routing: the two operations that hand out connections, and what they read of a packet. -/

namespace StreamUP

open Fallible Machine BufferUtil

/-- A packet starts with the bytes of an id. -/
def Packet.Carries (packet : Packet) (id : ConnectionId) : Prop :=
  packet.buffer.take connectionIdSize = id.toList

/-- One round of the id loop: `connectionId[i] = reader.read<uint8_t>()`. -/
def readConnectionIdByte (i : Nat) (state : ConnectionId × ReadBufferWrapper) :
    Except Fault (ConnectionId × ReadBufferWrapper) := do
  let (byte, reader) ← state.2.readUInt8
  -- The array has a fixed size, and a store past it would be a fault of its own.
  if inside : i < connectionIdSize then return (state.1.set i byte inside, reader)
  else throw (.writeOutside i 1 connectionIdSize)

namespace Protocol

/--
`getConnectionForPacket`: the address of the connection, and the protocol afterwards.

The last argument is what `RAND_bytes` would leave in the array for a new connection.
-/
def getConnectionForPacket (self : Protocol) (packet : Packet) (random : ConnectionId) :
    Except Fault (Nat × Protocol) := do
  let reader := ReadBufferWrapper.new packet.buffer
  -- The array is uninitialised, and the loop asks for no bytes to be there before it reads them.
  let (connectionId, _) ←
    forLoop readConnectionIdByte connectionIdSize (Vector.replicate connectionIdSize 0, reader)
  match self.connectionManager.getConnection connectionId with
  | some connection => return (connection, self)
  | none =>
    -- The new connection is filed under the random id, whatever id the packet carries.
    let (connection, connectionManager) := self.connectionManager.addNewConnection random
    return (connection, { self with connectionManager })

/-- `createNewConnection`, used to connect to another server. -/
def createNewConnection (self : Protocol) (random : ConnectionId) : Nat × Protocol :=
  -- The peer has no part in the id.
  let (connection, connectionManager) := self.connectionManager.addNewConnection random
  (connection, { self with connectionManager })

end Protocol

/-- A call that hands out a connection, with what `RAND_bytes` would leave for it. -/
inductive ProtocolCall where
  | createNewConnection (random : ConnectionId)
  | getConnectionForPacket (packet : Packet) (random : ConnectionId)

namespace Protocol

/-- The connection a call hands out, and the protocol afterwards. -/
def perform (self : Protocol) : ProtocolCall → Except Fault (Nat × Protocol)
  -- Both calls hand out a connection that belongs to the manager.
  | .createNewConnection random => .ok (self.createNewConnection random)
  | .getConnectionForPacket packet random => self.getConnectionForPacket packet random

/-- The protocol after a call, whoever got the connection. -/
def step (self : Protocol) (call : ProtocolCall) : Except Fault Protocol := do
  -- Connections are not owned by whoever they are handed to.
  let (_, next) ← self.perform call
  return next

end Protocol

/-- A packet carries one id only. -/
theorem Packet.Carries.unique {packet : Packet} {id other : ConnectionId}
    (carries : packet.Carries id) (carries' : packet.Carries other) : id = other := by
  -- Both ids are the same twelve bytes.
  have same : id.toList = other.toList := carries.symm.trans carries'
  exact Vector.toList_inj.mp same

/-- A packet that carries an id is long enough for one. -/
theorem Packet.Carries.long {packet : Packet} {id : ConnectionId}
    (carries : packet.Carries id) : connectionIdSize ≤ packet.buffer.length := by
  -- The front of the packet has as many bytes as the id.
  have size := congrArg List.length carries
  simp only [List.length_take, Vector.length_toList] at size
  omega

/-- Every packet long enough for an id carries one. -/
theorem Packet.exists_carries {packet : Packet}
    (long : connectionIdSize ≤ packet.buffer.length) : ∃ id, packet.Carries id := by
  -- The id is the front of the packet.
  have size : (packet.buffer.take connectionIdSize).length = connectionIdSize :=
    List.length_take_of_le long
  refine ⟨⟨(packet.buffer.take connectionIdSize).toArray, by simpa using size⟩, ?_⟩
  rfl

/-- After `i` rounds of the id loop, the first `i` bytes of the array are those of the packet. -/
structure IdFilled (bytes : List Byte) (i : Nat) (state : ConnectionId × ReadBufferWrapper) :
    Prop where
  filled : state.1.toList.take i = bytes.take i
  placed : state.2.Positioned (bytes.drop i)

/-- One round stores the next byte, provided there is one. -/
theorem readConnectionIdByte_step {bytes : List Byte} {i : Nat}
    {state : ConnectionId × ReadBufferWrapper} (inside : i < bytes.length)
    (below : i < connectionIdSize) (before : IdFilled bytes i state) :
    ∃ next, readConnectionIdByte i state = .ok next ∧ IdFilled bytes (i + 1) next := by
  rcases state with ⟨connectionId, reader⟩
  rcases before with ⟨filled, placed⟩
  -- The byte read is the one at the loop's own index.
  simp only at filled placed
  rw [List.drop_eq_getElem_cons inside] at placed
  obtain ⟨read, moved⟩ := placed.readUInt8_eq
  refine ⟨(connectionId.set i bytes[i] below, reader.advance 1), ?_, ?_, moved⟩
  · simp [readConnectionIdByte, read, below]
  · -- The slots before it keep their bytes.
    have slot : i < connectionId.toList.length := by simpa using below
    simp only [Vector.toList_set]
    rw [List.take_add_one, List.take_set_of_le (Nat.le_refl i), filled,
      List.getElem?_set_self slot, List.take_add_one, List.getElem?_eq_getElem inside]

/-- The id loop arrives at the id a packet carries. -/
theorem readConnectionId_ok {packet : Packet} {id : ConnectionId} (carries : packet.Carries id) :
    ∃ reader, forLoop readConnectionIdByte connectionIdSize
      (Vector.replicate connectionIdSize 0, .new packet.buffer) = .ok (id, reader) := by
  have long := carries.long
  have start : IdFilled packet.buffer 0
      (Vector.replicate connectionIdSize 0, .new packet.buffer) :=
    ⟨rfl, ReadBufferWrapper.positioned_new packet.addressable⟩
  obtain ⟨⟨read, reader⟩, ran, filled, _⟩ :=
    forLoop_ok readConnectionIdByte connectionIdSize _ (IdFilled packet.buffer) start
      fun i state below before => readConnectionIdByte_step (by omega) below before
  -- All slots are filled with the front of the packet, which is the id.
  have whole : read.toList.take connectionIdSize = read.toList :=
    List.take_of_length_le (Nat.le_of_eq (Vector.length_toList ..))
  have carries' : packet.Carries read := by
    rw [Packet.Carries, ← whole]
    exact filled.symm
  rw [carries.unique carries']
  exact ⟨reader, ran⟩

/-- On a packet too short for an id, the loop reads past the end. -/
theorem readConnectionId_short {packet : Packet}
    (short : packet.buffer.length < connectionIdSize) :
    ∃ fault, forLoop readConnectionIdByte connectionIdSize
      (Vector.replicate connectionIdSize 0, .new packet.buffer) = .error fault := by
  have start : IdFilled packet.buffer 0
      (Vector.replicate connectionIdSize 0, .new packet.buffer) :=
    ⟨rfl, ReadBufferWrapper.positioned_new packet.addressable⟩
  obtain ⟨⟨read, reader⟩, ran, _, placed⟩ :=
    forLoop_ok readConnectionIdByte packet.buffer.length _ (IdFilled packet.buffer) start
      fun i state below before => readConnectionIdByte_step below (by omega) before
  -- The round after the last byte finds nothing left to read.
  rw [List.drop_length] at placed
  obtain ⟨fault, failed⟩ : ∃ fault, reader.readUInt8 = .error fault := placed.readUInt8_nil
  have next : forLoop readConnectionIdByte (packet.buffer.length + 1)
      (Vector.replicate connectionIdSize 0, .new packet.buffer) = .error fault := by
    rw [forLoop, ran]
    simp [readConnectionIdByte, failed]
  exact ⟨fault, forLoop_error next short⟩

/-- A packet that carries an id gets the connection routed there, or else a new one. -/
theorem getConnectionForPacket_eq (self : Protocol) {packet : Packet} {id : ConnectionId}
    (carries : packet.Carries id) (random : ConnectionId) :
    self.getConnectionForPacket packet random
      = .ok (match self.connectionManager.getConnection id with
        | some connection => (connection, self)
        | none => self.createNewConnection random) := by
  obtain ⟨reader, read⟩ := readConnectionId_ok carries
  -- Behind the loop the function is the lookup and, where it fails, the creation.
  unfold Protocol.getConnectionForPacket
  simp only [read, ok_bind]
  cases self.connectionManager.getConnection id <;> rfl

/-- The call reads inside the packet exactly when the packet is long enough for an id. -/
theorem getConnectionForPacket_ok_iff (self : Protocol) (packet : Packet)
    (random : ConnectionId) :
    (∃ result, self.getConnectionForPacket packet random = .ok result) ↔
      connectionIdSize ≤ packet.buffer.length := by
  constructor
  · intro arrived
    obtain ⟨result, arrived⟩ := arrived
    by_contra short
    obtain ⟨fault, failed⟩ := readConnectionId_short (Nat.lt_of_not_le short)
    -- The fault of the loop is the fault of the call.
    unfold Protocol.getConnectionForPacket at arrived
    simp only [failed, error_bind] at arrived
    contradiction
  · intro long
    obtain ⟨id, carries⟩ := Packet.exists_carries long
    exact ⟨_, getConnectionForPacket_eq self carries random⟩

/-- A call whose packet, if it has one, is long enough for an id. -/
def ProtocolCall.LongEnough : ProtocolCall → Prop
  -- Shorter packets arrive too; this is what the code relies on.
  | .createNewConnection _ => True
  | .getConnectionForPacket packet _ => connectionIdSize ≤ packet.buffer.length

/-- A call never faults exactly when it is long enough. -/
theorem step_ok_iff (self : Protocol) (call : ProtocolCall) :
    (∃ next, self.step call = .ok next) ↔ call.LongEnough := by
  cases call with
  | createNewConnection random =>
    -- Creating a connection reads nothing.
    exact ⟨fun _ => trivial, fun _ => ⟨_, rfl⟩⟩
  | getConnectionForPacket packet random =>
    rw [ProtocolCall.LongEnough, ← getConnectionForPacket_ok_iff self packet random]
    simp only [Protocol.step, Protocol.perform, bind_eq_ok, pure_eq_ok, Except.ok.injEq,
      Prod.exists, exists_eq_right]
    exact exists_comm

/-- Runs read inside their packets exactly when all packets are long enough for an id. -/
theorem routing_inBounds_iff (self : Protocol) (calls : List ProtocolCall) :
    (∀ fault, Run.run Protocol.step self calls ≠ .error fault) ↔
      ∀ call ∈ calls, call.LongEnough :=
  -- Whether a call faults depends on its packet alone, never on the state of the table.
  Run.run_error_iff Protocol.step step_ok_iff

/-- A datagram without any bytes. -/
def emptyPacket : Packet where
  -- UDP allows a datagram without payload.
  buffer := []
  addressable := by decide

/-- A new server that receives it reads a byte the datagram does not have. -/
theorem emptyPacket_reads_outside :
    Run.run Protocol.step secureServer
      [.getConnectionForPacket emptyPacket (Vector.replicate connectionIdSize 0)]
      = .error (.readOutside 0 1 0) := by
  -- The very first round of the loop finds the cursor at the end.
  rfl

end StreamUP
