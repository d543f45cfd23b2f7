import StreamUP.Protocol.ReceiveLoop

/-! Where packets go, one after the other: the table they first meet decides for all of them. -/

namespace StreamUP

open Fallible Machine

/-- The id in front of a packet, where bytes that are missing count as zero. -/
def Packet.connectionId (packet : Packet) : ConnectionId :=
  Vector.ofFn fun position => packet.buffer.getD position 0

/-- A packet that is long enough carries the id in front of it. -/
theorem Packet.carries_connectionId {packet : Packet}
    (long : connectionIdSize ≤ packet.buffer.length) : packet.Carries packet.connectionId := by
  obtain ⟨id, carries⟩ := Packet.exists_carries long
  have same : packet.connectionId = id := by
    apply Vector.toList_inj.mp
    rw [← carries]
    apply List.ext_getElem
    · rw [Vector.length_toList, List.length_take_of_le long]
    · intro position inside within
      -- Behind the first bytes of the packet nothing is looked at.
      have there : position < packet.buffer.length := by
        rw [List.length_take] at within
        omega
      simp [Packet.connectionId, List.getD_eq_getElem?_getD, there]
  exact same ▸ carries

namespace Protocol

/-- The table has no connection for the packet. -/
def isUnknown (self : Protocol) (packet : Packet) : Bool :=
  (self.connectionManager.getConnection packet.connectionId).isNone

theorem isUnknown_of_missing {self : Protocol} {packet : Packet}
    (missing : self.connectionManager.getConnection packet.connectionId = none) :
    self.isUnknown packet = true := by
  simp only [isUnknown, missing, Option.isNone_none]

theorem not_isUnknown_of_found {self : Protocol} {packet : Packet} {connection : Nat}
    (found : self.connectionManager.getConnection packet.connectionId = some connection) :
    ¬ self.isUnknown packet = true := by
  simp [isUnknown, found]

/--
Where a table that stays as it is sends packets, given the address of the next connection.

Every packet that it does not know goes to a connection of its own.
-/
def destinations (self : Protocol) : Nat → List Packet → List Nat
  | _, [] => []
  | next, packet :: packets =>
    match self.connectionManager.getConnection packet.connectionId with
    | some connection => connection :: self.destinations next packets
    | none => next :: self.destinations (next + 1) packets

/-- A packet that the table knows goes to the connection it has for it. -/
theorem destinations_known {self : Protocol} {packet : Packet} {connection : Nat}
    (found : self.connectionManager.getConnection packet.connectionId = some connection)
    (next : Nat) (packets : List Packet) :
    self.destinations next (packet :: packets)
      = connection :: self.destinations next packets := by
  simp only [destinations, found]

/-- A packet that the table does not know goes to the next connection. -/
theorem destinations_unknown {self : Protocol} {packet : Packet}
    (missing : self.connectionManager.getConnection packet.connectionId = none)
    (next : Nat) (packets : List Packet) :
    self.destinations next (packet :: packets)
      = next :: self.destinations (next + 1) packets := by
  simp only [destinations, missing]

/-- Two tables that know the same packets as the same send them to the same connections. -/
theorem destinations_congr {self other : Protocol} {packets : List Packet}
    (same : ∀ packet ∈ packets, self.connectionManager.getConnection packet.connectionId
      = other.connectionManager.getConnection packet.connectionId) (next : Nat) :
    self.destinations next packets = other.destinations next packets := by
  -- The next address is counted along, so it stays quantified over.
  induction packets generalizing next with
  | nil => rfl
  | cons packet packets ih =>
    rw [List.forall_mem_cons] at same
    cases found : other.connectionManager.getConnection packet.connectionId with
    | none =>
      rw [destinations_unknown found, destinations_unknown (same.1.trans found), ih same.2]
    | some connection =>
      rw [destinations_known found, destinations_known (same.1.trans found), ih same.2]

/-- New connections are gone to in turn, by one packet each. -/
theorem filter_destinations (self : Protocol) {next : Nat}
    (behind : self.connectionManager.heap.length ≤ next) (packets : List Packet) :
    (self.destinations next packets).filter (self.connectionManager.heap.length ≤ ·)
      = List.range' next (packets.countP self.isUnknown) := by
  induction packets generalizing next with
  | nil => rfl
  | cons packet packets ih =>
    cases found : self.connectionManager.getConnection packet.connectionId with
    | none =>
      rw [destinations_unknown found, List.countP_cons_of_pos (isUnknown_of_missing found),
        List.range'_succ, List.filter_cons_of_pos (by simpa using behind),
        ih (Nat.le_succ_of_le behind)]
    | some connection =>
      -- What the table finds is one of the connections that are there.
      have old : connection < self.connectionManager.heap.length :=
        ConnectionManager.lt_of_mem_connectionIdsAt (ConnectionManager.mem_of_getConnection found)
      rw [destinations_known found, List.countP_cons_of_neg (not_isUnknown_of_found found),
        List.filter_cons_of_neg (by simpa using old), ih behind]

/-- A packet goes to its connection, and the ones behind it where the table sends them then. -/
theorem destinations_cons (self : Protocol) (packet : Packet) (random : ConnectionId)
    (packets : List Packet) :
    self.destinations self.connectionManager.heap.length (packet :: packets)
      = (self.connectionFor packet.connectionId random).1 :: self.destinations
          (self.connectionFor packet.connectionId random).2.connectionManager.heap.length
          packets := by
  cases found : self.connectionManager.getConnection packet.connectionId with
  | none =>
    rw [destinations_unknown found, connectionFor_unknown found]
    simp only [createNewConnection, ConnectionManager.length_heap_addNewConnection,
      ConnectionManager.addNewConnection_fst]
  | some connection => rw [destinations_known found, connectionFor_known found]

/-- There is one more connection for a packet that the table does not know. -/
theorem length_heap_connectionFor (self : Protocol) (packet : Packet) (random : ConnectionId)
    (packets : List Packet) :
    (self.connectionFor packet.connectionId random).2.connectionManager.heap.length
        + packets.countP self.isUnknown
      = self.connectionManager.heap.length + (packet :: packets).countP self.isUnknown := by
  cases found : self.connectionManager.getConnection packet.connectionId with
  | none =>
    rw [connectionFor_unknown found, List.countP_cons_of_pos (isUnknown_of_missing found)]
    simp only [createNewConnection, ConnectionManager.length_heap_addNewConnection]
    omega
  | some connection =>
    rw [connectionFor_known found, List.countP_cons_of_neg (not_isUnknown_of_found found)]

/-- Only what is found under the id that is drawn may change. -/
theorem getConnection_connectionFor (self : Protocol) {id random other : ConnectionId}
    (differs : random ≠ other) :
    (self.connectionFor id random).2.connectionManager.getConnection other
      = self.connectionManager.getConnection other := by
  unfold connectionFor
  cases self.connectionManager.getConnection id with
  | some connection => rfl
  | none =>
    simp only [createNewConnection, ConnectionManager.getConnection_addNewConnection]
    exact Function.update_of_ne differs.symm _ _

end Protocol

/-- The protocol is what has been found with the connection. -/
@[simp] theorem Router.handle_protocol (router : Router) (found : Nat × Protocol)
    (bytes : List Byte) : (router.handle found bytes).protocol = found.2 := rfl

/-- Routing a packet that is long enough hands it to the connection for its id. -/
theorem Router.step_eq (router : Router) {delivery : Delivery}
    (long : connectionIdSize ≤ delivery.packet.buffer.length) :
    router.step delivery = .ok (router.handle
      (router.protocol.connectionFor delivery.packet.connectionId delivery.random)
      delivery.packet.buffer) := by
  have carries := Packet.carries_connectionId long
  simp only [Router.step, getConnectionForPacket_eq _ carries, ok_bind, pure_eq_ok]
  rfl

/-- The packets of a run. -/
def packetsOf (deliveries : List Delivery) : List Packet := deliveries.map Delivery.packet

/-- What has become of packets, in terms of the table before the first of them. -/
structure Router.Settles (router : Router) (deliveries : List Delivery) (final : Router)
    (more : List Handled) : Prop where
  handled : final.handled = router.handled ++ more
  bytes : more.map Handled.bytes = (packetsOf deliveries).map Packet.buffer
  destinations : more.map Handled.connection
    = router.protocol.destinations router.protocol.connectionManager.heap.length
        (packetsOf deliveries)
  grown : final.protocol.connectionManager.heap.length
    = router.protocol.connectionManager.heap.length
        + (packetsOf deliveries).countP router.protocol.isUnknown
  /-- Under an id that has not been drawn, the table finds what it has found before. -/
  unlearned : ∀ id, (∀ delivery ∈ deliveries, delivery.random ≠ id) →
    final.protocol.connectionManager.getConnection id
      = router.protocol.connectionManager.getConnection id

/-- A packet in front is handled first, and the others go where they would have gone before it. -/
theorem Router.Settles.cons {router final : Router} {delivery : Delivery} {rest : List Delivery}
    {more : List Handled}
    (differs : ∀ packet ∈ packetsOf rest, delivery.random ≠ packet.connectionId)
    (settles : (router.handle
      (router.protocol.connectionFor delivery.packet.connectionId delivery.random)
      delivery.packet.buffer).Settles rest final more) :
    router.Settles (delivery :: rest) final
      (⟨(router.protocol.connectionFor delivery.packet.connectionId delivery.random).1,
        delivery.packet.buffer⟩ :: more) := by
  have kept : ∀ id, delivery.random ≠ id →
      (router.protocol.connectionFor delivery.packet.connectionId
          delivery.random).2.connectionManager.getConnection id
        = router.protocol.connectionManager.getConnection id :=
    fun id => router.protocol.getConnection_connectionFor
  have others := fun packet member => kept _ (differs packet member)
  refine ⟨?_, ?_, ?_, ?_, ?_⟩
  · rw [settles.handled]
    exact List.append_assoc _ _ _
  · rw [List.map_cons, settles.bytes]
    rfl
  · rw [List.map_cons, settles.destinations, Router.handle_protocol,
      Protocol.destinations_congr others]
    exact (router.protocol.destinations_cons _ _ _).symm
  · -- The packets that are left are unknown to the one table when they are to the other.
    have unknown : (packetsOf rest).countP (router.handle
          (router.protocol.connectionFor delivery.packet.connectionId delivery.random)
          delivery.packet.buffer).protocol.isUnknown
        = (packetsOf rest).countP router.protocol.isUnknown := by
      refine List.countP_congr fun packet member => ?_
      simp only [Protocol.isUnknown, Router.handle_protocol, others packet member]
    rw [settles.grown, unknown]
    exact router.protocol.length_heap_connectionFor _ _ _
  · intro id drawn
    rw [List.forall_mem_cons] at drawn
    rw [settles.unlearned id drawn.2]
    exact kept id drawn.1

/-- What is drawn for one packet of a run is the id of none of them. -/
theorem DrawsFresh.ne_connectionId {deliveries : List Delivery} (long : LongEnough deliveries)
    (fresh : DrawsFresh deliveries) {delivery : Delivery} (member : delivery ∈ deliveries) :
    ∀ packet ∈ packetsOf deliveries, delivery.random ≠ packet.connectionId := by
  intro packet among same
  obtain ⟨other, member', rfl⟩ := List.mem_map.mp among
  exact fresh delivery member other member'
    (same ▸ Packet.carries_connectionId (long other member'))

/-- Each packet of a run is handled where the table before the run sends it. -/
theorem Router.run_appends (router : Router) {deliveries : List Delivery}
    (long : LongEnough deliveries) (fresh : DrawsFresh deliveries) :
    ∃ final more, Run.run Router.step router deliveries = .ok final ∧
      router.Settles deliveries final more := by
  -- The induction follows the run, so the state of the router stays quantified over.
  induction deliveries generalizing router with
  | nil => exact ⟨router, [], rfl, ⟨(List.append_nil _).symm, rfl, rfl, rfl, fun _ _ => rfl⟩⟩
  | cons delivery rest ih =>
    have longRest : LongEnough rest := fun other member => long other (.tail _ member)
    have freshRest : DrawsFresh rest := fun other member another member' =>
      fresh other (.tail _ member) another (.tail _ member')
    have stepped := router.step_eq (long delivery List.mem_cons_self)
    have differs : ∀ packet ∈ packetsOf rest, delivery.random ≠ packet.connectionId :=
      fun packet member =>
        fresh.ne_connectionId long List.mem_cons_self packet (List.mem_cons_of_mem _ member)
    obtain ⟨final, more, arrived, settles⟩ := ih _ longRest freshRest
    exact ⟨final, _, (Run.run_cons_ok _).mpr ⟨_, stepped, arrived⟩, settles.cons differs⟩

/--
Where packets go is decided by the table before the first of them.

The ids that are drawn are none that packets carry. So a packet that the table does not know gets
a connection of its own each time that it comes in, which handles nothing else.
-/
theorem Router.run_settles (router : Router) {deliveries : List Delivery}
    (long : LongEnough deliveries) (fresh : DrawsFresh deliveries) :
    ∃ final more, Run.run Router.step router deliveries = .ok final ∧
      router.Settles deliveries final more ∧
      (more.map Handled.connection).filter
          (router.protocol.connectionManager.heap.length ≤ ·)
        = List.range' router.protocol.connectionManager.heap.length
            ((packetsOf deliveries).countP router.protocol.isUnknown) := by
  obtain ⟨final, more, arrived, settles⟩ := router.run_appends long fresh
  refine ⟨final, more, arrived, settles, ?_⟩
  rw [settles.destinations]
  exact router.protocol.filter_destinations (Nat.le_refl _) _

/-- The packet that arrives twice is handled by two connections of a new server. -/
theorem Router.run_settles_retransmission :
    ∃ final, Run.run Router.step ⟨secureServer, []⟩ retransmission = .ok final ∧
      final.handled.map Handled.connection = [0, 1] := by
  have long : LongEnough retransmission := by
    unfold LongEnough
    simp only [retransmission, List.forall_mem_cons]
    decide
  have fresh : DrawsFresh retransmission := by
    unfold DrawsFresh Packet.Carries
    simp only [retransmission, List.forall_mem_cons]
    decide
  obtain ⟨final, more, arrived, settles, _⟩ := Router.run_settles ⟨secureServer, []⟩ long fresh
  refine ⟨final, arrived, ?_⟩
  rw [settles.handled, List.nil_append, settles.destinations]
  rfl

end StreamUP
