import StreamUP.Protocol.RoutingHistories

/-! What a sequence of packets is routed to, and when retransmissions reach the same connection. -/

namespace StreamUP

open Machine

/-- A packet that arrives, with what `RAND_bytes` would leave for it. -/
structure Delivery where
  packet : Packet
  random : ConnectionId

/-- The call a delivery is. -/
def Delivery.call (delivery : Delivery) : ProtocolCall :=
  .getConnectionForPacket delivery.packet delivery.random

/-- The protocol after a packet has been routed. -/
def Protocol.deliver (self : Protocol) (delivery : Delivery) : Except Fault Protocol :=
  self.step delivery.call

/-- The table finds a connection under the packet's id. -/
def Packet.Routed (packet : Packet) (self : Protocol) : Prop :=
  ∃ id address, packet.Carries id ∧ self.connectionManager.getConnection id = some address

/-- The packet arrives at least twice. -/
def Repeated (packet : Packet) (deliveries : List Delivery) : Prop :=
  -- Anything may arrive before, between and after the two.
  ∃ before first between second after,
    deliveries = before ++ ⟨packet, first⟩ :: (between ++ ⟨packet, second⟩ :: after)

/--
Routing is stable for a packet along a run.

All its occurrences go to one connection, and only the first of them may change the table.
-/
def Stable (self : Protocol) (packet : Packet) (deliveries : List Delivery) : Prop :=
  -- The run is split at any two occurrences of the packet.
  ∀ before first between second after,
    deliveries = before ++ ⟨packet, first⟩ :: (between ++ ⟨packet, second⟩ :: after) →
    ∀ earlier address routed later again final,
      Run.run Protocol.deliver self before = .ok earlier →
      earlier.getConnectionForPacket packet first = .ok (address, routed) →
      Run.run Protocol.deliver routed between = .ok later →
      later.getConnectionForPacket packet second = .ok (again, final) →
      again = address ∧ final.connectionManager = later.connectionManager

/-- No draw of the run gives an id that one of its packets carries. -/
def DrawsFresh (deliveries : List Delivery) : Prop :=
  ∀ delivery ∈ deliveries, ∀ other ∈ deliveries, ¬ other.packet.Carries delivery.random

/-- Every packet of the run is long enough for an id. -/
def LongEnough (deliveries : List Delivery) : Prop :=
  ∀ delivery ∈ deliveries, connectionIdSize ≤ delivery.packet.buffer.length

/-- A delivery changes what the table finds under the id it draws, and under no other id. -/
theorem deliver_getConnection {self next : Protocol} {delivery : Delivery} {id : ConnectionId}
    (other : delivery.random ≠ id) (delivered : self.deliver delivery = .ok next) :
    next.connectionManager.getConnection id = self.connectionManager.getConnection id := by
  -- Only a creation touches the table, at the id that was drawn for it.
  obtain ⟨address, performed⟩ := step_ok.mp delivered
  rcases perform_cases performed with ⟨_, rfl⟩ | ⟨_, created⟩
  · rfl
  · -- A new connection is filed under the id drawn for it.
    simp only [Protocol.createNewConnection, Prod.mk.injEq] at created
    rw [created.2, ConnectionManager.getConnection_addNewConnection]
    exact Function.update_of_ne other.symm _ _

/-- What the table finds under an id stays the same while other ids are drawn. -/
theorem run_getConnection {self final : Protocol} {deliveries : List Delivery}
    {id : ConnectionId} (others : ∀ delivery ∈ deliveries, delivery.random ≠ id)
    (arrived : Run.run Protocol.deliver self deliveries = .ok final) :
    final.connectionManager.getConnection id = self.connectionManager.getConnection id := by
  -- The induction follows the run, so the starting table stays quantified over.
  induction deliveries generalizing self with
  | nil =>
    simp only [Run.run_nil, Except.ok.injEq] at arrived
    rw [arrived]
  | cons delivery rest ih =>
    obtain ⟨next, delivered, arrived⟩ := (Run.run_cons_ok Protocol.deliver).mp arrived
    rw [ih (fun other member => others other (List.mem_cons_of_mem _ member)) arrived]
    exact deliver_getConnection (others delivery List.mem_cons_self) delivered

/-- Packets long enough for an id never stop the run. -/
theorem run_deliver_ok (self : Protocol) {deliveries : List Delivery}
    (long : LongEnough deliveries) :
    ∃ final, Run.run Protocol.deliver self deliveries = .ok final := by
  induction deliveries generalizing self with
  | nil => exact ⟨self, rfl⟩
  | cons delivery rest ih =>
    -- The first packet is routed, and the rest goes on from there.
    obtain ⟨next, delivered⟩ :=
      (step_ok_iff self delivery.call).mpr (long delivery List.mem_cons_self)
    obtain ⟨final, arrived⟩ :=
      ih next fun other member => long other (List.mem_cons_of_mem _ member)
    exact ⟨final, (Run.run_cons_ok Protocol.deliver).mpr ⟨next, delivered, arrived⟩⟩

/-- A run of deliveries is a run of the calls they are. -/
theorem run_deliver_eq (self : Protocol) (deliveries : List Delivery) :
    Run.run Protocol.deliver self deliveries
      = Run.run Protocol.step self (deliveries.map Delivery.call) := by
  induction deliveries generalizing self with
  | nil => rfl
  | cons delivery rest ih =>
    -- Both runs take the same first step.
    simp only [List.map_cons, Run.run, ← ih]
    rfl

/-- Ids that are drawn are not the id a packet of the run carries. -/
theorem DrawsFresh.ne {deliveries : List Delivery} (fresh : DrawsFresh deliveries)
    {packet : Packet} {random : ConnectionId} (arrives : ⟨packet, random⟩ ∈ deliveries)
    {id : ConnectionId} (carries : packet.Carries id) :
    ∀ delivery ∈ deliveries, delivery.random ≠ id := by
  -- The packet itself is one of the packets of the run.
  intro delivery member same
  exact fresh delivery member ⟨packet, random⟩ arrives (same ▸ carries)

/-- A packet whose id is in the table from the start always reaches the connection there. -/
theorem stable_of_routed {self : Protocol} {packet : Packet} {deliveries : List Delivery}
    (fresh : DrawsFresh deliveries) (routed : packet.Routed self) :
    Stable self packet deliveries := by
  intro before first between second after split earlier c reached later d final start got rest got'
  obtain ⟨id, connection, carries, found⟩ := routed
  subst split
  have others := fresh.ne (List.mem_append_right before List.mem_cons_self) carries
  -- Nothing drawn so far is the packet's id, so the first occurrence finds the connection.
  have found' : earlier.connectionManager.getConnection id = some connection := by
    rw [run_getConnection (fun delivery member => others delivery (by simp [member])) start, found]
  rw [getConnectionForPacket_eq earlier carries, found'] at got
  simp only [Except.ok.injEq, Prod.mk.injEq] at got
  rcases got with ⟨rfl, rfl⟩
  -- The same holds up to the second occurrence.
  have found'' : later.connectionManager.getConnection id = some connection := by
    rw [run_getConnection (fun delivery member => others delivery (by simp [member])) rest, found']
  rw [getConnectionForPacket_eq later carries, found''] at got'
  simp only [Except.ok.injEq, Prod.mk.injEq] at got'
  exact ⟨got'.1.symm, by rw [got'.2]⟩

/-- A packet whose id is not in the table gets a new connection each time it arrives. -/
theorem routed_of_stable {self : Protocol} {packet : Packet} {deliveries : List Delivery}
    (long : LongEnough deliveries) (fresh : DrawsFresh deliveries)
    (stable : Stable self packet deliveries) (repeated : Repeated packet deliveries) :
    packet.Routed self := by
  obtain ⟨before, first, between, second, after, split⟩ := repeated
  have arrives : ⟨packet, first⟩ ∈ deliveries := by simp [split]
  obtain ⟨id, carries⟩ := Packet.exists_carries (long _ arrives)
  have others := fresh.ne arrives carries
  by_contra unrouted
  have absent : self.connectionManager.getConnection id = none := by
    cases found : self.connectionManager.getConnection id with
    | none => rfl
    | some address => exact absurd ⟨id, address, carries, found⟩ unrouted
  -- The run reaches both occurrences, as all its packets are long enough.
  have longBefore : LongEnough before :=
    fun delivery member => long delivery (by simp [split, member])
  have longBetween : LongEnough between :=
    fun delivery member => long delivery (by simp [split, member])
  obtain ⟨earlier, start⟩ := run_deliver_ok self longBefore
  obtain ⟨later, rest⟩ := run_deliver_ok (earlier.createNewConnection first).2 longBetween
  have absent' : earlier.connectionManager.getConnection id = none := by
    rw [run_getConnection (fun delivery member => others delivery (by simp [split, member])) start,
      absent]
  have absent'' : later.connectionManager.getConnection id = none := by
    rw [run_getConnection (fun delivery member => others delivery (by simp [split, member])) rest]
    simp only [Protocol.createNewConnection, ConnectionManager.getConnection_addNewConnection]
    rw [Function.update_of_ne (others ⟨packet, first⟩ arrives).symm, absent']
  -- Both occurrences create, and the second connection lies behind the first.
  have handed : earlier.getConnectionForPacket packet first
      = .ok (earlier.createNewConnection first) := by
    rw [getConnectionForPacket_eq earlier carries, absent']
  have handed' : later.getConnectionForPacket packet second
      = .ok (later.createNewConnection second) := by
    rw [getConnectionForPacket_eq later carries, absent'']
  have same := (stable before first between second after split earlier _ _ later _ _ start handed
    rest handed').1
  rw [run_deliver_eq] at rest
  have grown := (run_grown rest).length_le
  simp only [Protocol.createNewConnection, ConnectionManager.length_heap_addNewConnection,
    ConnectionManager.addNewConnection_fst] at same grown
  omega

/-- Routing is stable exactly for packets whose id is in the table, or that arrive only once. -/
theorem stable_iff {self : Protocol} {packet : Packet} {deliveries : List Delivery}
    (long : LongEnough deliveries) (fresh : DrawsFresh deliveries) :
    Stable self packet deliveries ↔ packet.Routed self ∨ ¬ Repeated packet deliveries := by
  -- Found from the start, a packet is found for ever; otherwise it never is.
  constructor
  · intro stable
    by_cases repeated : Repeated packet deliveries
    · exact .inl (routed_of_stable long fresh stable repeated)
    · exact .inr repeated
  · intro either
    rcases either with routed | single
    · exact stable_of_routed fresh routed
    · -- Without two occurrences there is nothing to compare.
      intro before first between second after split
      exact absurd ⟨before, first, between, second, after, split⟩ single

/-- A packet of an id only. -/
def idPacket : Packet where
  -- Twelve bytes, as many as an id has.
  buffer := List.replicate 12 7
  addressable := by decide

/-- The packet arrives twice, and two other ids are drawn for it. -/
def retransmission : List Delivery :=
  [⟨idPacket, Vector.replicate connectionIdSize 1⟩, ⟨idPacket, Vector.replicate connectionIdSize 2⟩]

/-- A server that has a connection with the id of the packet. -/
def acquaintedServer : Protocol := (secureServer.createNewConnection (uniformId 7)).2

/-- The packet arrives twice, with a packet in between that creates a connection. -/
def acrossCreation : List Delivery :=
  [⟨idPacket, uniformId 1⟩, ⟨.ofId (uniformId 9), uniformId 2⟩, ⟨idPacket, uniformId 3⟩]

/-- Where its id is in the table from the start, the packet is routed stably. -/
theorem stable_acrossCreation : Stable acquaintedServer idPacket acrossCreation := by
  have long : LongEnough acrossCreation := by
    unfold LongEnough
    simp only [acrossCreation, List.forall_mem_cons]
    decide
  have fresh : DrawsFresh acrossCreation := by
    unfold DrawsFresh Packet.Carries
    simp only [acrossCreation, List.forall_mem_cons]
    decide
  -- The connection was created under the id that the packet carries.
  have routed : idPacket.Routed acquaintedServer := ⟨uniformId 7, 0, rfl, by decide⟩
  exact (stable_iff long fresh).mpr (.inl routed)

/-- A packet that arrives at a new server a second time gets a second connection. -/
theorem retransmission_not_stable :
    DrawsFresh retransmission ∧ ¬ Stable secureServer idPacket retransmission := by
  -- Neither draw is the id of the packet, and the two connections differ.
  constructor
  · unfold DrawsFresh Packet.Carries
    simp only [retransmission, List.forall_mem_cons]
    decide
  · intro stable
    have same := (stable [] _ [] _ [] rfl secureServer 0 _ _ 1 _ rfl rfl rfl rfl).1
    contradiction

end StreamUP
