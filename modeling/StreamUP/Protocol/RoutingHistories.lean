import Mathlib.Data.List.Induction
import StreamUP.Protocol.Routing

/-! What runs of the routing operations keep: who is reached under an id, and for how long. -/

namespace StreamUP

open Fallible Machine

namespace ProtocolCall

/-- What `RAND_bytes` would leave for the call. -/
def random : ProtocolCall → ConnectionId
  -- A call that finds its connection draws nothing, whatever is given here.
  | .createNewConnection random => random
  | .getConnectionForPacket _ random => random

/-- The call finds a connection in the table that belongs to its packet. -/
def Finds (self : Protocol) (address : Nat) : ProtocolCall → Prop
  -- Only packets are looked up.
  | .createNewConnection _ => False
  | .getConnectionForPacket packet _ =>
    ∃ id, packet.Carries id ∧ self.connectionManager.getConnection id = some address

/-- The call makes a new connection. -/
def Creates (self : Protocol) : ProtocolCall → Prop
  -- A packet creates a connection where the table has none for it.
  | .createNewConnection _ => True
  | .getConnectionForPacket packet _ =>
    ∃ id, packet.Carries id ∧ self.connectionManager.getConnection id = none

end ProtocolCall

/-- A call that returns either finds a connection and changes nothing, or creates one. -/
theorem perform_cases {self next : Protocol} {call : ProtocolCall} {address : Nat}
    (performed : self.perform call = .ok (address, next)) :
    call.Finds self address ∧ next = self ∨
      call.Creates self ∧ (address, next) = self.createNewConnection call.random := by
  cases call with
  | createNewConnection random =>
    -- A local creation always creates.
    exact .inr ⟨trivial, (Except.ok.inj performed).symm⟩
  | getConnectionForPacket packet random =>
    have long : connectionIdSize ≤ packet.buffer.length :=
      (getConnectionForPacket_ok_iff self packet random).mp ⟨_, performed⟩
    obtain ⟨id, carries⟩ := Packet.exists_carries long
    -- A packet creates exactly when its id is not in the table.
    simp only [Protocol.perform, getConnectionForPacket_eq self carries random,
      Except.ok.injEq] at performed
    cases found : self.connectionManager.getConnection id with
    | some connection =>
      simp only [found, Prod.mk.injEq] at performed
      rcases performed with ⟨rfl, rfl⟩
      exact .inl ⟨⟨id, carries, found⟩, rfl⟩
    | none =>
      simp only [found] at performed
      exact .inr ⟨⟨id, carries, found⟩, performed.symm⟩

/-- A call that creates a connection does what a local creation does. -/
theorem perform_of_creates {self : Protocol} {call : ProtocolCall} (creates : call.Creates self) :
    self.perform call = .ok (self.createNewConnection call.random) := by
  -- A packet that is not found takes the same path as a local creation.
  cases call with
  | createNewConnection random => rfl
  | getConnectionForPacket packet random =>
    rcases creates with ⟨id, carries, found⟩
    simp only [Protocol.perform, getConnectionForPacket_eq self carries random, found,
      ProtocolCall.random]

/-- A step is the protocol a call leaves behind. -/
theorem step_ok {self next : Protocol} {call : ProtocolCall} :
    self.step call = .ok next ↔ ∃ address, self.perform call = .ok (address, next) := by
  -- The address is dropped from the result.
  simp [Protocol.step, bind_eq_ok, Prod.exists]

/-- Connections are only ever added, and those that are there keep their ids. -/
structure Grown (before after : Protocol) : Prop where
  length_le : before.connectionManager.heap.length ≤ after.connectionManager.heap.length
  kept : ∀ address, address < before.connectionManager.heap.length →
    after.connectionManager.connectionIdsAt address
      = before.connectionManager.connectionIdsAt address

/-- Creating a connection adds it behind the others. -/
theorem grown_createNewConnection (self : Protocol) (random : ConnectionId) :
    Grown self (self.createNewConnection random).2 where
  length_le := by simp [Protocol.createNewConnection]
  kept := by
    intro address old
    -- The new connection has an address of its own.
    simp only [Protocol.createNewConnection, ConnectionManager.connectionIdsAt_addNewConnection]
    exact Function.update_of_ne (Nat.ne_of_lt old) _ _

/-- Growing once and then again is growing. -/
theorem Grown.trans {first second third : Protocol} (before : Grown first second)
    (after : Grown second third) : Grown first third where
  -- What is there first is there second, and keeps its ids in both steps.
  length_le := before.length_le.trans after.length_le
  kept := by
    intro address old
    rw [after.kept address (Nat.lt_of_lt_of_le old before.length_le), before.kept address old]

/-- No call of a run removes a connection or touches the ids of one. -/
theorem run_grown {self final : Protocol} {calls : List ProtocolCall}
    (arrived : Run.run Protocol.step self calls = .ok final) : Grown self final := by
  -- Growth is reflexive and transitive, so one step decides.
  refine Run.run_related Protocol.step (fun _ => ⟨Nat.le_refl _, fun _ _ => rfl⟩)
    (fun _ _ _ before after => before.trans after) ?_ arrived
  intro state call next stepped
  obtain ⟨address, performed⟩ := step_ok.mp stepped
  rcases perform_cases performed with ⟨_, rfl⟩ | ⟨_, created⟩
  · -- A connection that is found leaves the table as it is.
    exact ⟨Nat.le_refl _, fun _ _ => rfl⟩
  · have grown := grown_createNewConnection state call.random
    rw [← created] at grown
    exact grown

/-- Every connection a run has made was handed out by the call that made it. -/
theorem created_earlier {self final : Protocol} {calls : List ProtocolCall}
    (fresh : self.connectionManager = .new)
    (arrived : Run.run Protocol.step self calls = .ok final) {address : Nat}
    (made : address < final.connectionManager.heap.length) :
    ∃ front creation back earlier returned, calls = front ++ creation :: back ∧
      Run.run Protocol.step self front = .ok earlier ∧
      earlier.perform creation = .ok (address, returned) ∧
      Run.run Protocol.step returned back = .ok final ∧
      returned.connectionManager.connectionIdsAt address = [creation.random] := by
  -- Either the last call made the connection, or it was there before that call.
  induction calls using List.reverseRecOn generalizing final with
  | nil =>
    simp only [Run.run_nil, Except.ok.injEq] at arrived
    subst arrived
    rw [fresh] at made
    contradiction
  | append_singleton calls last ih =>
    obtain ⟨middle, before, stepped⟩ := (Run.run_snoc_ok Protocol.step).mp arrived
    by_cases old : address < middle.connectionManager.heap.length
    · obtain ⟨front, creation, back, earlier, returned, split, first, created, rest, ids⟩ :=
        ih before old
      refine ⟨front, creation, back ++ [last], earlier, returned, ?_, first, created, ?_, ids⟩
      · rw [split, List.append_assoc, List.cons_append]
      · exact (Run.run_snoc_ok Protocol.step).mpr ⟨middle, rest, stepped⟩
    · obtain ⟨handed, performed⟩ := step_ok.mp stepped
      rcases perform_cases performed with ⟨_, rfl⟩ | ⟨_, created⟩
      · exact absurd made old
      · -- The new connection's address is the number of those made before.
        simp only [Protocol.createNewConnection, Prod.mk.injEq] at created
        rcases created with ⟨rfl, rfl⟩
        simp only [ConnectionManager.length_heap_addNewConnection] at made
        have newest : address = middle.connectionManager.heap.length := by omega
        subst newest
        refine ⟨calls, last, [], middle, _, rfl, before, performed, rfl, ?_⟩
        rw [ConnectionManager.connectionIdsAt_addNewConnection]
        exact Function.update_self _ _ _

/-- The call does not create a connection under an id that is in the table already. -/
def DrawsUnused (self : Protocol) (call : ProtocolCall) : Prop :=
  -- What a call that finds its connection would have drawn does not matter.
  call.Creates self → self.connectionManager.getConnection call.random = none

/-- A connection is found under each of its ids, and nothing else is. -/
def Exclusive (self : Protocol) : Prop :=
  -- Both directions: whoever carries an id is found there, and only they are.
  ∀ id address, id ∈ self.connectionManager.connectionIdsAt address ↔
    self.connectionManager.getConnection id = some address

/-- A new table holds nothing and finds nothing. -/
theorem exclusive_new {self : Protocol} (fresh : self.connectionManager = .new) :
    Exclusive self := by
  -- There are no ids and no entries.
  intro id address
  rw [fresh]
  simp [ConnectionManager.new, ConnectionManager.connectionIdsAt, ConnectionManager.getConnection]

/-- A connection created under an unused id is found there, and no other is displaced. -/
theorem exclusive_createNewConnection {self : Protocol} (before : Exclusive self)
    {random : ConnectionId} (unused : self.connectionManager.getConnection random = none) :
    Exclusive (self.createNewConnection random).2 := by
  -- Nobody carries an id that finds nothing, so nobody is displaced.
  intro id address
  simp only [Protocol.createNewConnection, ConnectionManager.connectionIdsAt_addNewConnection,
    ConnectionManager.getConnection_addNewConnection]
  have nobody : ∀ other, random ∉ self.connectionManager.connectionIdsAt other := by
    intro other carried
    rw [before random other, unused] at carried
    contradiction
  by_cases new : address = self.connectionManager.heap.length
  · -- The new connection carries the new id alone.
    subst new
    rw [Function.update_self, List.mem_singleton]
    by_cases same : id = random
    · subst same
      simp
    · rw [Function.update_of_ne same, ← before id]
      have absent : id ∉ self.connectionManager.connectionIdsAt
          self.connectionManager.heap.length := by
        intro carried
        exact absurd (ConnectionManager.lt_of_mem_connectionIdsAt carried) (Nat.lt_irrefl _)
      simp [same, absent]
  · -- The others carry what they did, and none of them carries the new id.
    rw [Function.update_of_ne new]
    by_cases same : id = random
    · subst same
      rw [Function.update_self]
      simp only [nobody address, Option.some.injEq, false_iff]
      exact fun contrary => new contrary.symm
    · rw [Function.update_of_ne same]
      exact before id address

/-- While all creations draw unused ids, every connection is found under each of its ids. -/
theorem run_exclusive {self final : Protocol} {calls : List ProtocolCall}
    (entry : Exclusive self) (unused : Run.EveryStep Protocol.step DrawsUnused self calls)
    (arrived : Run.run Protocol.step self calls = .ok final) : Exclusive final := by
  -- Finding a connection changes nothing, and creating one is the lemma above.
  refine Run.run_invariant Protocol.step Exclusive ?_ entry unused arrived
  intro state call next exclusive draws stepped
  obtain ⟨address, performed⟩ := step_ok.mp stepped
  rcases perform_cases performed with ⟨_, rfl⟩ | ⟨creates, created⟩
  · exact exclusive
  · have kept := exclusive_createNewConnection exclusive (draws creates)
    rw [← created] at kept
    exact kept

/-- Every packet with an id is routed to a connection, and no other connection has that id. -/
structure Protocol.Keeps (protocol : Protocol) (id : ConnectionId) (address : Nat) : Prop where
  routed : ∀ packet random, packet.Carries id →
    ∃ next, protocol.getConnectionForPacket packet random = .ok (address, next)
  alone : ∀ other, id ∈ protocol.connectionManager.connectionIdsAt other → other = address

/--
Routing is permanent along a run.

Once a call has handed out a connection, the table keeps it under its first id for good.
-/
def Permanent (self : Protocol) (calls : List ProtocolCall) : Prop :=
  -- The run is split at any call, and at any later moment.
  ∀ before call between after, calls = before ++ call :: (between ++ after) →
    ∀ earlier address returned later,
      Run.run Protocol.step self before = .ok earlier →
      earlier.perform call = .ok (address, returned) →
      Run.run Protocol.step returned between = .ok later →
      ∀ id, (returned.connectionManager.connectionIdsAt address).head? = some id →
        later.Keeps id address

/-- Drawing unused ids is enough for routing to be permanent. -/
theorem permanent_of_drawsUnused {self : Protocol} (entry : Exclusive self)
    {calls : List ProtocolCall} (unused : Run.EveryStep Protocol.step DrawsUnused self calls) :
    Permanent self calls := by
  intro before call between after split earlier address returned later first performed rest id own
  -- The table is in order at the later moment, and the connection still has its id.
  have arrived : Run.run Protocol.step self (before ++ call :: between) = .ok later := by
    refine (Run.run_append_ok Protocol.step).mpr ⟨earlier, first, ?_⟩
    exact (Run.run_cons_ok Protocol.step).mpr ⟨returned, step_ok.mpr ⟨address, performed⟩, rest⟩
  have sofar : Run.EveryStep Protocol.step DrawsUnused self (before ++ call :: between) := by
    have whole : calls = (before ++ call :: between) ++ after := by simp [split]
    rw [whole] at unused
    exact ((Run.everyStep_append Protocol.step).mp unused).1
  have exclusive := run_exclusive entry sofar arrived
  have carried : id ∈ returned.connectionManager.connectionIdsAt address := List.mem_of_head? own
  have carried' : id ∈ later.connectionManager.connectionIdsAt address := by
    rw [(run_grown rest).kept address (ConnectionManager.lt_of_mem_connectionIdsAt carried)]
    exact carried
  have found := (exclusive id address).mp carried'
  constructor
  · intro packet random carries
    rw [getConnectionForPacket_eq later carries random, found]
    exact ⟨later, rfl⟩
  · intro other carried
    have also := (exclusive id other).mp carried
    rw [found, Option.some.injEq] at also
    exact also.symm

/-- A packet of an id and nothing behind it. -/
def Packet.ofId (id : ConnectionId) : Packet where
  buffer := id.toList
  addressable := by
    rw [Vector.length_toList]
    decide

/-- It carries this id. -/
theorem Packet.carries_ofId (id : ConnectionId) : (Packet.ofId id).Carries id :=
  -- The whole packet is the id.
  List.take_of_length_le (Nat.le_of_eq (Vector.length_toList ..))

/-- Permanent routing forbids creations that draw an id in use. -/
theorem drawsUnused_of_permanent {self : Protocol} (fresh : self.connectionManager = .new)
    {calls : List ProtocolCall} (permanent : Permanent self calls) :
    Run.EveryStep Protocol.step DrawsUnused self calls := by
  refine (Run.everyStep_iff Protocol.step).mpr ?_
  intro before call after middle split arrived creates
  by_contra used
  -- The connection found under the drawn id was handed out by an earlier call, with that id.
  obtain ⟨address, found⟩ := Option.ne_none_iff_exists'.mp used
  have carried := ConnectionManager.mem_of_getConnection found
  have old := ConnectionManager.lt_of_mem_connectionIdsAt carried
  obtain ⟨front, creation, back, earlier, returned, parts, first, created, rest, ids⟩ :=
    created_earlier fresh arrived old
  have own : creation.random ∈ returned.connectionManager.connectionIdsAt address := by
    rw [ids]
    exact List.mem_singleton.mpr rfl
  have there := ConnectionManager.lt_of_mem_connectionIdsAt own
  rw [(run_grown rest).kept address there, ids, List.mem_singleton] at carried
  -- The creation routes that id to the new connection instead.
  have performed := perform_of_creates creates
  have later : Run.run Protocol.step returned (back ++ [call])
      = .ok (middle.createNewConnection call.random).2 :=
    (Run.run_snoc_ok Protocol.step).mpr ⟨middle, rest, step_ok.mpr ⟨_, performed⟩⟩
  have keeps := permanent front creation (back ++ [call]) after (by simp [split, parts]) earlier
    address returned _ first created later call.random (by rw [ids, ← carried]; rfl)
  have carries := Packet.carries_ofId call.random
  obtain ⟨next, routed⟩ := keeps.routed (.ofId call.random) call.random carries
  rw [getConnectionForPacket_eq _ carries] at routed
  simp only [Protocol.createNewConnection, ConnectionManager.getConnection_addNewConnection,
    Function.update_self, Except.ok.injEq, Prod.mk.injEq] at routed
  omega

/-- Starting with a new table, routing is permanent exactly when creations draw unused ids. -/
theorem permanent_iff {self : Protocol} (fresh : self.connectionManager = .new)
    (calls : List ProtocolCall) :
    Permanent self calls ↔ Run.EveryStep Protocol.step DrawsUnused self calls := by
  -- The first use of an id that is taken displaces its connection; without one, nobody is.
  constructor
  · exact drawsUnused_of_permanent fresh
  · exact permanent_of_drawsUnused (exclusive_new fresh)

/-- The array as it is when `RAND_bytes` has left zeros in it. -/
def zeroId : ConnectionId := Vector.replicate connectionIdSize 0

/-- An id whose bytes are all the same. -/
def uniformId (byte : Byte) : ConnectionId := Vector.replicate connectionIdSize byte

/-- Two creations, a packet for the first, one that nobody knows, and one for the second. -/
def creationsAndPackets : List ProtocolCall :=
  [.createNewConnection zeroId, .createNewConnection (uniformId 1),
    .getConnectionForPacket (.ofId zeroId) (uniformId 2),
    .getConnectionForPacket (.ofId (uniformId 7)) (uniformId 3),
    .getConnectionForPacket (.ofId (uniformId 1)) (uniformId 4)]

/-- Three connections are created, each under an id of its own, and they keep their ids. -/
theorem permanent_creationsAndPackets : Permanent secureServer creationsAndPackets := by
  refine (permanent_iff rfl creationsAndPackets).mpr ?_
  -- One call after the other draws an id that the table does not have.
  refine (Run.everyStep_cons_of_ok _ rfl).mpr ⟨fun _ => rfl, ?_⟩
  refine (Run.everyStep_cons_of_ok _ rfl).mpr ⟨fun _ => rfl, ?_⟩
  refine (Run.everyStep_cons_of_ok _ rfl).mpr ⟨fun _ => rfl, ?_⟩
  refine (Run.everyStep_cons_of_ok _ rfl).mpr ⟨fun _ => rfl, ?_⟩
  exact (Run.everyStep_singleton _).mpr fun _ => rfl

/-- When two creations draw the same id, the first connection is displaced by the second. -/
theorem sameDraw_not_permanent :
    ¬ Permanent secureServer [.createNewConnection zeroId, .createNewConnection zeroId] := by
  -- Both connections carry the id, and the map has room for one.
  intro permanent
  have keeps := permanent [] (.createNewConnection zeroId) [.createNewConnection zeroId] [] rfl
    secureServer 0 _ _ rfl rfl rfl zeroId rfl
  have shared := keeps.alone 1 (List.mem_singleton.mpr rfl)
  contradiction

end StreamUP
