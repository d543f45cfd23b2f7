import Mathlib.Data.List.AList
import StreamUP.Foundation.Machine

/-! Connections and the manager that files them under their ids. -/

namespace StreamUP

open Machine

/-- `CONNECTION_ID_SIZE`, in bytes. -/
abbrev connectionIdSize : Nat := 12

/-- `std::array<uint8_t, CONNECTION_ID_SIZE>`. -/
abbrev ConnectionId : Type := Vector Byte connectionIdSize

/-- A connection, of which the manager looks at the ids only. -/
structure Connection where
  connectionIds : List ConnectionId
  deriving DecidableEq

namespace Connection

def addConnectionId (connection : Connection) (connectionId : ConnectionId) : Connection :=
  -- Only the list of the connection itself gets longer.
  { connection with connectionIds := connection.connectionIds ++ [connectionId] }

end Connection

/--
`ConnectionIdHandler::getNewConnectionId`: the array as `RAND_bytes` left it.

The return value of `RAND_bytes` is not looked at, so any content is handed out.
-/
def getNewConnectionId (random : ConnectionId) : ConnectionId := random

/-- What a map points at among the connections made exists and carries the id it is under. -/
def Filed (heap : List Connection) (connections : AList fun _ : ConnectionId => Nat) : Prop :=
  -- The map never points at a connection that does not know the id.
  ∀ id address, connections.lookup id = some address →
    ∃ connection, heap[address]? = some connection ∧ id ∈ connection.connectionIds

/-- Filing a new connection under its own id keeps the map in order, whatever it replaces. -/
theorem Filed.insert {heap : List Connection} {connections : AList fun _ : ConnectionId => Nat}
    (filed : Filed heap connections) {connection : Connection} {id : ConnectionId}
    (carries : id ∈ connection.connectionIds) :
    Filed (heap ++ [connection]) (connections.insert id heap.length) := by
  -- The new entry points at the new connection; the rest is as it was.
  intro other address found
  by_cases same : other = id
  · -- The new entry points at the new connection.
    subst same
    rw [AList.lookup_insert, Option.some.injEq] at found
    subst found
    exact ⟨connection, List.getElem?_concat_length, carries⟩
  · -- Every other entry points where it did, at a connection that is still there.
    rw [AList.lookup_insert_ne same] at found
    obtain ⟨kept, present, carried⟩ := filed other address found
    refine ⟨kept, ?_, carried⟩
    rw [List.getElem?_append_left (List.getElem?_eq_some_iff.mp present).1]
    exact present

/-- Giving a connection one more id keeps the map in order. -/
theorem Filed.addConnectionId {heap : List Connection}
    {connections : AList fun _ : ConnectionId => Nat} (filed : Filed heap connections)
    (address : Nat) (id : ConnectionId) :
    Filed (heap.modify address (·.addConnectionId id)) connections := by
  -- Ids are only added, so every connection keeps those it is filed under.
  intro other target found
  obtain ⟨kept, present, carried⟩ := filed other target found
  by_cases same : address = target
  · subst same
    refine ⟨kept.addConnectionId id, ?_, by simp [Connection.addConnectionId, carried]⟩
    rw [List.getElem?_modify_eq, present]
    rfl
  · exact ⟨kept, by rw [List.getElem?_modify_ne _ _ same]; exact present, carried⟩

/--
The manager: the connections it has made, and the map from ids to them.

A connection is never deleted, so its address is its position among those made so far.
-/
structure ConnectionManager where
  heap : List Connection
  connections : AList fun _ : ConnectionId => Nat
  filed : Filed heap connections

namespace ConnectionManager

/-- The default constructor. -/
def new : ConnectionManager where
  -- Nothing is filed, so nothing can point the wrong way.
  heap := []
  connections := ∅
  filed := by
    intro id address found
    rw [AList.lookup_empty] at found
    contradiction

/-- The ids of the connection at an address, none where nothing was made. -/
def connectionIdsAt (manager : ConnectionManager) (address : Nat) : List ConnectionId :=
  (manager.heap[address]?).elim [] Connection.connectionIds

/-- `getConnection`: the map's entry, provided the connection carries the id; null otherwise. -/
def getConnection (manager : ConnectionManager) (id : ConnectionId) : Option Nat :=
  -- The second search is over the ids of the connection itself.
  match manager.connections.lookup id with
  | none => none
  | some connection =>
    if id ∈ manager.connectionIdsAt connection then some connection else none

/-- `addNewConnection`: a new connection with a new id, assigned to the map at that id. -/
def addNewConnection (manager : ConnectionManager) (random : ConnectionId) :
    Nat × ConnectionManager :=
  -- The entry at the id is assigned, whether or not there was one.
  (manager.heap.length,
    { heap := manager.heap ++ [Connection.addConnectionId ⟨[]⟩ (getNewConnectionId random)]
      connections := manager.connections.insert (getNewConnectionId random) manager.heap.length
      filed := manager.filed.insert (by simp [Connection.addConnectionId]) })

/-- `connection->addConnectionId(id)` on a connection of this manager; the map is not touched. -/
def addConnectionId (manager : ConnectionManager) (address : Nat) (id : ConnectionId) :
    Except Fault ConnectionManager :=
  if address < manager.heap.length then
    .ok
      { heap := manager.heap.modify address (·.addConnectionId id)
        connections := manager.connections
        filed := manager.filed.addConnectionId address id }
  else .error (.danglingPointer address)

/-- An id is among those of a connection exactly when the connection exists and carries it. -/
theorem mem_connectionIdsAt {manager : ConnectionManager} {address : Nat} {id : ConnectionId} :
    id ∈ manager.connectionIdsAt address ↔
      ∃ connection, manager.heap[address]? = some connection ∧ id ∈ connection.connectionIds := by
  -- Where nothing was made there are no ids.
  unfold connectionIdsAt
  cases manager.heap[address]? <;> simp

/-- The second look at the connection's own ids never rejects what the map has found. -/
theorem getConnection_eq_lookup (manager : ConnectionManager) (id : ConnectionId) :
    manager.getConnection id = manager.connections.lookup id := by
  -- What the map points at carries the id it is filed under.
  unfold getConnection
  cases found : manager.connections.lookup id with
  | none => rfl
  | some connection =>
    have carried := mem_connectionIdsAt.mpr (manager.filed id connection found)
    simp only [if_pos carried]

/-- A connection found under an id carries that id. -/
theorem mem_of_getConnection {manager : ConnectionManager} {id : ConnectionId} {address : Nat}
    (found : manager.getConnection id = some address) : id ∈ manager.connectionIdsAt address := by
  -- The map only points at connections that carry the id.
  rw [getConnection_eq_lookup] at found
  exact mem_connectionIdsAt.mpr (manager.filed id address found)

/-- Only addresses below the number of connections made carry ids. -/
theorem lt_of_mem_connectionIdsAt {manager : ConnectionManager} {address : Nat}
    {id : ConnectionId} (carried : id ∈ manager.connectionIdsAt address) :
    address < manager.heap.length := by
  -- A connection that carries something has been made.
  obtain ⟨connection, present, _⟩ := mem_connectionIdsAt.mp carried
  exact (List.getElem?_eq_some_iff.mp present).1

@[simp] theorem addNewConnection_fst (manager : ConnectionManager) (random : ConnectionId) :
    (manager.addNewConnection random).1 = manager.heap.length := rfl

@[simp] theorem length_heap_addNewConnection (manager : ConnectionManager)
    (random : ConnectionId) :
    (manager.addNewConnection random).2.heap.length = manager.heap.length + 1 := by
  simp [addNewConnection]

/-- Creating a connection updates the table of routes at the new id and nowhere else. -/
theorem getConnection_addNewConnection (manager : ConnectionManager) (random : ConnectionId) :
    (manager.addNewConnection random).2.getConnection
      = Function.update manager.getConnection random (some manager.heap.length) := by
  -- The lookup of the map is the whole of the search.
  funext id
  rw [getConnection_eq_lookup]
  by_cases same : id = random
  · subst same
    rw [Function.update_self]
    exact AList.lookup_insert _
  · rw [Function.update_of_ne same, getConnection_eq_lookup]
    exact AList.lookup_insert_ne same

/-- The new connection carries the new id alone, and every other one keeps its ids. -/
theorem connectionIdsAt_addNewConnection (manager : ConnectionManager) (random : ConnectionId) :
    (manager.addNewConnection random).2.connectionIdsAt
      = Function.update manager.connectionIdsAt manager.heap.length [random] := by
  -- The new connection is the last one made.
  funext address
  simp only [connectionIdsAt, addNewConnection]
  rcases Nat.lt_trichotomy address manager.heap.length with old | new | beyond
  · rw [Function.update_of_ne (by omega), List.getElem?_append_left old]
    rfl
  · subst new
    rw [Function.update_self, List.getElem?_concat_length]
    rfl
  · -- Past the new connection there was nothing and there still is nothing.
    have absent : (manager.heap ++ [Connection.addConnectionId ⟨[]⟩
        (getNewConnectionId random)])[address]? = none :=
      List.getElem?_eq_none (by simp; omega)
    have before : manager.heap[address]? = none := List.getElem?_eq_none (by omega)
    rw [Function.update_of_ne (by omega), absent, connectionIdsAt, before]

end ConnectionManager

end StreamUP
