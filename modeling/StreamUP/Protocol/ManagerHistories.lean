import Mathlib.Data.List.Induction
import StreamUP.Foundation.Run
import StreamUP.Protocol.Connection

/-! What runs of the manager and of its connections keep: whether every id reaches its holder. -/

namespace StreamUP

open Machine

/-- A call that gives an id to a connection: to a new one, or to one that the manager returned. -/
inductive ManagerCall where
  /-- `addNewConnection`, for which `RAND_bytes` leaves the id. -/
  | addNewConnection (random : ConnectionId)
  /-- `connection->addConnectionId(id)`. -/
  | addConnectionId (connection : Nat) (id : ConnectionId)
  deriving DecidableEq

namespace ManagerCall

/-- The id the call gives away. -/
def id : ManagerCall → ConnectionId
  -- Both calls give away exactly one id.
  | .addNewConnection random => random
  | .addConnectionId _ id => id

/-- The call gives its id to a connection that exists already. -/
def Extends : ManagerCall → Prop
  -- A connection that has just been created has its one id from the creation.
  | .addNewConnection _ => False
  | .addConnectionId _ _ => True

end ManagerCall

namespace ConnectionManager

/-- The manager after a call; giving an id to what the manager never returned is a fault. -/
def call (manager : ConnectionManager) : ManagerCall → Except Fault ConnectionManager
  -- The first call goes through the manager, the second one past it.
  | .addNewConnection random => .ok (manager.addNewConnection random).2
  | .addConnectionId connection id => manager.addConnectionId connection id

/-- Every id a connection holds reaches it, and an id that nobody holds reaches nothing. -/
structure Reaches (manager : ConnectionManager) : Prop where
  reached : ∀ address id, id ∈ manager.connectionIdsAt address →
    manager.getConnection id = some address
  absent : ∀ id, (∀ address, id ∉ manager.connectionIdsAt address) →
    manager.getConnection id = none

/-- A manager finds an id only with a connection that holds it. -/
theorem getConnection_eq_none {manager : ConnectionManager} {id : ConnectionId}
    (nobody : ∀ address, id ∉ manager.connectionIdsAt address) :
    manager.getConnection id = none := by
  -- A connection that is found holds the id, and nobody does.
  cases found : manager.getConnection id with
  | none => rfl
  | some address => exact absurd (mem_of_getConnection found) (nobody address)

/-- Giving a connection an id leaves the map as it was. -/
theorem getConnection_addConnectionId {manager next : ConnectionManager} {address : Nat}
    {id : ConnectionId} (given : manager.addConnectionId address id = .ok next) :
    next.getConnection = manager.getConnection := by
  -- The search is decided by the map, which has not changed.
  unfold addConnectionId at given
  split at given
  · funext other
    rw [getConnection_eq_lookup, getConnection_eq_lookup]
    cases given
    rfl
  · contradiction

/-- Giving a connection an id puts it behind the ids the connection has. -/
theorem connectionIdsAt_addConnectionId {manager next : ConnectionManager} {address : Nat}
    {id : ConnectionId} (given : manager.addConnectionId address id = .ok next) :
    next.connectionIdsAt = Function.update manager.connectionIdsAt address
      (manager.connectionIdsAt address ++ [id]) := by
  -- The list of one connection gets longer by one id.
  unfold addConnectionId at given
  split at given
  · rename_i made
    cases given
    funext other
    simp only [connectionIdsAt]
    by_cases same : other = address
    · subst same
      rw [Function.update_self, List.getElem?_modify_eq, List.getElem?_eq_getElem made]
      rfl
    · -- The other connections are not touched.
      rw [Function.update_of_ne same, List.getElem?_modify_ne _ _ (Ne.symm same), connectionIdsAt]
  · contradiction

/-- A call that gives a connection its id: afterwards some connection holds it. -/
theorem mem_of_call {manager next : ConnectionManager} {event : ManagerCall}
    (called : manager.call event = .ok next) :
    ∃ address, event.id ∈ next.connectionIdsAt address := by
  -- The id is the only one of the new connection, or the last one of an old one.
  cases event with
  | addNewConnection random =>
    cases called
    refine ⟨manager.heap.length, ?_⟩
    rw [connectionIdsAt_addNewConnection, Function.update_self]
    exact List.mem_singleton.mpr rfl
  | addConnectionId connection id =>
    refine ⟨connection, ?_⟩
    rw [connectionIdsAt_addConnectionId called, Function.update_self]
    simp [ManagerCall.id]

/-- Ids that a connection holds it keeps, and it gets no other than the one given away. -/
theorem call_keeps {manager next : ConnectionManager} {event : ManagerCall}
    (called : manager.call event = .ok next) {address : Nat} {id : ConnectionId}
    (held : id ∈ manager.connectionIdsAt address) : id ∈ next.connectionIdsAt address := by
  -- Lists of ids only ever get longer.
  cases event with
  | addNewConnection random =>
    cases called
    have old := lt_of_mem_connectionIdsAt held
    rw [connectionIdsAt_addNewConnection, Function.update_of_ne (Nat.ne_of_lt old)]
    exact held
  | addConnectionId connection given =>
    rw [connectionIdsAt_addConnectionId called]
    by_cases same : address = connection
    · subst same
      rw [Function.update_self]
      exact List.mem_append_left _ held
    · rw [Function.update_of_ne same]
      exact held

/-- What a run found under an id was filed there by a creation with that id. -/
theorem created_of_getConnection {manager : ConnectionManager} {calls : List ManagerCall}
    (arrived : Run.run call .new calls = .ok manager) {id : ConnectionId} {address : Nat}
    (found : manager.getConnection id = some address) : .addNewConnection id ∈ calls := by
  -- Only creations touch the map, each at its own id.
  induction calls using List.reverseRecOn generalizing manager with
  | nil =>
    cases arrived
    contradiction
  | append_singleton calls last ih =>
    obtain ⟨middle, before, called⟩ := (Run.run_snoc_ok call).mp arrived
    cases last with
    | addNewConnection random =>
      cases called
      by_cases same : id = random
      · rw [same]
        simp
      · rw [getConnection_addNewConnection, Function.update_of_ne same] at found
        exact List.mem_append_left _ (ih before found)
    | addConnectionId connection given =>
      rw [getConnection_addConnectionId called] at found
      exact List.mem_append_left _ (ih before found)

/-- An id given away during a run is held by some connection at its end. -/
theorem held_of_mem {manager : ConnectionManager} {calls : List ManagerCall}
    (arrived : Run.run call .new calls = .ok manager) {event : ManagerCall}
    (member : event ∈ calls) : ∃ address, event.id ∈ manager.connectionIdsAt address := by
  -- Either the last call gave the id away, or an earlier one did.
  induction calls using List.reverseRecOn generalizing manager with
  | nil => contradiction
  | append_singleton calls last ih =>
    obtain ⟨middle, before, called⟩ := (Run.run_snoc_ok call).mp arrived
    rcases List.mem_append.mp member with earlier | now
    · -- Held before the last call, it is held after it.
      obtain ⟨address, held⟩ := ih before earlier
      exact ⟨address, call_keeps called held⟩
    · rw [List.mem_singleton.mp now]
      exact mem_of_call called

/-- An id that a connection was given later is held, but no map entry leads to it. -/
theorem not_extends_of_reaches {manager : ConnectionManager} {calls : List ManagerCall}
    (distinct : (calls.map ManagerCall.id).Nodup)
    (arrived : Run.run call .new calls = .ok manager) (reaches : manager.Reaches) :
    ∀ event ∈ calls, ¬ event.Extends := by
  intro event member extends_
  cases event with
  | addNewConnection random => exact extends_
  | addConnectionId connection id =>
    obtain ⟨address, held⟩ := held_of_mem arrived member
    -- Reaching the connection takes a creation with the same id, but the ids are distinct.
    have created := created_of_getConnection arrived (reaches.reached address id held)
    have same := List.inj_on_of_nodup_map distinct member created rfl
    contradiction

/-- Where connections get their ids only when they are created, every id reaches its holder. -/
theorem reaches_of_not_extends {manager : ConnectionManager} {calls : List ManagerCall}
    (distinct : (calls.map ManagerCall.id).Nodup)
    (arrived : Run.run call .new calls = .ok manager)
    (creations : ∀ event ∈ calls, ¬ event.Extends) : manager.Reaches := by
  refine ⟨?_, fun id nobody => getConnection_eq_none nobody⟩
  induction calls using List.reverseRecOn generalizing manager with
  | nil =>
    cases arrived
    intro address id held
    contradiction
  | append_singleton calls last ih =>
    obtain ⟨middle, before, called⟩ := (Run.run_snoc_ok call).mp arrived
    rw [List.map_append, List.nodup_append] at distinct
    rcases distinct with ⟨distinct, _, apart⟩
    have reached := ih distinct before fun event member => creations event (by simp [member])
    cases last with
    | addConnectionId connection id =>
      -- Such a call was ruled out.
      have ruledOut := creations (.addConnectionId connection id) (by simp)
      exact absurd trivial ruledOut
    | addNewConnection random =>
      cases called
      intro address id held
      rw [connectionIdsAt_addNewConnection] at held
      rw [getConnection_addNewConnection]
      by_cases new : address = middle.heap.length
      · -- The new connection holds the new id, and is filed there.
        subst new
        rw [Function.update_self, List.mem_singleton] at held
        subst held
        rw [Function.update_self]
      · -- The others hold ids of earlier creations, which are not the new one.
        rw [Function.update_of_ne new] at held
        have created := created_of_getConnection before (reached address id held)
        have other : id ≠ random :=
          apart id (List.mem_map_of_mem created) random (by simp [ManagerCall.id])
        rw [Function.update_of_ne other]
        exact reached address id held

/-- After a run with distinct ids, every id reaches its holder exactly when none came later. -/
theorem reaches_iff {manager : ConnectionManager} {calls : List ManagerCall}
    (distinct : (calls.map ManagerCall.id).Nodup)
    (arrived : Run.run call .new calls = .ok manager) :
    manager.Reaches ↔ ∀ event ∈ calls, ¬ event.Extends :=
  -- Later ids are exactly the ones the map is not told about.
  ⟨not_extends_of_reaches distinct arrived, reaches_of_not_extends distinct arrived⟩

/-- An id of ones. -/
def firstId : ConnectionId := Vector.replicate connectionIdSize 1

/-- An id of twos. -/
def secondId : ConnectionId := Vector.replicate connectionIdSize 2

/-- Three connections, whose ids are not in order. -/
def threeCreations : List ManagerCall :=
  [.addNewConnection secondId, .addNewConnection (Vector.replicate connectionIdSize 3),
    .addNewConnection firstId]

/-- A manager that has created them reaches each of them. -/
theorem reaches_threeCreations :
    ∃ manager, Run.run call .new threeCreations = .ok manager ∧ manager.Reaches := by
  have distinct : (threeCreations.map ManagerCall.id).Nodup := by decide
  obtain ⟨manager, arrived⟩ : ∃ manager, Run.run call .new threeCreations = .ok manager :=
    ⟨_, rfl⟩
  refine ⟨manager, arrived, (reaches_iff distinct arrived).mpr ?_⟩
  -- No id is given to a connection later.
  simp [threeCreations, ManagerCall.Extends]

/-- The second id of a connection reaches nothing. -/
theorem secondId_not_reached :
    ∃ manager, Run.run call .new [.addNewConnection firstId, .addConnectionId 0 secondId]
      = .ok manager ∧ ¬ manager.Reaches := by
  -- The connection holds both ids, and the map has an entry for the first.
  refine ⟨_, rfl, ?_⟩
  intro reaches
  have found := reaches.reached 0 secondId (by decide)
  have missing : (new.addNewConnection firstId).2.getConnection secondId = none := by rfl
  contradiction

end ConnectionManager

end StreamUP
