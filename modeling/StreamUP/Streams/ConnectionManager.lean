import Mathlib.Data.List.Perm.Lattice
import StreamUP.Foundation.Family
import StreamUP.Foundation.Machine
import StreamUP.Streams.CreationHistories

/-! The manager of `ConnectionManager.h`: ids from one counter, and connections kept apart. -/

namespace StreamUP.Streams

open Fallible Machine

/-- `enum class CreateConnectionResult`. -/
inductive CreateConnectionResult where
  | success
  | tooManyConnections
  deriving DecidableEq, Repr

/-- `Connection::Id`. -/
abbrev ConnectionId : Type := UInt64

/-- `ConnectionManager`; its constructor is not defined, so the counter may start anywhere. -/
structure ConnectionManager where
  connectionIdCounter : ConnectionId
  deriving DecidableEq, Repr

namespace ConnectionManager

/-- `connectionIdCounter.fetch_add(1)`, one step whichever thread it runs in. -/
def nextConnectionIdAtomic (manager : ConnectionManager) : ConnectionId × ConnectionManager :=
  -- The sum wraps.
  (manager.connectionIdCounter, { connectionIdCounter := manager.connectionIdCounter + 1 })

/--
`createConnection`: the id of the connection and what is returned with it, unless it throws.

The last argument is whether the connection can be allocated.
The manager that is passed along has no place in the connection, so it is left out.
-/
def createConnection {Stream : Type} (manager : ConnectionManager) (config : ConnectionConfig)
    (allocated : Bool) :
    Option ((ConnectionId × Connection Stream) × CreateConnectionResult) × ConnectionManager :=
  let (id, manager) := manager.nextConnectionIdAtomic
  -- An id that has been taken is not given back when the allocation throws.
  if allocated then (some ((id, .new config), .success), manager) else (none, manager)

end ConnectionManager

/-- A connection that was created: its id, and the history of its streams. -/
structure Created (Stream Exception : Type) where
  id : ConnectionId
  history : History Stream Exception

/-- The manager, the connections it has created, and the results that were returned for them. -/
structure Network (Stream Exception : Type) where
  manager : ConnectionManager
  connections : List (Created Stream Exception)
  results : List CreateConnectionResult

/-- A call of the manager, or of a connection, which is known by the order of creation. -/
inductive NetworkCall (Stream Exception : Type) where
  | createConnection (config : ConnectionConfig) (allocated : Bool)
  | createStream (connection : Nat) (call : CreateCall Stream Exception)

namespace Created

variable {Stream Exception : Type}

/-- A call on one connection goes into the history of its streams. -/
def act (created : Created Stream Exception) (call : CreateCall Stream Exception) :
    Except Empty (Created Stream Exception) := do
  let history ← created.history.step call
  return { created with history }

/-- A call on a connection changes neither its id nor its configuration. -/
theorem act_keeps (created : Created Stream Exception) (call : CreateCall Stream Exception)
    (changed : Created Stream Exception) (acted : created.act call = .ok changed) :
    changed.id = created.id ∧
      changed.history.connection.config = created.history.connection.config := by
  cases acted
  exact ⟨rfl, History.step_config rfl⟩

/-- A run of calls on a connection is a run of its history. -/
theorem run_history {origin created : Created Stream Exception}
    {calls : List (CreateCall Stream Exception)} (own : Run.run act origin calls = .ok created) :
    Run.run History.step origin.history calls = .ok created.history := by
  induction calls generalizing origin with
  | nil =>
    cases own
    rfl
  | cons call calls ih =>
    obtain ⟨next, acted, rest⟩ := (Run.run_cons_ok act).mp own
    cases acted
    exact (Run.run_cons_ok _).mpr ⟨_, rfl, ih rest⟩

end Created

namespace Network

variable {Stream Exception : Type}

/-- A manager whose counter has some value, before any connection. -/
def start (counter : ConnectionId) : Network Stream Exception where
  manager := { connectionIdCounter := counter }
  connections := []
  results := []

/-- The network after a call. -/
def step (network : Network Stream Exception) :
    NetworkCall Stream Exception → Except Fault (Network Stream Exception)
  | .createConnection config allocated =>
    match network.manager.createConnection config allocated with
    | (some ((id, connection), result), manager) => .ok
      { manager
        connections := network.connections ++ [{ id, history := { connection, outcomes := [] } }]
        results := network.results ++ [result] }
    | (none, manager) => .ok { network with manager }
  | .createStream connection call =>
    match network.connections[connection]? with
    | none => .error (.danglingPointer connection)
    | some created => match created.act call with
      | .ok created =>
        .ok { network with connections := network.connections.set connection created }

end Network

/-- The connection a call is made on, and the call; creating one is made on none. -/
def NetworkCall.target {Stream Exception : Type} :
    NetworkCall Stream Exception → Option (Nat × CreateCall Stream Exception)
  | .createStream connection call => some (connection, call)
  | .createConnection _ _ => none

/-- The configuration that the call creates a connection with, if it creates one. -/
def NetworkCall.createdWith {Stream Exception : Type} :
    NetworkCall Stream Exception → Option ConnectionConfig
  | .createConnection config true => some config
  -- The call throws before there is a connection.
  | .createConnection _ false => none
  | .createStream _ _ => none

/-- The call takes an id. -/
def NetworkCall.creates {Stream Exception : Type} : NetworkCall Stream Exception → Bool
  | .createConnection _ _ => true
  | .createStream _ _ => false

namespace Network

variable {Stream Exception : Type} {network next : Network Stream Exception}
  {calls : List (NetworkCall Stream Exception)}

/-- A new connection, whatever its id and its configuration. -/
def Fresh (created : Created Stream Exception) : Prop :=
  ∃ config, created.history = .new config

/-- A call on a connection is made on one that is there, and changes nothing else. -/
theorem step_createStream_ok {index : Nat} {call : CreateCall Stream Exception}
    (stepped : network.step (.createStream index call) = .ok next) :
    ∃ created changed, network.connections[index]? = some created ∧
      created.act call = .ok changed ∧
      next = { network with connections := network.connections.set index changed } := by
  simp only [step] at stepped
  cases there : network.connections[index]? with
  | none =>
    rw [there] at stepped
    contradiction
  | some created =>
    rw [there] at stepped
    cases stepped
    exact ⟨created, _, rfl, rfl, rfl⟩

/-- The connections of a network are members that act on their own. -/
theorem connections_members :
    Family.Members (step : Network Stream Exception → NetworkCall Stream Exception → _)
      Network.connections Created.act NetworkCall.target Fresh where
  acts := by
    intro network call next index action aimed stepped
    cases call with
    | createConnection config allocated => contradiction
    | createStream connection call =>
      cases aimed
      obtain ⟨created, changed, there, acted, rfl⟩ := step_createStream_ok stepped
      exact ⟨created, changed, there, acted, rfl⟩
  grows := by
    intro network call next unaimed stepped
    cases call with
    | createConnection config allocated =>
      cases allocated with
      | true =>
        cases stepped
        refine ⟨_, rfl, fun created member => ?_⟩
        rw [List.mem_singleton.mp member]
        exact ⟨config, rfl⟩
      | false =>
        -- A creation that throws adds no connection.
        cases stepped
        exact ⟨[], (List.append_nil _).symm, fun _ member => absurd member List.not_mem_nil⟩
    | createStream connection call => contradiction

/-- The configurations of the connections that are created, in the order of their creation. -/
def configs (calls : List (NetworkCall Stream Exception)) : List ConnectionConfig :=
  calls.filterMap NetworkCall.createdWith

/-- Every connection keeps the configuration that it has been created with. -/
theorem run_configs {counter : ConnectionId}
    (arrived : Run.run step (start counter) calls = .ok network) :
    network.connections.map (fun created => created.history.connection.config)
      = configs calls := by
  induction calls using List.reverseRecOn generalizing network with
  | nil =>
    cases arrived
    rfl
  | append_singleton calls last ih =>
    obtain ⟨middle, sofar, stepped⟩ := (Run.run_snoc_ok _).mp arrived
    have before := ih sofar
    have split : configs (calls ++ [last]) = configs calls ++ configs [last] :=
      List.filterMap_append
    cases last with
    | createConnection config allocated =>
      cases allocated with
      | true =>
        cases stepped
        rw [split, List.map_append, before]
        rfl
      | false =>
        cases stepped
        rw [split]
        exact before.trans (List.append_nil _).symm
    | createStream connection call =>
      have same := connections_members.map_eq_of_target
        (fun created call changed acted => (created.act_keeps call changed acted).2) rfl stepped
      rw [split]
      exact (same.trans before).trans (List.append_nil _).symm

/--
Connections do not interfere.

The slots of a connection, and what its calls return, are what its own calls alone make of a new
connection, with the configuration that was given to the call that has created it.
-/
theorem connection_alone {counter : ConnectionId} {index : Nat}
    {created : Created Stream Exception}
    (arrived : Run.run step (start counter) calls = .ok network)
    (there : network.connections[index]? = some created) :
    ∃ config, (configs calls)[index]? = some config ∧
      Run.run History.step (History.new config)
        (Family.actionsOn NetworkCall.target index calls) = .ok created.history := by
  obtain ⟨origin, from_start, own⟩ := connections_members.run_member arrived there
  -- There were no connections at the start.
  rcases from_start with old | ⟨_, config, new⟩
  · simp [start] at old
  · have alone := Created.run_history own
    rw [new] at alone
    refine ⟨config, ?_, alone⟩
    -- The connection still has the configuration it has begun with.
    have kept : created.history.connection.config = config :=
      Run.reachable_invariant History.step (fun history => history.connection.config = config) rfl
        (fun _ _ _ same stepped => (History.step_config stepped).trans same) ⟨_, alone⟩
    rw [← run_configs arrived, List.getElem?_map, there, ← kept]
    rfl

/-- Every connection has been returned with a success, however many there are. -/
theorem run_results {counter : ConnectionId}
    (arrived : Run.run step (start counter) calls = .ok network) :
    network.results = List.replicate network.connections.length .success := by
  refine Run.reachable_invariant step
    (fun network => network.results = List.replicate network.connections.length .success) rfl ?_
    ⟨calls, arrived⟩
  intro network call next each stepped
  cases call with
  | createConnection config allocated =>
    cases allocated with
    | true =>
      cases stepped
      simp only [each, List.length_append, List.length_singleton, List.replicate_succ']
    | false =>
      cases stepped
      exact each
  | createStream connection call =>
    obtain ⟨created, changed, there, acted, rfl⟩ := step_createStream_ok stepped
    -- A call on a connection leaves their number as it is.
    simp only [each, List.length_set]

/-- Two clients take turns with a connection each. -/
def turns : List (NetworkCall Nat Empty) :=
  [.createConnection ⟨2⟩ true, .createConnection ⟨1⟩ true,
    .createStream 1 ⟨0, .ok 5, fun stream => (.ok (), stream)⟩,
    .createStream 0 ⟨1, .ok 6, fun stream => (.ok (), stream)⟩,
    .createStream 1 ⟨0, .ok 7, fun stream => (.ok (), stream)⟩]

/-- The second connection is what the third and the last call make of it. -/
theorem connection_alone_turns :
    ∃ network created, Run.run step (start 0) turns = .ok network ∧
      network.connections[1]? = some created ∧
      ∃ config, (configs turns)[1]? = some config ∧ Run.run History.step (History.new config)
        [⟨0, .ok 5, fun stream => (.ok (), stream)⟩, ⟨0, .ok 7, fun stream => (.ok (), stream)⟩]
          = .ok created.history := by
  obtain ⟨network, created, arrived, there⟩ : ∃ network created,
      Run.run step (start 0) turns = .ok network ∧ network.connections[1]? = some created :=
    ⟨_, _, rfl, rfl⟩
  exact ⟨network, created, arrived, there, connection_alone arrived there⟩

/-- The number of ids that have been taken. -/
def creations (calls : List (NetworkCall Stream Exception)) : Nat :=
  calls.countP NetworkCall.creates

/--
The ids of the connections are those that the counter has gone through.

Each connection has the number of the creation it comes from, counted from zero.
-/
structure Numbered (counter : ConnectionId) (calls : List (NetworkCall Stream Exception))
    (network : Network Stream Exception) (numbers : List Nat) : Prop where
  counted : network.manager.connectionIdCounter = counter + .ofNat (creations calls)
  ids : network.connections.map Created.id = numbers.map fun number => counter + .ofNat number
  increasing : numbers.Pairwise (· < ·)
  below : ∀ number ∈ numbers, number < creations calls
  all : (∀ config, .createConnection config false ∉ calls) → numbers = List.range (creations calls)

/-- A call on a connection takes no id, and changes none. -/
theorem ids_createStream {index : Nat} {call : CreateCall Stream Exception}
    (stepped : network.step (.createStream index call) = .ok next) :
    next.manager = network.manager ∧
      next.connections.map Created.id = network.connections.map Created.id := by
  have ids : next.connections.map Created.id = network.connections.map Created.id :=
    connections_members.map_eq_of_target
      (fun created call changed acted => (created.act_keeps call changed acted).1) rfl stepped
  obtain ⟨created, changed, there, acted, rfl⟩ := step_createStream_ok stepped
  exact ⟨rfl, ids⟩

/-- The counter moves on by one when an id is taken. -/
theorem ofNat_succ (counter : ConnectionId) (count : Nat) :
    counter + .ofNat count + 1 = counter + .ofNat (count + 1) := by
  rw [UInt64.ofNat_add, UInt64.add_assoc]
  rfl

/-- A call takes the next number, or none. -/
theorem Numbered.step {counter : ConnectionId} {numbers : List Nat}
    {call : NetworkCall Stream Exception} (numbered : Numbered counter calls network numbers)
    (stepped : network.step call = .ok next) :
    ∃ numbers, Numbered counter (calls ++ [call]) next numbers := by
  cases call with
  | createConnection config allocated =>
    have one : creations (calls ++ [.createConnection config allocated]) = creations calls + 1 := by
      simp [creations, NetworkCall.creates]
    cases allocated with
    | true =>
      cases stepped
      refine ⟨numbers ++ [creations calls], ?_, ?_, ?_, ?_, ?_⟩
      · rw [one, ← ofNat_succ, ← numbered.counted]
      · simp only [List.map_append, List.map_singleton, numbered.ids,
          numbered.counted]
      · refine List.pairwise_append.mpr ⟨numbered.increasing, List.pairwise_singleton _ _, ?_⟩
        intro number member last equal
        rw [List.mem_singleton.mp equal]
        exact numbered.below number member
      · intro number member
        rw [one]
        rcases List.mem_append.mp member with old | new
        · exact Nat.lt_succ_of_lt (numbered.below number old)
        · exact List.mem_singleton.mp new ▸ Nat.lt_succ_self _
      · intro thrown
        rw [one, List.range_succ, numbered.all fun config member =>
          thrown config (List.mem_append_left _ member)]
    | false =>
      -- The number is left out when the creation throws.
      cases stepped
      refine ⟨numbers, ?_, numbered.ids, numbered.increasing, ?_, ?_⟩
      · rw [one, ← ofNat_succ, ← numbered.counted]
      · intro number member
        rw [one]
        exact Nat.lt_succ_of_lt (numbered.below number member)
      · intro thrown
        exact absurd (List.mem_append_right _ (List.mem_singleton.mpr rfl)) (thrown config)
  | createStream connection call =>
    have none : creations (calls ++ [.createStream connection call]) = creations calls := by
      simp [creations, NetworkCall.creates]
    obtain ⟨manager, ids⟩ := ids_createStream stepped
    refine ⟨numbers, ?_, ids.trans numbered.ids, numbered.increasing, ?_, ?_⟩
    · rw [none, manager, numbered.counted]
    · rw [none]
      exact numbered.below
    · intro thrown
      rw [none]
      exact numbered.all fun config member => thrown config (List.mem_append_left _ member)

/-- Along every run, the connections are numbered in the order of their creation. -/
theorem run_numbered {counter : ConnectionId}
    (arrived : Run.run step (start counter) calls = .ok network) :
    ∃ numbers, Numbered counter calls network numbers := by
  induction calls using List.reverseRecOn generalizing network with
  | nil =>
    cases arrived
    refine ⟨[], ?_, rfl, List.Pairwise.nil, ?_, fun _ => rfl⟩
    · simp [start, creations]
    · exact fun _ member => absurd member List.not_mem_nil
  | append_singleton calls last ih =>
    obtain ⟨middle, sofar, stepped⟩ := (Run.run_snoc_ok _).mp arrived
    obtain ⟨numbers, numbered⟩ := ih sofar
    exact numbered.step stepped

/-- Two numbers give the same id exactly when the counter has gone round between them. -/
theorem id_eq_iff {counter : ConnectionId} {first second : Nat} :
    counter + .ofNat first = counter + .ofNat second ↔
      first % 18446744073709551616 = second % 18446744073709551616 := by
  rw [UInt64.add_right_inj, ← UInt64.toNat_inj, UInt64.toNat_ofNat', UInt64.toNat_ofNat']

/--
No two connections have one id until the counter has gone round.

Ids that were taken by creations that threw count too, and from there on ids come again.
-/
theorem ids_distinct {counter : ConnectionId}
    (arrived : Run.run step (start counter) calls = .ok network) :
    (creations calls ≤ 18446744073709551616 → (network.connections.map Created.id).Nodup) ∧
      ((∀ config, .createConnection config false ∉ calls) →
        (network.connections.map Created.id).Nodup → creations calls ≤ 18446744073709551616) := by
  obtain ⟨numbers, numbered⟩ := run_numbered arrived
  rw [numbered.ids]
  refine ⟨fun few => ?_, fun thrown once => ?_⟩
  · have apart : numbers.Nodup := numbered.increasing.imp Nat.ne_of_lt
    refine apart.map_on fun first member second member' same => ?_
    have low := numbered.below first member
    have low' := numbered.below second member'
    have residues := id_eq_iff.mp same
    omega
  · -- The first id comes again when the counter has gone round.
    rw [numbered.all thrown] at once
    refine Nat.not_lt.mp fun many => ?_
    have first : 0 ∈ List.range (creations calls) := List.mem_range.mpr (by omega)
    have again : 18446744073709551616 ∈ List.range (creations calls) := List.mem_range.mpr many
    have same := List.inj_on_of_nodup_map once first again (id_eq_iff.mpr (by omega))
    omega

/-- Two connections have two ids, though the counter wraps between them. -/
theorem ids_distinct_turns :
    ∃ network, Run.run step (start 18446744073709551615) turns = .ok network ∧
      (network.connections.map Created.id).Nodup := by
  obtain ⟨network, arrived⟩ : ∃ network,
      Run.run step (start 18446744073709551615) turns = .ok network := ⟨_, rfl⟩
  have few : creations turns = 2 := rfl
  exact ⟨network, arrived, (ids_distinct arrived).1 (by omega)⟩

end Network

end StreamUP.Streams
