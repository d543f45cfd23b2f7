import Mathlib.Data.List.Induction
import StreamUP.Foundation.Run
import StreamUP.Streams.Connection

/-! Histories of `createStream`: whether streams are created exactly once, and wholly or not at all. -/

namespace StreamUP.Streams

open StreamUP.Streams.Connection

variable {Stream Exception : Type}

/-- A connection, and what the calls so far have returned or thrown, the newest last. -/
structure History (Stream Exception : Type) where
  connection : Connection Stream
  outcomes : List (StreamId × Except Exception QueueStreamCreationResult)

namespace History

/-- A new connection, before any call. -/
def new (config : ConnectionConfig) : History Stream Exception where
  connection := .new config
  outcomes := []

/-- The history after a call, which is one step whichever thread it runs in. -/
def step (history : History Stream Exception) (call : CreateCall Stream Exception) :
    Except Empty (History Stream Exception) :=
  -- An exception ends the call, and not the history.
  .ok
    { connection := (history.connection.createStream call).2
      outcomes := history.outcomes ++
        [(call.streamId, (history.connection.createStream call).1)] }

end History

open History

/-- A call keeps the configuration of the connection. -/
theorem History.step_config {history next : History Stream Exception}
    {call : CreateCall Stream Exception} (stepped : history.step call = .ok next) :
    next.connection.config = history.connection.config := by
  cases stepped
  exact (history.connection.createStream_creation call).config_eq

/--
The results that have been returned agree with the slots.

A slot is in use when a call for its id has been pending, and from then on its id stays in use.
-/
structure Consistent (history : History Stream Exception) : Prop where
  occupied : ∀ streamId, history.connection.Occupied streamId ↔
    (streamId, .ok .pending) ∈ history.outcomes
  once : ∀ streamId before after,
    history.outcomes = before ++ (streamId, .ok .pending) :: after →
      ∀ outcome, (streamId, outcome) ∈ after → outcome = .ok .alreadyInUse

/-- A call fills the slot of its id or nothing, and a call that throws can be tried again. -/
structure AllOrNothing (config : ConnectionConfig) (history : History Stream Exception)
    (call : CreateCall Stream Exception) : Prop where
  thrown : ∀ exception, (history.connection.createStream call).1 = .error exception →
    ∀ streamId, (history.connection.createStream call).2.slot streamId
      = history.connection.slot streamId
  retried : ∀ exception, (history.connection.createStream call).1 = .error exception →
    ∀ again : CreateCall Stream Exception, again.streamId = call.streamId → again.Succeeds →
      ((history.connection.createStream call).2.createStream again).1 = .ok .pending
  invalid : config.maxStreams ≤ call.streamId →
    (history.connection.createStream call).1 = .ok .invalidStreamId ∧
      ∀ streamId, (history.connection.createStream call).2.slot streamId
        = history.connection.slot streamId
  others : ∀ other, other ≠ call.streamId →
    (history.connection.createStream call).2.slot other = history.connection.slot other

/-- Streams are created exactly once, and wholly or not at all, along a history of calls. -/
structure CreatesOnce (config : ConnectionConfig) (calls : List (CreateCall Stream Exception)) :
    Prop where
  consistent : Run.Always step Consistent (new config) calls
  allOrNothing : Run.EveryStep step (AllOrNothing config) (new config) calls

variable {history : History Stream Exception} {call : CreateCall Stream Exception}

/-- A call whose initialisation does not fail fills its slot or nothing. -/
theorem allOrNothing_of_complete {config : ConnectionConfig}
    (same : history.connection.config = config)
    (complete : ¬ history.connection.FailsInitializing call) :
    AllOrNothing config history call := by
  have creation := history.connection.createStream_creation call
  refine ⟨?_, ?_, ?_, fun other different => creation.slot_of_ne different⟩
  · intro exception threw streamId
    rw [(creation.of_thrown complete threw).1]
  · intro exception threw again for_same succeeds
    -- The slot is still free when the call is made again.
    obtain ⟨unchanged, inside, free⟩ := creation.of_thrown complete threw
    rw [unchanged]
    rw [← for_same] at inside free
    exact createStream_of_free inside free succeeds
  · intro outside
    rw [← same] at outside
    obtain ⟨invalid, unchanged⟩ := creation.of_outside outside
    exact ⟨invalid, fun streamId => by rw [unchanged]⟩

/-- A call whose initialisation fails throws with its slot filled. -/
theorem complete_of_allOrNothing {config : ConnectionConfig}
    (whole : AllOrNothing config history call) : ¬ history.connection.FailsInitializing call := by
  intro fails
  obtain ⟨inside, free, stream, exception, made, failed⟩ := fails
  have published := createStream_of_made inside free made
  have unchanged := whole.thrown exception (by rw [published, failed]; rfl) call.streamId
  -- The slot points at the stream, and before the call it was null.
  rw [published, slot_setStream_self inside, free] at unchanged
  contradiction

/-- An outcome that is new for its id, or says that the id is in use, changes no earlier promise. -/
theorem once_concat {outcomes : List (StreamId × Except Exception QueueStreamCreationResult)}
    {newest : StreamId} {result : Except Exception QueueStreamCreationResult}
    (once : ∀ streamId before after, outcomes = before ++ (streamId, .ok .pending) :: after →
      ∀ outcome, (streamId, outcome) ∈ after → outcome = .ok .alreadyInUse)
    (used : (newest, .ok .pending) ∈ outcomes → result = .ok .alreadyInUse)
    (streamId : StreamId)
    (before after : List (StreamId × Except Exception QueueStreamCreationResult))
    (split : outcomes ++ [(newest, result)] = before ++ (streamId, .ok .pending) :: after)
    (outcome : Except Exception QueueStreamCreationResult) (member : (streamId, outcome) ∈ after) :
    outcome = .ok .alreadyInUse := by
  -- The newest outcome is the last of those that follow.
  cases after using List.reverseRecOn with
  | nil => simp at member
  | append_singleton after last =>
    rw [← List.cons_append, ← List.append_assoc] at split
    obtain ⟨earlier, same⟩ := List.append_inj' split rfl
    rw [List.singleton_inj] at same
    rcases List.mem_append.mp member with old | new
    · exact once streamId before after earlier outcome old
    · rw [List.mem_singleton, ← same, Prod.mk.injEq] at new
      obtain ⟨rfl, rfl⟩ := new
      exact used (by simp [earlier])

/-- Before any call nothing is in use, and nothing has been returned. -/
theorem consistent_new (config : ConnectionConfig) :
    Consistent (new config : History Stream Exception) where
  occupied := fun streamId => by simp [Occupied, History.new, slot_new]
  once := fun streamId before after split => by simp [History.new] at split

/-- What a call does keeps results and slots in agreement, if its initialisation does not fail. -/
theorem Consistent.creation (consistent : Consistent history)
    (complete : ¬ history.connection.FailsInitializing call)
    {outcome : Except Exception QueueStreamCreationResult} {next : Connection Stream}
    (creation : Connection.Creation history.connection call outcome next) :
    Consistent
      { connection := next, outcomes := history.outcomes ++ [(call.streamId, outcome)] } := by
  have occupied := consistent.occupied
  -- An id whose slot is free has not been pending.
  have unused : history.connection.slot call.streamId = none →
      (call.streamId, .ok .pending) ∉ history.outcomes := by
    intro free pending
    have used := (occupied call.streamId).mpr pending
    simp [Occupied, free] at used
  cases creation with
  | invalid outside =>
    refine ⟨fun streamId => by simp [occupied], once_concat consistent.once fun pending => ?_⟩
    exact absurd pending (unused (slot_of_le outside))
  | inUse used =>
    exact ⟨fun streamId => by simp [occupied], once_concat consistent.once fun _ => rfl⟩
  | notMade inside free exception failed =>
    refine ⟨fun streamId => by simp [occupied], once_concat consistent.once fun pending => ?_⟩
    exact absurd pending (unused free)
  | published inside free stream made =>
    refine ⟨?_, once_concat consistent.once fun pending => absurd pending (unused free)⟩
    have initialized : (call.initializeStream stream).1.map (fun _ => .pending)
        = (.ok .pending : Except Exception QueueStreamCreationResult) := by
      cases ended : (call.initializeStream stream).1 with
      | ok result => rfl
      | error exception => exact absurd ⟨inside, free, stream, exception, made, ended⟩ complete
    intro streamId
    dsimp only
    rw [initialized, List.mem_append, List.mem_singleton]
    by_cases same : streamId = call.streamId
    · -- The slot is in use now, and the newest outcome says so.
      subst same
      refine iff_of_true ?_ (.inr rfl)
      rw [Occupied, slot_setStream_self inside]
      rfl
    · rw [Occupied, slot_setStream_ne history.connection same, ← occupied, Occupied]
      simp [same]

/-- A call whose initialisation does not fail keeps results and slots in agreement. -/
theorem Consistent.step {next : History Stream Exception} (consistent : Consistent history)
    (complete : ¬ history.connection.FailsInitializing call) (stepped : history.step call = .ok next) :
    Consistent next := by
  cases stepped
  exact consistent.creation complete (history.connection.createStream_creation call)

/--
Streams are created exactly once, and wholly or not at all, when no initialisation fails.

Otherwise they are not: the first call whose initialisation fails throws with its slot filled.
-/
theorem createsOnce_iff (config : ConnectionConfig)
    (calls : List (CreateCall Stream Exception)) :
    CreatesOnce config calls ↔
      Run.EveryStep step (fun history call => ¬ history.connection.FailsInitializing call)
        (new config) calls := by
  constructor
  · intro creates
    exact creates.allOrNothing.mono step fun _ _ whole => complete_of_allOrNothing whole
  · intro complete
    constructor
    · exact Run.always_of_everyStep step Consistent
        (fun _ _ _ consistent complete stepped => consistent.step complete stepped)
        (consistent_new config) complete
    · -- The configuration stays the one that the connection was built with.
      have along := complete.with_invariant step
        (fun history => history.connection.config = config)
        (fun _ _ _ same _ stepped => (step_config stepped).trans same) rfl
      exact along.mono step fun _ _ both => allOrNothing_of_complete both.1 both.2

/-- A call for the first id whose stream is made, but cannot be initialised. -/
def failingCall : CreateCall Unit String where
  streamId := 0
  makeUnique := .ok ()
  initializeStream := fun stream => (.error "initialize", stream)

/-- The call throws, and its slot, which was null, is not null any more. -/
theorem failingCall_not_createsOnce : ¬ CreatesOnce ⟨1⟩ [failingCall] := by
  intro creates
  have unchanged := creates.allOrNothing.1.thrown "initialize" rfl 0
  -- The slot points at the stream that could not be initialised.
  have filled : (some () : Option Unit) = none := unchanged
  contradiction

end StreamUP.Streams
