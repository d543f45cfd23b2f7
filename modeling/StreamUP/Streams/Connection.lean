import Mathlib.Data.List.Basic

/-! The connection of `Connection/Connection.h`, and what one `createStream` does to its slots. -/

namespace StreamUP.Streams

/-- `enum class QueueStreamCreationResult`. -/
inductive QueueStreamCreationResult where
  | pending
  | alreadyInUse
  | invalidStreamId
  deriving DecidableEq, Repr

/-- `Connection::StreamId`. -/
abbrev StreamId : Type := UInt64

/-- `ConnectionConfig`, of which a connection looks at the number of streams only. -/
structure ConnectionConfig where
  maxStreams : UInt64
  deriving DecidableEq, Repr

/-- A connection: its configuration, and one slot for each stream it may have. -/
structure Connection (Stream : Type) where
  config : ConnectionConfig
  /-- The pointers, of which some are null; their mutexes are held for whole calls. -/
  streams : List (Option Stream)
  sized : streams.length = config.maxStreams.toNat

/--
A call of `createStream`, with what the code of the stream does during it.

That code is not defined, so it may construct anything, change anything in the stream, and throw.
-/
structure CreateCall (Stream Exception : Type) where
  streamId : StreamId
  /-- `std::make_unique<Stream>(streamId)`. -/
  makeUnique : Except Exception Stream
  /-- `stream->initialize()`: whether it returns, and the stream as it leaves it. -/
  initializeStream : Stream → Except Exception Unit × Stream

/-- The stream of a call can be made and initialised. -/
def CreateCall.Succeeds {Stream Exception : Type} (call : CreateCall Stream Exception) : Prop :=
  ∃ stream, call.makeUnique = .ok stream ∧ (call.initializeStream stream).1 = .ok ()

namespace Connection

variable {Stream Exception : Type}

/-- The constructor, which resizes the slots to the number of streams. -/
def new (config : ConnectionConfig) : Connection Stream where
  config := config
  -- Pointers that the resizing adds are null.
  streams := List.replicate config.maxStreams.toNat none
  sized := List.length_replicate

/-- Let the slot of an id point at a stream. -/
def setStream (connection : Connection Stream) (streamId : StreamId) (stream : Stream) :
    Connection Stream :=
  { connection with
    streams := connection.streams.set streamId.toNat (some stream)
    sized := List.length_set.trans connection.sized }

/-- `createStream`: what it returns or throws, and the connection afterwards. -/
def createStream (connection : Connection Stream) (call : CreateCall Stream Exception) :
    Except Exception QueueStreamCreationResult × Connection Stream :=
  if outside : connection.config.maxStreams ≤ call.streamId then
    (.ok .invalidStreamId, connection)
  else
    -- From here on the mutex of the slot is held, so that this is one step.
    have inside : call.streamId.toNat < connection.streams.length :=
      Nat.lt_of_lt_of_eq (UInt64.lt_iff_toNat_lt.mp (UInt64.not_le.mp outside))
        connection.sized.symm
    match connection.streams[call.streamId.toNat] with
    | some _ => (.ok .alreadyInUse, connection)
    | none =>
      match call.makeUnique with
      | .error exception => (.error exception, connection)
      | .ok stream =>
        -- The slot points at the stream before `initialize` runs, and does so if that throws.
        let (initialized, stream) := call.initializeStream stream
        (initialized.map fun _ => .pending, connection.setStream call.streamId stream)

/-- The stream that the slot of an id points at, if there is such a slot and it is not null. -/
def slot (connection : Connection Stream) (streamId : StreamId) : Option Stream :=
  (connection.streams[streamId.toNat]?).join

/-- The slot of an id is in use. -/
def Occupied (connection : Connection Stream) (streamId : StreamId) : Prop :=
  (connection.slot streamId).isSome

/-- An id below the number of streams has a slot. -/
theorem toNat_lt_length {connection : Connection Stream} {streamId : StreamId}
    (inside : streamId < connection.config.maxStreams) :
    streamId.toNat < connection.streams.length := by
  rw [connection.sized]
  exact UInt64.lt_iff_toNat_lt.mp inside

/-- The slot of an id that has one is the pointer at its index. -/
theorem slot_eq_getElem {connection : Connection Stream} {streamId : StreamId}
    (bound : streamId.toNat < connection.streams.length) :
    connection.slot streamId = connection.streams[streamId.toNat] := by
  -- There is a pointer to be found.
  simp only [slot, List.getElem?_eq_getElem bound, Option.join_some]

/-- The slots of a new connection are free. -/
theorem slot_new (config : ConnectionConfig) (streamId : StreamId) :
    (new config : Connection Stream).slot streamId = none := by
  -- Inside there is a null pointer, and outside there is no slot.
  simp only [slot, new, List.getElem?_replicate]
  split <;> rfl

/-- Inside the connection, a slot that has been set points at what it has been set to. -/
theorem slot_setStream_self {connection : Connection Stream} {streamId : StreamId}
    (inside : streamId < connection.config.maxStreams) (stream : Stream) :
    (connection.setStream streamId stream).slot streamId = some stream := by
  -- What is looked up is what has been set at the same index.
  simp only [slot, setStream, List.getElem?_set_self (toNat_lt_length inside), Option.join_some]

/-- Setting the slot of one id leaves those of all others alone. -/
theorem slot_setStream_ne (connection : Connection Stream) {streamId other : StreamId}
    (different : other ≠ streamId) (stream : Stream) :
    (connection.setStream streamId stream).slot other = connection.slot other := by
  -- Ids are apart exactly when their numbers are.
  have apart : streamId.toNat ≠ other.toNat :=
    fun same => different (UInt64.toNat_inj.mp same.symm)
  simp only [slot, setStream, List.getElem?_set_ne apart]

/-- An id that is not below the number of streams has no slot. -/
theorem slot_of_le {connection : Connection Stream} {streamId : StreamId}
    (outside : connection.config.maxStreams ≤ streamId) : connection.slot streamId = none := by
  have beyond : connection.streams.length ≤ streamId.toNat := by
    rw [connection.sized]
    exact UInt64.le_iff_toNat_le.mp outside
  simp only [slot, List.getElem?_eq_none beyond, Option.join_none]

/-- What a call can return or throw, and what it does to the connection then. -/
inductive Creation (connection : Connection Stream) (call : CreateCall Stream Exception) :
    Except Exception QueueStreamCreationResult → Connection Stream → Prop where
  /-- There is no slot for the id. -/
  | invalid (outside : connection.config.maxStreams ≤ call.streamId) :
      Creation connection call (.ok .invalidStreamId) connection
  /-- The slot is in use. -/
  | inUse (occupied : connection.Occupied call.streamId) :
      Creation connection call (.ok .alreadyInUse) connection
  /-- The stream cannot be constructed, so nothing is published. -/
  | notMade (inside : call.streamId < connection.config.maxStreams)
      (free : connection.slot call.streamId = none) (exception : Exception)
      (failed : call.makeUnique = .error exception) :
      Creation connection call (.error exception) connection
  /-- The stream is published, and the call ends as its initialisation does. -/
  | published (inside : call.streamId < connection.config.maxStreams)
      (free : connection.slot call.streamId = none) (stream : Stream)
      (made : call.makeUnique = .ok stream) :
      Creation connection call ((call.initializeStream stream).1.map fun _ => .pending)
        (connection.setStream call.streamId (call.initializeStream stream).2)

/-- Every call has one of these effects. -/
theorem createStream_creation (connection : Connection Stream)
    (call : CreateCall Stream Exception) :
    Creation connection call (connection.createStream call).1
      (connection.createStream call).2 := by
  unfold createStream
  split
  · rename_i outside
    exact .invalid outside
  · rename_i below
    have inside := UInt64.not_le.mp below
    have found := slot_eq_getElem (toNat_lt_length inside)
    -- Under the lock, the slot is looked at first and the stream is made next.
    dsimp only
    split
    · rename_i stream used
      refine .inUse ?_
      rw [Occupied, found, used]
      rfl
    · rename_i free
      rw [← found] at free
      split
      · rename_i exception failed
        exact .notMade inside free exception failed
      · rename_i stream made
        exact .published inside free stream made

/-- A call that makes a stream for a free slot publishes it, whatever its initialisation does. -/
theorem createStream_of_made {connection : Connection Stream}
    {call : CreateCall Stream Exception} (inside : call.streamId < connection.config.maxStreams)
    (free : connection.slot call.streamId = none) {stream : Stream}
    (made : call.makeUnique = .ok stream) :
    connection.createStream call
      = ((call.initializeStream stream).1.map fun _ => .pending,
          connection.setStream call.streamId (call.initializeStream stream).2) := by
  have bound := toNat_lt_length inside
  have null : connection.streams[call.streamId.toNat] = none :=
    (slot_eq_getElem bound).symm.trans free
  -- The slot is there and null, which are the two tests in front of the stream.
  simp only [createStream, dif_neg (UInt64.not_le.mpr inside), null, made]

/-- A call for a free slot whose stream can be made and initialised is pending. -/
theorem createStream_of_free {connection : Connection Stream}
    {call : CreateCall Stream Exception} (inside : call.streamId < connection.config.maxStreams)
    (free : connection.slot call.streamId = none) (succeeds : call.Succeeds) :
    (connection.createStream call).1 = .ok .pending := by
  -- The call ends as the initialisation does.
  obtain ⟨stream, made, initialized⟩ := succeeds
  rw [createStream_of_made inside free made, initialized]
  rfl

/-- The call publishes a stream whose initialisation throws. -/
def FailsInitializing (connection : Connection Stream) (call : CreateCall Stream Exception) :
    Prop :=
  -- The slot is there and free, and the stream has been constructed.
  call.streamId < connection.config.maxStreams ∧ connection.slot call.streamId = none ∧
    ∃ stream exception, call.makeUnique = .ok stream ∧
      (call.initializeStream stream).1 = .error exception

section Creation

variable {connection next : Connection Stream} {call : CreateCall Stream Exception}
  {outcome : Except Exception QueueStreamCreationResult}

/-- A call keeps the configuration. -/
theorem Creation.config_eq (creation : Creation connection call outcome next) :
    next.config = connection.config := by
  cases creation <;> rfl

/-- A call leaves the slots of all other ids alone. -/
theorem Creation.slot_of_ne (creation : Creation connection call outcome next) {other : StreamId}
    (different : other ≠ call.streamId) : next.slot other = connection.slot other := by
  cases creation with
  | invalid outside => rfl
  | inUse occupied => rfl
  | notMade inside free exception failed => rfl
  | published inside free stream made => exact slot_setStream_ne connection different _

/-- A call for an id without a slot does nothing else than to say so. -/
theorem Creation.of_outside (creation : Creation connection call outcome next)
    (outside : connection.config.maxStreams ≤ call.streamId) :
    outcome = .ok .invalidStreamId ∧ next = connection := by
  -- The other cases need a slot.
  cases creation with
  | invalid _ => exact ⟨rfl, rfl⟩
  | inUse occupied => simp [Occupied, slot_of_le outside] at occupied
  | notMade inside => exact absurd inside (UInt64.not_lt.mpr outside)
  | published inside => exact absurd inside (UInt64.not_lt.mpr outside)

/-- A call that throws has published nothing, unless its initialisation failed. -/
theorem Creation.of_thrown (creation : Creation connection call outcome next)
    (complete : ¬ connection.FailsInitializing call) {exception : Exception}
    (threw : outcome = .error exception) :
    next = connection ∧ call.streamId < connection.config.maxStreams ∧
      connection.slot call.streamId = none := by
  cases creation with
  | invalid outside => contradiction
  | inUse occupied => contradiction
  | notMade inside free other failed => exact ⟨rfl, inside, free⟩
  | published inside free stream made =>
    -- Behind the publication only the initialisation can throw.
    cases initialized : (call.initializeStream stream).1 with
    | ok result =>
      rw [initialized] at threw
      contradiction
    | error other => exact absurd ⟨inside, free, stream, other, made, initialized⟩ complete

end Creation

end Connection

end StreamUP.Streams
