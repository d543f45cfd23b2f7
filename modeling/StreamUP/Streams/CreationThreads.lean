import Mathlib.Logic.Function.Basic
import StreamUP.Foundation.Simulation
import StreamUP.Streams.CreationHistories

/-! `createStream` in many threads at once, line by line, with a mutex for each slot. -/

namespace StreamUP.Streams

/-- What a call returns or throws. -/
abbrev Outcome (Exception : Type) : Type := Except Exception QueueStreamCreationResult

/-- The line of `createStream` that a call is in front of. -/
inductive Line (Stream Exception : Type) where
  /-- `if (streamId >= config.maxStreams)`. -/
  | compare
  /-- `std::lock_guard lock(mutex)`. -/
  | lock
  /-- `if (stream != nullptr)`. -/
  | look
  /-- `std::make_unique<Stream>(streamId)`. -/
  | make
  /-- `stream = …`, with what has been made. -/
  | assign (stream : Stream)
  /-- `stream->initialize()`. -/
  | initializeStream
  /-- The end of the block, where the mutex is released. -/
  | unlock (outcome : Outcome Exception)
  /-- The end of the call. -/
  | leave (outcome : Outcome Exception)

/-- A thread: the call it is in, and its earlier calls with what came of them. -/
structure Thread (Stream Exception : Type) where
  current : Option (CreateCall Stream Exception × Line Stream Exception)
  finished : List (CreateCall Stream Exception × Outcome Exception)

/-- A connection, the thread that holds the mutex of each slot, and the threads. -/
structure Threads (Stream Exception : Type) where
  connection : Connection Stream
  owner : StreamId → Option Nat
  threads : List (Thread Stream Exception)

/-- What the scheduler may do: let a thread call `createStream`, or go on by a line. -/
inductive ThreadEvent (Stream Exception : Type) where
  | call (thread : Nat) (call : CreateCall Stream Exception)
  | proceed (thread : Nat)

/-- Why a thread cannot do what the scheduler asks for. -/
inductive ThreadFault where
  | noThread
  | busy
  | idle
  /-- Another thread holds the mutex. -/
  | blocked (owner : Nat)
  | nullPointer
  deriving DecidableEq, Repr

variable {Stream Exception : Type}

/-- Go on to another line of the same call. -/
def Thread.goTo (thread : Thread Stream Exception) (call : CreateCall Stream Exception)
    (line : Line Stream Exception) : Thread Stream Exception :=
  { thread with current := some (call, line) }

/-- A call is over. -/
def Thread.finish (thread : Thread Stream Exception) (call : CreateCall Stream Exception)
    (outcome : Outcome Exception) : Thread Stream Exception where
  current := none
  finished := thread.finished ++ [(call, outcome)]

namespace Threads

/-- Some threads without calls, before a new connection. -/
def start (config : ConnectionConfig) (count : Nat) : Threads Stream Exception where
  connection := .new config
  owner := fun _ => none
  threads := List.replicate count { current := none, finished := [] }

/-- Let the slot of an id point at a stream. -/
def setStream (self : Threads Stream Exception) (streamId : StreamId) (stream : Stream) :
    Threads Stream Exception :=
  { self with connection := self.connection.setStream streamId stream }

/-- Let a thread hold a mutex, or nobody. -/
def setOwner (self : Threads Stream Exception) (streamId : StreamId) (owner : Option Nat) :
    Threads Stream Exception :=
  { self with owner := Function.update self.owner streamId owner }

/-- Put a thread in its place. -/
def setThread (self : Threads Stream Exception) (index : Nat) (thread : Thread Stream Exception) :
    Threads Stream Exception :=
  { self with threads := self.threads.set index thread }

/-- A thread executes the line that it is in front of. -/
def execute (self : Threads Stream Exception) (index : Nat) (thread : Thread Stream Exception)
    (call : CreateCall Stream Exception) :
    Line Stream Exception → Except ThreadFault (Threads Stream Exception)
  | .compare =>
    if self.connection.config.maxStreams ≤ call.streamId then
      .ok (self.setThread index (thread.goTo call (.leave (.ok .invalidStreamId))))
    else .ok (self.setThread index (thread.goTo call .lock))
  | .lock => match self.owner call.streamId with
    -- The thread waits until it is asked again and the mutex is free.
    | some owner => .error (.blocked owner)
    | none => .ok ((self.setOwner call.streamId (some index)).setThread index
        (thread.goTo call .look))
  | .look => match self.connection.slot call.streamId with
    | some _ => .ok (self.setThread index (thread.goTo call (.unlock (.ok .alreadyInUse))))
    | none => .ok (self.setThread index (thread.goTo call .make))
  | .make => match call.makeUnique with
    -- An exception leaves the block as well, and so releases the mutex.
    | .error exception =>
      .ok (self.setThread index (thread.goTo call (.unlock (.error exception))))
    | .ok stream => .ok (self.setThread index (thread.goTo call (.assign stream)))
  | .assign stream =>
    -- From here on the slot is in use, though nobody else can look at it yet.
    .ok ((self.setStream call.streamId stream).setThread index (thread.goTo call .initializeStream))
  | .initializeStream => match self.connection.slot call.streamId with
    | none => .error .nullPointer
    | some stream =>
      let (initialized, stream) := call.initializeStream stream
      .ok ((self.setStream call.streamId stream).setThread index
        (thread.goTo call (.unlock (initialized.map fun _ => .pending))))
  | .unlock outcome =>
    .ok ((self.setOwner call.streamId none).setThread index (thread.goTo call (.leave outcome)))
  | .leave outcome => .ok (self.setThread index (thread.finish call outcome))

/-- The threads after what the scheduler has chosen. -/
def step (self : Threads Stream Exception) :
    ThreadEvent Stream Exception → Except ThreadFault (Threads Stream Exception)
  | .call index call => match self.threads[index]? with
    | none => .error .noThread
    | some thread => match thread.current with
      | some _ => .error .busy
      | none => .ok (self.setThread index (thread.goTo call .compare))
  | .proceed index => match self.threads[index]? with
    | none => .error .noThread
    | some thread => match thread.current with
      | none => .error .idle
      | some (call, line) => self.execute index thread call line

/-- The call that takes effect in a step: where its mutex is released, or where it has no slot. -/
def takesEffect (self : Threads Stream Exception) :
    ThreadEvent Stream Exception → List (Nat × CreateCall Stream Exception)
  | .call _ _ => []
  | .proceed index => match self.threads[index]? with
    | none => []
    | some thread => match thread.current with
      | some (call, .compare) =>
        if self.connection.config.maxStreams ≤ call.streamId then [(index, call)] else []
      | some (call, .unlock _) => [(index, call)]
      | _ => []

/-- The calls in the order in which they take effect. -/
def linearOrder (self : Threads Stream Exception) (events : List (ThreadEvent Stream Exception)) :
    List (Nat × CreateCall Stream Exception) :=
  Simulation.emitted step takesEffect self events

end Threads

/-- A connection whose calls are one step each: what each thread has called, and what came of it. -/
structure Atomic (Stream Exception : Type) where
  connection : Connection Stream
  served : List (Nat × CreateCall Stream Exception × Outcome Exception)

namespace Atomic

/-- A new connection, before any call. -/
def new (config : ConnectionConfig) : Atomic Stream Exception where
  connection := .new config
  served := []

/-- A whole call of a thread. -/
def serve (self : Atomic Stream Exception) (index : Nat) (call : CreateCall Stream Exception) :
    Atomic Stream Exception where
  connection := (self.connection.createStream call).2
  served := self.served ++ [(index, call, (self.connection.createStream call).1)]

/-- One call after the other. -/
def step (self : Atomic Stream Exception) (entry : Nat × CreateCall Stream Exception) :
    Except Empty (Atomic Stream Exception) :=
  .ok (self.serve entry.1 entry.2)

/-- What the calls of one thread have come to. -/
def servedTo (self : Atomic Stream Exception) (index : Nat) :
    List (CreateCall Stream Exception × Outcome Exception) :=
  (self.served.filter (·.1 = index)).map Prod.snd

@[simp] theorem servedTo_serve_self (self : Atomic Stream Exception) (index : Nat)
    (call : CreateCall Stream Exception) :
    (self.serve index call).servedTo index
      = self.servedTo index ++ [(call, (self.connection.createStream call).1)] := by
  simp [servedTo, serve]

theorem servedTo_serve_of_ne (self : Atomic Stream Exception) {index other : Nat}
    (apart : other ≠ index) (call : CreateCall Stream Exception) :
    (self.serve index call).servedTo other = self.servedTo other := by
  simp [servedTo, serve, Ne.symm apart]

end Atomic

/-- What a whole call returns or throws, and what it leaves in the slot of its id. -/
def CreateCall.onSlot (call : CreateCall Stream Exception) (maxStreams : UInt64)
    (slot : Option Stream) : Outcome Exception × Option Stream :=
  if maxStreams ≤ call.streamId then (.ok .invalidStreamId, slot)
  else match slot with
    | some stream => (.ok .alreadyInUse, some stream)
    | none => match call.makeUnique with
      | .error exception => (.error exception, none)
      | .ok stream =>
        let (initialized, stream) := call.initializeStream stream
        (initialized.map fun _ => .pending, some stream)

/-- A stream stays in its slot. -/
theorem CreateCall.onSlot_some (call : CreateCall Stream Exception) (maxStreams : UInt64)
    (stream : Stream) : (call.onSlot maxStreams (some stream)).2 = some stream := by
  unfold CreateCall.onSlot
  split <;> rfl

/-- A call sees the slot of its id, and nothing else of the connection. -/
theorem Connection.createStream_onSlot (connection : Connection Stream)
    (call : CreateCall Stream Exception) :
    ((connection.createStream call).1, (connection.createStream call).2.slot call.streamId)
      = call.onSlot connection.config.maxStreams (connection.slot call.streamId) := by
  have creation := connection.createStream_creation call
  generalize (connection.createStream call).1 = outcome at creation ⊢
  generalize (connection.createStream call).2 = next at creation ⊢
  unfold CreateCall.onSlot
  cases creation with
  | invalid outside => rw [if_pos outside]
  | inUse occupied =>
    have inside : ¬ connection.config.maxStreams ≤ call.streamId := fun outside => by
      simp [Occupied, slot_of_le outside] at occupied
    obtain ⟨stream, used⟩ := Option.isSome_iff_exists.mp occupied
    rw [if_neg inside, used]
  | notMade inside free exception failed =>
    rw [if_neg (UInt64.not_le.mpr inside), free, failed]
  | published inside free stream made =>
    rw [if_neg (UInt64.not_le.mpr inside), free, made, slot_setStream_self inside]

/-- The line is in the block that holds the mutex. -/
def Line.inBlock : Line Stream Exception → Bool
  | .compare | .lock | .leave _ => false
  | .look | .make | .assign _ | .initializeStream | .unlock _ => true

/-- The id whose mutex a thread holds, as far as its line tells. -/
def Thread.holds (thread : Thread Stream Exception) : Option StreamId :=
  match thread.current with
  | none => none
  | some (call, line) => if line.inBlock then some call.streamId else none

/-- The result that a thread is about to be handed. -/
def Thread.leaving (thread : Thread Stream Exception) :
    List (CreateCall Stream Exception × Outcome Exception) :=
  match thread.current with
  | some (call, .leave outcome) => [(call, outcome)]
  | _ => []

@[simp] theorem Thread.holds_goTo (thread : Thread Stream Exception)
    (call : CreateCall Stream Exception) (line : Line Stream Exception) :
    (thread.goTo call line).holds = if line.inBlock then some call.streamId else none := rfl

theorem Thread.holds_of_current {thread : Thread Stream Exception}
    {call : CreateCall Stream Exception} {line : Line Stream Exception}
    (current : thread.current = some (call, line)) :
    thread.holds = if line.inBlock then some call.streamId else none := by
  rw [Thread.holds, current]

/-- In front of any other line there is no result yet. -/
theorem Thread.leaving_of_current {thread : Thread Stream Exception}
    {call : CreateCall Stream Exception} {line : Line Stream Exception}
    (current : thread.current = some (call, line)) (further : ∀ outcome, line ≠ .leave outcome) :
    thread.leaving = [] := by
  rw [Thread.leaving, current]
  cases line with
  | leave outcome => exact absurd rfl (further outcome)
  | _ => rfl

/-- What holds in front of a line, of the slot and of what is in it without the call. -/
def Line.Agrees (maxStreams : UInt64) (slot without : Option Stream)
    (call : CreateCall Stream Exception) : Line Stream Exception → Prop
  | .compare => True
  | .lock => call.streamId < maxStreams
  | .look => call.streamId < maxStreams ∧ slot = without
  | .make => call.streamId < maxStreams ∧ slot = without ∧ without = none
  | .assign stream => call.streamId < maxStreams ∧ without = none ∧ call.makeUnique = .ok stream
  | .initializeStream => call.streamId < maxStreams ∧ without = none ∧
      ∃ stream, call.makeUnique = .ok stream ∧ slot = some stream
  | .unlock outcome => call.onSlot maxStreams without = (outcome, slot)
  | .leave _ => True

/-- Outside the block nothing is known of the slot. -/
theorem Line.Agrees.of_outside {maxStreams : UInt64} {slot without other another : Option Stream}
    {call : CreateCall Stream Exception} {line : Line Stream Exception}
    (outside : line.inBlock = false) (agrees : line.Agrees maxStreams slot without call) :
    line.Agrees maxStreams other another call := by
  cases line <;> first | exact agrees | contradiction

/--
The threads have come to what the calls that took effect come to when they are one step each.

A call that is in the block has changed its slot at most, and has no effect yet.
-/
structure Linearized (threads : Threads Stream Exception) (atomic : Atomic Stream Exception) :
    Prop where
  config : threads.connection.config = atomic.connection.config
  free : ∀ streamId, threads.owner streamId = none →
    threads.connection.slot streamId = atomic.connection.slot streamId
  /-- A mutex is held by a thread exactly while that is in the block for the id. -/
  held : ∀ streamId index, threads.owner streamId = some index ↔
    ∃ thread, threads.threads[index]? = some thread ∧ thread.holds = some streamId
  agrees : ∀ (index : Nat) (thread : Thread Stream Exception) call line,
    threads.threads[index]? = some thread → thread.current = some (call, line) →
      Line.Agrees atomic.connection.config.maxStreams (threads.connection.slot call.streamId)
        (atomic.connection.slot call.streamId) call line
  served : ∀ (index : Nat) (thread : Thread Stream Exception),
    threads.threads[index]? = some thread →
      atomic.servedTo index = thread.finished ++ thread.leaving

end StreamUP.Streams
