import Mathlib.Data.List.Nodup
import Mathlib.Data.List.Pairwise
import StreamUP.Streams.Linearization

/-! Runs of `createStream` in many threads: one order for all calls, no deadlock, no id twice. -/

namespace StreamUP.Streams

open StreamUP.Streams.Connection

variable {Stream Exception : Type} {threads next : Threads Stream Exception}
  {atomic after : Atomic Stream Exception} {thread : Thread Stream Exception} {index count : Nat}
  {call : CreateCall Stream Exception} {config : ConnectionConfig}
  {events : List (ThreadEvent Stream Exception)}

/-- The calls without the threads they are made in. -/
def Atomic.history (self : Atomic Stream Exception) : History Stream Exception where
  connection := self.connection
  outcomes := self.served.map fun entry => (entry.2.1.streamId, entry.2.2)

/-- A run of whole calls is a history of calls, whichever threads they are made in. -/
theorem Atomic.run_history {entries : List (Nat × CreateCall Stream Exception)}
    (arrived : Run.run Atomic.step atomic entries = .ok after) :
    Run.run History.step atomic.history (entries.map Prod.snd) = .ok after.history := by
  induction entries generalizing atomic with
  | nil =>
    cases arrived
    rfl
  | cons entry entries ih =>
    obtain ⟨middle, served, rest⟩ := (Run.run_cons_ok _).mp arrived
    cases served
    refine (Run.run_cons_ok _).mpr ⟨_, ?_, ih rest⟩
    simp [History.step, Atomic.history, Atomic.serve]

/--
Calls of `createStream` in any threads are linearizable.

At every moment they have come to what the calls that took effect come to one after the other.
The order of these calls only grows, so that calls that have returned precede those that begin.
-/
theorem Threads.run_linearizable
    (arrived : Run.run Threads.step (Threads.start config count) events = .ok threads)
    {before rest : List (ThreadEvent Stream Exception)} (split : events = before ++ rest) :
    ∃ middle atomic, Run.run Threads.step (Threads.start config count) before = .ok middle ∧
      Run.run Atomic.step (Atomic.new config) ((Threads.start config count).linearOrder before)
        = .ok atomic ∧
      Run.run History.step (History.new config)
        (((Threads.start config count).linearOrder before).map Prod.snd) = .ok atomic.history ∧
      Linearized middle atomic ∧
      (Threads.start config count).linearOrder before
        <+: (Threads.start config count).linearOrder events := by
  subst split
  obtain ⟨middle, sofar, further⟩ := (Run.run_append_ok _).mp arrived
  obtain ⟨atomic, served, linearized⟩ := simulates.run (linearized_start config count) sofar
  refine ⟨middle, atomic, sofar, served, Atomic.run_history served, linearized, ?_⟩
  exact ⟨_, (Simulation.emitted_append _ _ sofar rest).symm⟩

/-- How many lines a call has left at most. -/
def Line.remaining : Line Stream Exception → Nat
  | .compare => 8
  | .lock => 7
  | .look => 6
  | .make => 5
  | .assign _ => 4
  | .initializeStream => 3
  | .unlock _ => 2
  | .leave _ => 1

/-- How many lines a thread has left at most. -/
def Thread.remaining (thread : Thread Stream Exception) : Nat :=
  match thread.current with
  | none => 0
  | some (_, line) => line.remaining

@[simp] theorem Thread.remaining_goTo (thread : Thread Stream Exception)
    (call : CreateCall Stream Exception) (line : Line Stream Exception) :
    (thread.goTo call line).remaining = line.remaining := rfl

@[simp] theorem Thread.remaining_finish (thread : Thread Stream Exception)
    (call : CreateCall Stream Exception) (outcome : Outcome Exception) :
    (thread.finish call outcome).remaining = 0 := rfl

/-- How many lines are left at most. -/
def Threads.remaining (self : Threads Stream Exception) : Nat :=
  (self.threads.map Thread.remaining).sum

/-- A line that is executed takes its thread on to a later one. -/
theorem Threads.execute_nearer {line : Line Stream Exception}
    (executed : threads.execute index thread call line = .ok next) :
    ∃ changed : Thread Stream Exception, next.threads = threads.threads.set index changed ∧
      changed.remaining < line.remaining := by
  cases line with
  | compare =>
    simp only [Threads.execute] at executed
    split at executed <;>
    · cases executed
      exact ⟨_, rfl, by simp [Line.remaining]⟩
  | lock =>
    simp only [Threads.execute] at executed
    split at executed
    · contradiction
    · cases executed
      exact ⟨_, rfl, by simp [Line.remaining]⟩
  | look =>
    simp only [Threads.execute] at executed
    split at executed <;>
    · cases executed
      exact ⟨_, rfl, by simp [Line.remaining]⟩
  | make =>
    simp only [Threads.execute] at executed
    split at executed <;>
    · cases executed
      exact ⟨_, rfl, by simp [Line.remaining]⟩
  | assign stream =>
    cases executed
    exact ⟨_, rfl, by simp [Line.remaining]⟩
  | initializeStream =>
    simp only [Threads.execute] at executed
    split at executed
    · contradiction
    · cases executed
      exact ⟨_, rfl, by simp [Line.remaining]⟩
  | unlock outcome =>
    cases executed
    exact ⟨_, rfl, by simp [Line.remaining]⟩
  | leave outcome =>
    cases executed
    exact ⟨_, rfl, by simp [Line.remaining]⟩

/-- With every line there is less left. -/
theorem Threads.remaining_lt (stepped : threads.step (.proceed index) = .ok next) :
    next.remaining < threads.remaining := by
  obtain ⟨thread, call, line, there, current, executed⟩ := Threads.step_proceed_ok.mp stepped
  obtain ⟨changed, placed, less⟩ := Threads.execute_nearer executed
  unfold Threads.remaining
  rw [placed, List.map_set]
  have left : thread.remaining = line.remaining := by rw [Thread.remaining, current]
  rw [← left] at less
  refine Simulation.sum_set_lt ?_ less
  rw [List.getElem?_map, there]
  rfl

/-- Only a mutex that is held can keep a thread from its next line. -/
theorem Linearized.execute_ok (linearized : Linearized threads atomic)
    (there : threads.threads[index]? = some thread) {line : Line Stream Exception}
    (current : thread.current = some (call, line))
    (unowned : line = .lock → threads.owner call.streamId = none) :
    ∃ next, threads.execute index thread call line = .ok next := by
  have agrees := linearized.agrees index thread call line there current
  cases line with
  | compare =>
    simp only [Threads.execute]
    split <;> exact ⟨_, rfl⟩
  | lock =>
    simp only [Threads.execute, unowned rfl]
    exact ⟨_, rfl⟩
  | look =>
    simp only [Threads.execute]
    split <;> exact ⟨_, rfl⟩
  | make =>
    simp only [Threads.execute]
    split <;> exact ⟨_, rfl⟩
  | assign stream => exact ⟨_, rfl⟩
  | initializeStream =>
    -- What has been assigned under the mutex is still there.
    obtain ⟨_, _, stream, _, found⟩ := agrees
    simp only [Threads.execute, found]
    exact ⟨_, rfl⟩
  | unlock outcome => exact ⟨_, rfl⟩
  | leave outcome => exact ⟨_, rfl⟩

/-- A thread in a call goes on, or waits for a thread that does. -/
theorem Linearized.proceeds (linearized : Linearized threads atomic)
    (there : threads.threads[index]? = some thread) (busy : thread.current ≠ none) :
    (∃ next, threads.step (.proceed index) = .ok next) ∨
      ∃ owner next, owner ≠ index ∧
        threads.step (.proceed index) = .error (.blocked owner) ∧
        threads.step (.proceed owner) = .ok next := by
  obtain ⟨⟨call, line⟩, current⟩ := Option.ne_none_iff_exists'.mp busy
  by_cases waits : line = .lock ∧ threads.owner call.streamId ≠ none
  · obtain ⟨rfl, owned⟩ := waits
    obtain ⟨owner, owns⟩ := Option.ne_none_iff_exists'.mp owned
    obtain ⟨holder, place, holds⟩ := (linearized.held call.streamId owner).mp owns
    have blocked : threads.step (.proceed index) = .error (.blocked owner) := by
      simp only [Threads.step, there, current, Threads.execute, owns]
    -- The thread that holds the mutex is behind the line that takes it.
    cases position : holder.current with
    | none =>
      rw [Thread.holds, position] at holds
      contradiction
    | some pair =>
      obtain ⟨other, further⟩ := pair
      rw [Thread.holds_of_current position] at holds
      obtain ⟨next, executed⟩ := linearized.execute_ok place position (by
        rintro rfl
        contradiction)
      have goes := Threads.step_proceed_ok.mpr ⟨holder, other, further, place, position, executed⟩
      refine .inr ⟨owner, next, ?_, blocked, goes⟩
      rintro rfl
      rw [goes] at blocked
      contradiction
  · obtain ⟨next, executed⟩ := linearized.execute_ok there current fun same =>
      by_contra fun owned => waits ⟨same, owned⟩
    exact .inl ⟨next, Threads.step_proceed_ok.mpr ⟨thread, call, line, there, current, executed⟩⟩

/-- Two connections with the same streams in the same slots are the same. -/
theorem Connection.ext_slot {first second : Connection Stream}
    (config : first.config = second.config)
    (slots : ∀ streamId, first.slot streamId = second.slot streamId) : first = second := by
  obtain ⟨configuration, streams, sized⟩ := first
  obtain ⟨other, others, sized'⟩ := second
  cases config
  have same : streams = others := by
    refine List.ext_getElem (sized.trans sized'.symm) fun position inside inside' => ?_
    -- Every position has an id, as there are no more slots than ids.
    have number : (UInt64.ofNat position).toNat = position := by
      have few := configuration.maxStreams.toNat_lt
      rw [UInt64.toNat_ofNat', Nat.mod_eq_of_lt (by omega)]
    have found := slots (.ofNat position)
    simpa only [slot, number, List.getElem?_eq_getElem inside, List.getElem?_eq_getElem inside',
      Option.join_some] using found
  subst same
  rfl

/-- When no thread is in a call, everything has come to what whole calls come to. -/
theorem Linearized.idle (linearized : Linearized threads atomic)
    (idle : ∀ thread ∈ threads.threads, thread.current = none) :
    threads.connection = atomic.connection ∧
      ∀ (index : Nat) (thread : Thread Stream Exception), threads.threads[index]? = some thread →
        thread.finished = atomic.servedTo index := by
  refine ⟨Connection.ext_slot linearized.config fun streamId => linearized.free streamId ?_, ?_⟩
  · -- Nobody is left to hold a mutex.
    cases owned : threads.owner streamId with
    | none => rfl
    | some owner =>
      obtain ⟨thread, there, holds⟩ := (linearized.held streamId owner).mp owned
      rw [Thread.holds, idle thread (List.mem_of_getElem? there)] at holds
      contradiction
  · intro index thread there
    rw [linearized.served index thread there, Thread.leaving,
      idle thread (List.mem_of_getElem? there)]
    exact (List.append_nil _).symm

/-- While a thread is in a call, some thread gets nearer to the end of its own. -/
theorem Threads.nearer (sofar : ∃ atomic, Linearized threads atomic)
    (busy : ¬ ∀ thread ∈ threads.threads, thread.current = none) :
    ∃ event next, (∃ index, event = .proceed index) ∧ threads.step event = .ok next ∧
      (∃ atomic, Linearized next atomic) ∧ next.remaining < threads.remaining := by
  obtain ⟨atomic, linearized⟩ := sofar
  simp only [not_forall] at busy
  obtain ⟨thread, member, busy⟩ := busy
  obtain ⟨index, there⟩ := List.getElem?_of_mem member
  -- The thread takes the next step, or else the one that it waits for.
  obtain ⟨mover, next, stepped⟩ : ∃ mover next, threads.step (.proceed mover) = .ok next := by
    rcases linearized.proceeds there busy with ⟨next, stepped⟩ | ⟨owner, next, _, _, stepped⟩
    · exact ⟨index, next, stepped⟩
    · exact ⟨owner, next, stepped⟩
  obtain ⟨after, _, still⟩ := simulates _ _ _ _ linearized stepped
  exact ⟨.proceed mover, next, ⟨mover, rfl⟩, stepped, ⟨after, still⟩, Threads.remaining_lt stepped⟩

/--
There is no deadlock, whatever has been called and however far the threads have got.

A thread in a call goes on, or waits for a mutex that is held by a thread that goes on.
So all calls can come to their ends, and then they have come to what they come to one by one.
-/
theorem Threads.run_completes
    (arrived : Run.run Threads.step (Threads.start config count) events = .ok threads) :
    (∀ (index : Nat) (thread : Thread Stream Exception), threads.threads[index]? = some thread →
      thread.current ≠ none → (∃ next, threads.step (.proceed index) = .ok next) ∨
        ∃ owner next, owner ≠ index ∧ threads.step (.proceed index) = .error (.blocked owner) ∧
          threads.step (.proceed owner) = .ok next) ∧
    ∃ schedule final atomic, (∀ event ∈ schedule, ∃ index, event = .proceed index) ∧
      Run.run Threads.step threads schedule = .ok final ∧
      (∀ thread ∈ final.threads, thread.current = none) ∧
      Run.run Atomic.step (Atomic.new config)
        ((Threads.start config count).linearOrder (events ++ schedule)) = .ok atomic ∧
      final.connection = atomic.connection ∧
      ∀ (index : Nat) (thread : Thread Stream Exception), final.threads[index]? = some thread →
        thread.finished = atomic.servedTo index := by
  obtain ⟨sofar, _, linearized⟩ := simulates.run (linearized_start config count) arrived
  refine ⟨fun index thread there busy => linearized.proceeds there busy, ?_⟩
  obtain ⟨schedule, final, lines, onwards, _, idle⟩ := Simulation.run_finishes
    (fun threads => ∃ atomic, Linearized threads atomic) _ _ Threads.remaining
    (fun _ => Threads.nearer) ⟨sofar, linearized⟩
  have whole := (Run.run_append_ok _).mpr ⟨threads, arrived, onwards⟩
  obtain ⟨atomic, served, linearized⟩ := simulates.run (linearized_start config count) whole
  obtain ⟨connection, finished⟩ := linearized.idle idle
  exact ⟨schedule, final, atomic, lines, onwards, idle, served, connection, finished⟩

/-- The id of a call that has returned that its stream is being created. -/
def createdId (entry : CreateCall Stream Exception × Outcome Exception) : Option StreamId :=
  match entry.2 with
  | .ok .pending => some entry.1.streamId
  | _ => none

/-- The ids of the streams that a thread has created. -/
def Thread.created (thread : Thread Stream Exception) : List StreamId :=
  thread.finished.filterMap createdId

/-- The ids of the streams that have been created. -/
def Atomic.created (self : Atomic Stream Exception) : List StreamId :=
  self.served.filterMap fun entry => createdId entry.2

/-- No stream has been created twice, and none of them has been lost. -/
structure Atomic.Once (atomic : Atomic Stream Exception) : Prop where
  once : atomic.created.Nodup
  used : ∀ streamId ∈ atomic.created, atomic.connection.Occupied streamId

/-- A slot that is in use stays in use. -/
theorem Connection.Creation.occupied {connection next : Connection Stream}
    {outcome : Outcome Exception} (creation : Creation connection call outcome next)
    {streamId : StreamId} (used : connection.Occupied streamId) : next.Occupied streamId := by
  cases creation with
  | invalid outside => exact used
  | inUse occupied => exact used
  | notMade inside free exception failed => exact used
  | published inside free stream made =>
    have apart : streamId ≠ call.streamId := by
      rintro rfl
      simp [Occupied, free] at used
    rw [Occupied, slot_setStream_ne connection apart]
    exact used

/-- A stream is created in a slot that was free, and the slot is in use then. -/
theorem Connection.Creation.of_created {connection next : Connection Stream}
    {outcome : Outcome Exception} (creation : Creation connection call outcome next)
    {streamId : StreamId} (created : createdId (call, outcome) = some streamId) :
    streamId = call.streamId ∧ connection.slot streamId = none ∧ next.Occupied streamId := by
  cases creation with
  | invalid outside => contradiction
  | inUse occupied => contradiction
  | notMade inside free exception failed => contradiction
  | published inside free stream made =>
    cases initialized : (call.initializeStream stream).1 with
    | error exception =>
      rw [initialized] at created
      contradiction
    | ok result =>
      rw [initialized] at created
      cases created
      refine ⟨rfl, free, ?_⟩
      rw [Occupied, slot_setStream_self inside]
      rfl

/-- A call creates a stream only where there was none. -/
theorem Atomic.Once.serve (once : atomic.Once) (index : Nat) (call : CreateCall Stream Exception) :
    (atomic.serve index call).Once := by
  have creation := atomic.connection.createStream_creation call
  have kept : ∀ streamId ∈ atomic.created,
      (atomic.serve index call).connection.Occupied streamId :=
    fun streamId member => creation.occupied (once.used streamId member)
  have whole : (atomic.serve index call).created = atomic.created ++
      (createdId (call, (atomic.connection.createStream call).1)).toList := by
    rw [Atomic.created, Atomic.serve, List.filterMap_append]
    cases created : createdId (call, (atomic.connection.createStream call).1) <;>
      simp [Atomic.created, created]
  cases created : createdId (call, (atomic.connection.createStream call).1) with
  | none =>
    rw [created, Option.toList_none, List.append_nil] at whole
    exact ⟨whole ▸ once.once, whole ▸ kept⟩
  | some streamId =>
    rw [created, Option.toList_some] at whole
    obtain ⟨_, free, used⟩ := creation.of_created created
    have unused : streamId ∉ atomic.created := fun member => by
      have occupied := once.used streamId member
      simp [Occupied, free] at occupied
    refine ⟨?_, ?_⟩
    · rw [whole, ← List.concat_eq_append]
      exact List.Nodup.concat unused once.once
    · intro other member
      rw [whole] at member
      rcases List.mem_append.mp member with old | new
      · exact kept other old
      · exact List.mem_singleton.mp new ▸ used

/-- However many calls are served, no stream is created twice. -/
theorem Atomic.once_of_run {entries : List (Nat × CreateCall Stream Exception)}
    (arrived : Run.run Atomic.step (Atomic.new config) entries = .ok atomic) : atomic.Once := by
  have first : (Atomic.new config : Atomic Stream Exception).Once :=
    ⟨List.Pairwise.nil, fun _ member => absurd member List.not_mem_nil⟩
  refine Run.reachable_invariant Atomic.step Atomic.Once first ?_ ⟨entries, arrived⟩
  intro atomic entry next once served
  cases served
  exact once.serve entry.1 entry.2

/-- What a thread has created is part of what has been created. -/
theorem Linearized.created_sublist (linearized : Linearized threads atomic)
    (there : threads.threads[index]? = some thread) : thread.created.Sublist atomic.created := by
  have returned : thread.finished.Sublist (atomic.servedTo index) := by
    rw [linearized.served index thread there]
    exact List.sublist_append_left _ _
  have among : ((atomic.servedTo index).filterMap createdId).Sublist atomic.created := by
    rw [Atomic.servedTo, List.filterMap_map]
    exact List.filter_sublist.filterMap _
  exact (returned.filterMap createdId).trans among

/-- A stream that a thread has created has been created by a call of that thread. -/
theorem Linearized.served_of_created (linearized : Linearized threads atomic)
    (there : threads.threads[index]? = some thread) {streamId : StreamId}
    (created : streamId ∈ thread.created) :
    ∃ entry ∈ atomic.served, entry.1 = index ∧ createdId entry.2 = some streamId := by
  obtain ⟨pair, member, same⟩ := List.mem_filterMap.mp created
  have among : pair ∈ atomic.servedTo index := by
    rw [linearized.served index thread there]
    exact List.mem_append_left _ member
  obtain ⟨entry, filtered, rfl⟩ := List.mem_map.mp among
  obtain ⟨served, mine⟩ := List.mem_filter.mp filtered
  exact ⟨entry, served, of_decide_eq_true mine, same⟩

/-- One stream is created by one call. -/
theorem Atomic.Once.unique (once : atomic.Once)
    {first second : Nat × CreateCall Stream Exception × Outcome Exception} {streamId : StreamId}
    (member : first ∈ atomic.served) (member' : second ∈ atomic.served)
    (created : createdId first.2 = some streamId) (created' : createdId second.2 = some streamId) :
    first = second := by
  by_contra apart
  have pairs := List.pairwise_filterMap.mp once.once
  have symm : Std.Symm fun first second : Nat × CreateCall Stream Exception × Outcome Exception =>
      ∀ one, createdId first.2 = some one → ∀ other, createdId second.2 = some other →
        one ≠ other :=
    ⟨fun _ _ differ one made other made' => (differ other made' one made).symm⟩
  exact pairs.forall member member' apart streamId created streamId created' rfl

/-- A slot that is in use without the calls in the block is in use with them. -/
theorem Linearized.occupied (linearized : Linearized threads atomic) {streamId : StreamId}
    (used : atomic.connection.Occupied streamId) : threads.connection.Occupied streamId := by
  obtain ⟨stream, inside⟩ := Option.isSome_iff_exists.mp used
  cases owned : threads.owner streamId with
  | none =>
    rw [Occupied, linearized.free streamId owned]
    exact used
  | some owner =>
    obtain ⟨thread, there, holds⟩ := (linearized.held streamId owner).mp owned
    cases current : thread.current with
    | none =>
      rw [Thread.holds, current] at holds
      contradiction
    | some pair =>
      obtain ⟨call, line⟩ := pair
      have agrees := linearized.agrees owner thread call line there current
      rw [Thread.holds_of_current current] at holds
      -- Behind the look at the slot, a call goes on only if that is free.
      cases line with
      | compare => contradiction
      | lock => contradiction
      | leave outcome => contradiction
      | look =>
        cases holds
        rw [Occupied, agrees.2]
        exact used
      | make =>
        cases holds
        rw [agrees.2.2] at inside
        contradiction
      | assign made =>
        cases holds
        rw [agrees.2.1] at inside
        contradiction
      | initializeStream =>
        cases holds
        rw [agrees.2.1] at inside
        contradiction
      | unlock outcome =>
        cases holds
        have kept : (call.onSlot atomic.connection.config.maxStreams
            (atomic.connection.slot call.streamId)).2 = threads.connection.slot call.streamId :=
          congrArg Prod.snd agrees
        rw [inside, CreateCall.onSlot_some] at kept
        rw [Occupied, ← kept]
        rfl

/--
No stream is created twice, in whichever threads and at whichever lines.

What has been created is in its slot, also while another call is in the block.
-/
theorem Threads.run_createsOnce
    (arrived : Run.run Threads.step (Threads.start config count) events = .ok threads) :
    (threads.threads.flatMap Thread.created).Nodup ∧
      ∀ streamId ∈ threads.threads.flatMap Thread.created,
        threads.connection.Occupied streamId := by
  obtain ⟨atomic, served, linearized⟩ := simulates.run (linearized_start config count) arrived
  have once := Atomic.once_of_run served
  refine ⟨List.nodup_flatMap.mpr ⟨?_, ?_⟩, ?_⟩
  · intro thread member
    obtain ⟨index, there⟩ := List.getElem?_of_mem member
    exact once.once.sublist (linearized.created_sublist there)
  · rw [List.pairwise_iff_getElem]
    intro first second inside inside' before streamId member member'
    -- The call that has created the stream is one of one thread.
    obtain ⟨entry, among, mine, created⟩ :=
      linearized.served_of_created (List.getElem?_eq_getElem inside) member
    obtain ⟨other, among', mine', created'⟩ :=
      linearized.served_of_created (List.getElem?_eq_getElem inside') member'
    have same := once.unique among among' created created'
    rw [same, mine'] at mine
    omega
  · intro streamId member
    obtain ⟨thread, among, created⟩ := List.mem_flatMap.mp member
    obtain ⟨index, there⟩ := List.getElem?_of_mem among
    have whole := (linearized.created_sublist there).subset created
    exact linearized.occupied (once.used streamId whole)

/-- Two threads call for one id, and the one that begins first comes second to the mutex. -/
def race : List (ThreadEvent Nat Empty) :=
  [.call 0 ⟨0, .ok 5, fun stream => (.ok (), stream)⟩,
    .call 1 ⟨0, .ok 6, fun stream => (.ok (), stream)⟩,
    .proceed 0, .proceed 1, .proceed 1, .proceed 1, .proceed 1, .proceed 1, .proceed 1, .proceed 1,
    .proceed 0, .proceed 0, .proceed 1, .proceed 0, .proceed 0]

/-- The calls of the race take effect in the order in which they have had the mutex. -/
theorem Threads.run_linearizable_race :
    ∃ threads atomic, Run.run Threads.step (Threads.start ⟨2⟩ 2) race = .ok threads ∧
      Linearized threads atomic ∧ atomic.served.map Prod.fst = [1, 0] := by
  obtain ⟨threads, arrived⟩ : ∃ threads, Run.run Threads.step (Threads.start ⟨2⟩ 2) race
      = .ok threads := ⟨_, rfl⟩
  obtain ⟨middle, atomic, sofar, served, _, linearized, _⟩ :=
    Threads.run_linearizable arrived (List.append_nil race).symm
  refine ⟨middle, atomic, sofar, linearized, ?_⟩
  cases served
  rfl

/-- The race can be run to its end from where the mutex is held and a stream assigned. -/
theorem Threads.run_completes_race :
    ∃ threads schedule final,
      Run.run Threads.step (Threads.start ⟨2⟩ 2) (race.take 8) = .ok threads ∧
      Run.run Threads.step threads schedule = .ok final ∧
      ∀ thread ∈ final.threads, thread.current = none := by
  obtain ⟨threads, arrived⟩ : ∃ threads, Run.run Threads.step (Threads.start ⟨2⟩ 2) (race.take 8)
      = .ok threads := ⟨_, rfl⟩
  obtain ⟨_, schedule, final, _, _, onwards, idle, _⟩ := Threads.run_completes arrived
  exact ⟨threads, schedule, final, arrived, onwards, idle⟩

/-- In the race the stream is created once, though two threads have called for it. -/
theorem Threads.run_createsOnce_race :
    ∃ threads, Run.run Threads.step (Threads.start ⟨2⟩ 2) race = .ok threads ∧
      threads.threads.flatMap Thread.created = [0] ∧
      (threads.threads.flatMap Thread.created).Nodup := by
  obtain ⟨threads, arrived, only⟩ : ∃ threads,
      Run.run Threads.step (Threads.start ⟨2⟩ 2) race = .ok threads ∧
        threads.threads.flatMap Thread.created = [0] := ⟨_, rfl, rfl⟩
  exact ⟨threads, arrived, only, (Threads.run_createsOnce arrived).1⟩

end StreamUP.Streams
