import StreamUP.Streams.CreationThreads

/-! Calls of `createStream` that run at once come to what they come to one after the other. -/

namespace StreamUP.Streams

open StreamUP.Streams.Connection

variable {Stream Exception : Type} {threads next : Threads Stream Exception}
  {atomic after : Atomic Stream Exception} {thread changed : Thread Stream Exception}
  {index : Nat} {call : CreateCall Stream Exception}

/-- A thread that is put in its place is found there, and the others where they were. -/
theorem getElem?_set_cases {list : List (Thread Stream Exception)} {index other : Nat}
    {found : Thread Stream Exception} (there : list[index]? = some thread)
    (now : (list.set index changed)[other]? = some found) :
    (other = index ∧ found = changed) ∨ (other ≠ index ∧ list[other]? = some found) := by
  by_cases same : other = index
  · subst same
    have inside := (List.getElem?_eq_some_iff.mp there).1
    rw [List.getElem?_set_self inside] at now
    exact .inl ⟨rfl, (Option.some.inj now).symm⟩
  · rw [List.getElem?_set_ne (Ne.symm same)] at now
    exact .inr ⟨same, now⟩

/-- A line outside the block takes the thread on, and leaves mutexes and slots as they are. -/
theorem Linearized.outside (linearized : Linearized threads atomic)
    (there : threads.threads[index]? = some thread)
    (placed : next.threads = threads.threads.set index changed)
    (connection : next.connection = threads.connection) (owner : next.owner = threads.owner)
    (same : after.connection = atomic.connection)
    (held : thread.holds = none) (holds : changed.holds = none)
    (agrees : ∀ call line, changed.current = some (call, line) →
      Line.Agrees atomic.connection.config.maxStreams (threads.connection.slot call.streamId)
        (atomic.connection.slot call.streamId) call line)
    (served : after.servedTo index = changed.finished ++ changed.leaving)
    (others : ∀ other, other ≠ index → after.servedTo other = atomic.servedTo other) :
    Linearized next after := by
  have inside := (List.getElem?_eq_some_iff.mp there).1
  refine ⟨?_, ?_, ?_, ?_, ?_⟩
  · rw [connection, same, linearized.config]
  · rw [connection, same, owner]
    exact linearized.free
  · intro streamId other
    rw [owner, linearized.held, placed]
    -- The thread itself is in no block, neither before nor after.
    by_cases itself : other = index
    · subst itself
      rw [there, List.getElem?_set_self inside]
      simp [held, holds]
    · rw [List.getElem?_set_ne (Ne.symm itself)]
  · intro other found call line now current
    rw [placed] at now
    rw [connection, same]
    rcases getElem?_set_cases there now with ⟨rfl, rfl⟩ | ⟨_, before⟩
    · exact agrees call line current
    · exact linearized.agrees other found call line before current
  · intro other found now
    rw [placed] at now
    rcases getElem?_set_cases there now with ⟨rfl, rfl⟩ | ⟨apart, before⟩
    · exact served
    · rw [others other apart]
      exact linearized.served other found before

/-- A line of the block changes nothing but the slot and the mutex of its id. -/
structure Threads.Touches (threads next : Threads Stream Exception) (index : Nat)
    (changed : Thread Stream Exception) (streamId : StreamId) : Prop where
  placed : next.threads = threads.threads.set index changed
  config : next.connection.config = threads.connection.config
  slots : ∀ other, other ≠ streamId →
    next.connection.slot other = threads.connection.slot other
  owners : ∀ other, other ≠ streamId → next.owner other = threads.owner other
  held : ∀ other, next.owner streamId = some other ↔
    other = index ∧ changed.holds = some streamId

/-- Lines of the block keep to the slot whose mutex they hold. -/
theorem Linearized.inside (linearized : Linearized threads atomic)
    (there : threads.threads[index]? = some thread) {streamId : StreamId}
    (touches : threads.Touches next index changed streamId)
    (mine : ∀ other, threads.owner streamId = some other → other = index)
    (held : ∀ other, thread.holds = some other → other = streamId)
    (holds : ∀ other, changed.holds = some other → other = streamId)
    (config : after.connection.config = atomic.connection.config)
    (slots : ∀ other, other ≠ streamId →
      after.connection.slot other = atomic.connection.slot other)
    (free : next.owner streamId = none →
      next.connection.slot streamId = after.connection.slot streamId)
    (agrees : ∀ call line, changed.current = some (call, line) →
      Line.Agrees atomic.connection.config.maxStreams (next.connection.slot call.streamId)
        (after.connection.slot call.streamId) call line)
    (served : after.servedTo index = changed.finished ++ changed.leaving)
    (others : ∀ other, other ≠ index → after.servedTo other = atomic.servedTo other) :
    Linearized next after := by
  have inside := (List.getElem?_eq_some_iff.mp there).1
  refine ⟨?_, ?_, ?_, ?_, ?_⟩
  · rw [touches.config, config, linearized.config]
  · intro other unowned
    by_cases same : other = streamId
    · subst same
      exact free unowned
    · rw [touches.slots other same, slots other same]
      rw [touches.owners other same] at unowned
      exact linearized.free other unowned
  · intro other member
    rw [touches.placed]
    by_cases same : other = streamId
    · subst same
      rw [touches.held]
      by_cases itself : member = index
      · subst itself
        rw [List.getElem?_set_self inside]
        simp
      · -- No other thread is in the block for this id.
        rw [List.getElem?_set_ne (Ne.symm itself), ← linearized.held]
        exact iff_of_false (fun both => itself both.1) fun owns => itself (mine member owns)
    · rw [touches.owners other same, linearized.held]
      by_cases itself : member = index
      · subst itself
        rw [there, List.getElem?_set_self inside]
        refine iff_of_false ?_ ?_
        · rintro ⟨found, itself, now⟩
          cases itself
          exact same (held other now)
        · rintro ⟨found, itself, now⟩
          cases itself
          exact same (holds other now)
      · rw [List.getElem?_set_ne (Ne.symm itself)]
  · intro member found call line now current
    rw [touches.placed] at now
    rw [config]
    rcases getElem?_set_cases there now with ⟨rfl, rfl⟩ | ⟨apart, before⟩
    · exact agrees call line current
    · have sofar := linearized.agrees member found call line before current
      cases block : line.inBlock with
      | false => exact sofar.of_outside block
      | true =>
        -- What this thread holds is another mutex.
        have holding : found.holds = some call.streamId := by
          simp only [Thread.holds, current, block, if_true]
        have owns := (linearized.held call.streamId member).mpr ⟨found, before, holding⟩
        have different : call.streamId ≠ streamId :=
          fun same => apart (mine member (same ▸ owns))
        rw [touches.slots _ different, slots _ different]
        exact sofar
  · intro member found now
    rw [touches.placed] at now
    rcases getElem?_set_cases there now with ⟨rfl, rfl⟩ | ⟨apart, before⟩
    · exact served
    · rw [others member apart]
      exact linearized.served member found before

/-- A thread in the block holds the mutex of its id. -/
theorem Linearized.owner_of_block (linearized : Linearized threads atomic)
    (there : threads.threads[index]? = some thread) {line : Line Stream Exception}
    (current : thread.current = some (call, line)) (block : line.inBlock = true) :
    threads.owner call.streamId = some index := by
  refine (linearized.held call.streamId index).mpr ⟨thread, there, ?_⟩
  rw [Thread.holds_of_current current, if_pos block]

/-- A thread in the block is the only one there, and is in no other. -/
theorem Linearized.alone_in_block (linearized : Linearized threads atomic)
    (there : threads.threads[index]? = some thread) {line : Line Stream Exception}
    (current : thread.current = some (call, line)) (block : line.inBlock = true) :
    (∀ other, threads.owner call.streamId = some other → other = index) ∧
      ∀ other, thread.holds = some other → other = call.streamId := by
  have owner := linearized.owner_of_block there current block
  have holds := Thread.holds_of_current current
  rw [if_pos block] at holds
  constructor
  · intro other owns
    exact (Option.some.inj (owner.symm.trans owns)).symm
  · intro other now
    exact (Option.some.inj (holds.symm.trans now)).symm

/-- From line to line of the block, the slot may change as the next line expects it. -/
theorem Linearized.within (linearized : Linearized threads atomic)
    (there : threads.threads[index]? = some thread) {line further : Line Stream Exception}
    (current : thread.current = some (call, line)) (block : line.inBlock = true)
    (still : further.inBlock = true) {connection : Connection Stream}
    (config : connection.config = threads.connection.config)
    (slots : ∀ other, other ≠ call.streamId →
      connection.slot other = threads.connection.slot other)
    (agrees : Line.Agrees atomic.connection.config.maxStreams (connection.slot call.streamId)
      (atomic.connection.slot call.streamId) call further) :
    Linearized (Threads.setThread { threads with connection } index (thread.goTo call further))
      atomic := by
  have owner := linearized.owner_of_block there current block
  obtain ⟨mine, held⟩ := linearized.alone_in_block there current block
  have touches : threads.Touches
      (Threads.setThread { threads with connection } index (thread.goTo call further)) index
      (thread.goTo call further) call.streamId := by
    refine ⟨rfl, config, slots, fun _ _ => rfl, fun other => ?_⟩
    rw [Thread.holds_goTo, if_pos still]
    show threads.owner call.streamId = some other ↔ _
    rw [owner, Option.some.injEq]
    exact ⟨fun same => ⟨same.symm, rfl⟩, fun both => both.1.symm⟩
  refine linearized.inside there touches mine held ?_ rfl (fun _ _ => rfl) ?_ ?_ ?_ fun _ _ => rfl
  · intro other now
    rw [Thread.holds_goTo, if_pos still] at now
    exact (Option.some.inj now).symm
  · intro unowned
    exact absurd (owner.symm.trans unowned) (by simp)
  · intro same further' now
    cases now
    exact agrees
  · -- Neither of the lines is the end of the call.
    rw [linearized.served index thread there,
      Thread.leaving_of_current current (by rintro outcome rfl; contradiction),
      Thread.leaving_of_current rfl (by rintro outcome rfl; contradiction)]
    rfl

/-- A thread takes a mutex that is free. -/
theorem Linearized.lock (linearized : Linearized threads atomic)
    (there : threads.threads[index]? = some thread) (current : thread.current = some (call, .lock))
    (unowned : threads.owner call.streamId = none) :
    Linearized ((threads.setOwner call.streamId (some index)).setThread index
      (thread.goTo call .look)) atomic := by
  have inside := linearized.agrees index thread call .lock there current
  have holds := Thread.holds_of_current current
  have touches : threads.Touches ((threads.setOwner call.streamId (some index)).setThread index
      (thread.goTo call .look)) index (thread.goTo call .look) call.streamId := by
    refine ⟨rfl, rfl, fun _ _ => rfl, fun other apart => Function.update_of_ne apart _ _,
      fun other => ?_⟩
    show Function.update threads.owner call.streamId (some index) call.streamId = some other ↔ _
    rw [Function.update_self, Option.some.injEq]
    exact ⟨fun same => ⟨same.symm, rfl⟩, fun both => both.1.symm⟩
  refine linearized.inside there touches ?_ ?_ ?_ rfl (fun _ _ => rfl) ?_ ?_ ?_ fun _ _ => rfl
  · intro other owns
    rw [unowned] at owns
    contradiction
  · intro other now
    rw [holds] at now
    contradiction
  · intro other now
    exact (Option.some.inj now).symm
  · intro free
    exact absurd ((Function.update_self _ _ _).symm.trans free) (by simp)
  · intro same line now
    cases now
    -- While the mutex was free, the slot was what it is without calls in the block.
    exact ⟨inside, linearized.free call.streamId unowned⟩
  · rw [linearized.served index thread there, Thread.leaving_of_current current (by simp)]
    rfl

/-- Where the mutex is released, the call takes effect as a whole. -/
theorem Linearized.unlock (linearized : Linearized threads atomic)
    (there : threads.threads[index]? = some thread) {outcome : Outcome Exception}
    (current : thread.current = some (call, .unlock outcome)) :
    Linearized ((threads.setOwner call.streamId none).setThread index
      (thread.goTo call (.leave outcome))) (atomic.serve index call) := by
  have whole := linearized.agrees index thread call _ there current
  obtain ⟨mine, held⟩ := linearized.alone_in_block there current rfl
  -- The block has done to the slot what a whole call does to it.
  obtain ⟨returned, left⟩ := Prod.ext_iff.mp
    ((atomic.connection.createStream_onSlot call).trans whole)
  have creation := atomic.connection.createStream_creation call
  have touches : threads.Touches ((threads.setOwner call.streamId none).setThread index
      (thread.goTo call (.leave outcome))) index (thread.goTo call (.leave outcome))
      call.streamId := by
    refine ⟨rfl, rfl, fun _ _ => rfl, fun other apart => Function.update_of_ne apart _ _,
      fun other => ?_⟩
    show Function.update threads.owner call.streamId none call.streamId = some other ↔ _
    rw [Function.update_self]
    exact iff_of_false (by simp) fun both => by cases both.2
  refine linearized.inside there touches mine held ?_ creation.config_eq
    (fun other apart => creation.slot_of_ne apart) (fun _ => left.symm) ?_ ?_ ?_
  · intro other now
    cases now
  · intro same line now
    cases now
    trivial
  · rw [Atomic.servedTo_serve_self, linearized.served index thread there,
      Thread.leaving_of_current current (by simp), returned, List.append_nil]
    rfl
  · exact fun other apart => atomic.servedTo_serve_of_ne apart call

/-- A thread begins a call. -/
theorem Linearized.begin (linearized : Linearized threads atomic)
    (there : threads.threads[index]? = some thread) (idle : thread.current = none)
    (call : CreateCall Stream Exception) :
    Linearized (threads.setThread index (thread.goTo call .compare)) atomic := by
  have held : thread.holds = none := by rw [Thread.holds, idle]
  have leaving : thread.leaving = [] := by rw [Thread.leaving, idle]
  refine linearized.outside there rfl rfl rfl rfl held rfl ?_ ?_ fun _ _ => rfl
  · intro same line now
    cases now
    trivial
  · rw [linearized.served index thread there, leaving]
    rfl

/-- A call for an id with a slot goes on to its mutex. -/
theorem Linearized.compare (linearized : Linearized threads atomic)
    (there : threads.threads[index]? = some thread)
    (current : thread.current = some (call, .compare))
    (inside : call.streamId < threads.connection.config.maxStreams) :
    Linearized (threads.setThread index (thread.goTo call .lock)) atomic := by
  refine linearized.outside there rfl rfl rfl rfl (Thread.holds_of_current current) rfl ?_ ?_
    fun _ _ => rfl
  · intro same line now
    cases now
    rw [linearized.config] at inside
    exact inside
  · rw [linearized.served index thread there, Thread.leaving_of_current current (by simp)]
    rfl

/-- A call for an id without a slot takes effect where it is turned away. -/
theorem Linearized.turnedAway (linearized : Linearized threads atomic)
    (there : threads.threads[index]? = some thread)
    (current : thread.current = some (call, .compare))
    (outside : threads.connection.config.maxStreams ≤ call.streamId) :
    Linearized (threads.setThread index (thread.goTo call (.leave (.ok .invalidStreamId))))
      (atomic.serve index call) := by
  rw [linearized.config] at outside
  obtain ⟨invalid, unchanged⟩ :=
    (atomic.connection.createStream_creation call).of_outside outside
  refine linearized.outside there rfl rfl rfl unchanged (Thread.holds_of_current current) rfl ?_
    ?_ fun other apart => atomic.servedTo_serve_of_ne apart call
  · intro same line now
    cases now
    trivial
  · rw [Atomic.servedTo_serve_self, linearized.served index thread there,
      Thread.leaving_of_current current (by simp), invalid, List.append_nil]
    rfl

/-- A thread is handed the result of its call. -/
theorem Linearized.leave (linearized : Linearized threads atomic)
    (there : threads.threads[index]? = some thread) {outcome : Outcome Exception}
    (current : thread.current = some (call, .leave outcome)) :
    Linearized (threads.setThread index (thread.finish call outcome)) atomic := by
  have leaving : thread.leaving = [(call, outcome)] := by rw [Thread.leaving, current]
  refine linearized.outside there rfl rfl rfl rfl (Thread.holds_of_current current) rfl ?_ ?_
    fun _ _ => rfl
  · intro same line now
    cases now
  · rw [linearized.served index thread there, leaving]
    exact (List.append_nil _).symm

/-- A line keeps the threads in step with the calls that have taken effect. -/
theorem Linearized.execute (linearized : Linearized threads atomic)
    (there : threads.threads[index]? = some thread) {line : Line Stream Exception}
    (current : thread.current = some (call, line))
    (executed : threads.execute index thread call line = .ok next) :
    ∃ after, Run.run Atomic.step atomic (threads.takesEffect (.proceed index)) = .ok after ∧
      Linearized next after := by
  have agrees := linearized.agrees index thread call line there current
  simp only [Threads.takesEffect, there, current]
  cases line with
  | compare =>
    dsimp only
    simp only [Threads.execute] at executed
    split at executed
    · rename_i outside
      cases executed
      rw [if_pos outside]
      exact ⟨_, rfl, linearized.turnedAway there current outside⟩
    · rename_i inside
      cases executed
      rw [if_neg inside]
      exact ⟨_, rfl, linearized.compare there current (UInt64.not_le.mp inside)⟩
  | lock =>
    simp only [Threads.execute] at executed
    cases unowned : threads.owner call.streamId with
    | some owner =>
      rw [unowned] at executed
      contradiction
    | none =>
      rw [unowned] at executed
      cases executed
      exact ⟨_, rfl, linearized.lock there current unowned⟩
  | look =>
    obtain ⟨inside, same⟩ := agrees
    simp only [Threads.execute] at executed
    cases found : threads.connection.slot call.streamId with
    | some stream =>
      rw [found] at executed same
      cases executed
      refine ⟨_, rfl, linearized.within there current rfl rfl rfl (fun _ _ => rfl) ?_⟩
      simp only [Line.Agrees, CreateCall.onSlot, if_neg (UInt64.not_le.mpr inside), ← same, found]
    | none =>
      rw [found] at executed same
      cases executed
      refine ⟨_, rfl, linearized.within there current rfl rfl rfl (fun _ _ => rfl) ?_⟩
      exact ⟨inside, found.trans same, same.symm⟩
  | make =>
    obtain ⟨inside, same, free⟩ := agrees
    simp only [Threads.execute] at executed
    cases made : call.makeUnique with
    | error exception =>
      rw [made] at executed
      cases executed
      refine ⟨_, rfl, linearized.within there current rfl rfl rfl (fun _ _ => rfl) ?_⟩
      simp only [Line.Agrees, CreateCall.onSlot, if_neg (UInt64.not_le.mpr inside), free, made,
        same]
    | ok stream =>
      rw [made] at executed
      cases executed
      refine ⟨_, rfl, linearized.within there current rfl rfl rfl (fun _ _ => rfl) ?_⟩
      exact ⟨inside, free, made⟩
  | assign stream =>
    obtain ⟨inside, free, made⟩ := agrees
    cases executed
    rw [← linearized.config] at inside
    refine ⟨_, rfl, linearized.within there current rfl rfl rfl
      (fun other apart => slot_setStream_ne _ apart stream) ?_⟩
    rw [slot_setStream_self inside]
    rw [linearized.config] at inside
    exact ⟨inside, free, stream, made, rfl⟩
  | initializeStream =>
    obtain ⟨inside, free, stream, made, found⟩ := agrees
    simp only [Threads.execute, found] at executed
    cases executed
    refine ⟨_, rfl, linearized.within there current rfl rfl rfl
      (fun other apart => slot_setStream_ne _ apart _) ?_⟩
    have bound : call.streamId < threads.connection.config.maxStreams := by
      rw [linearized.config]
      exact inside
    rw [slot_setStream_self bound]
    simp only [Line.Agrees, CreateCall.onSlot, if_neg (UInt64.not_le.mpr inside), free, made]
  | unlock outcome =>
    cases executed
    exact ⟨_, rfl, linearized.unlock there current⟩
  | leave outcome =>
    cases executed
    exact ⟨_, rfl, linearized.leave there current⟩

/-- Nothing has taken effect before the first call. -/
theorem linearized_start (config : ConnectionConfig) (count : Nat) :
    Linearized (Threads.start config count : Threads Stream Exception) (Atomic.new config) := by
  have idle : ∀ (index : Nat) (thread : Thread Stream Exception),
      (Threads.start config count : Threads Stream Exception).threads[index]? = some thread →
        thread = { current := none, finished := [] } :=
    fun index thread there => List.eq_of_mem_replicate (List.mem_of_getElem? there)
  refine ⟨rfl, fun _ _ => rfl, ?_, ?_, ?_⟩
  · intro streamId index
    refine iff_of_false (fun owned => by contradiction) ?_
    rintro ⟨thread, there, holds⟩
    rw [idle index thread there] at holds
    contradiction
  · intro index thread call line there current
    rw [idle index thread there] at current
    contradiction
  · intro index thread there
    rw [idle index thread there]
    rfl

/-- What a thread can go on from: it is in a call, and the next line can be executed. -/
theorem Threads.step_proceed_ok :
    threads.step (.proceed index) = .ok next ↔ ∃ thread call line,
      threads.threads[index]? = some thread ∧ thread.current = some (call, line) ∧
        threads.execute index thread call line = .ok next := by
  simp only [Threads.step]
  cases there : threads.threads[index]? with
  | none => simp
  | some thread =>
    cases current : thread.current with
    | none => simp [current]
    | some pair =>
      obtain ⟨call, line⟩ := pair
      simp [current]

/-- The threads simulate a connection whose calls are one step each. -/
theorem simulates : Simulation.Simulates Threads.step Threads.takesEffect Atomic.step
    (Linearized : Threads Stream Exception → Atomic Stream Exception → Prop) := by
  intro threads event next atomic linearized stepped
  cases event with
  | proceed index =>
    obtain ⟨thread, call, line, there, current, executed⟩ := Threads.step_proceed_ok.mp stepped
    exact linearized.execute there current executed
  | call index call =>
    simp only [Threads.step] at stepped
    cases there : threads.threads[index]? with
    | none =>
      rw [there] at stepped
      contradiction
    | some thread =>
      rw [there] at stepped
      cases idle : thread.current with
      | some _ =>
        simp only [idle] at stepped
        contradiction
      | none =>
        simp only [idle] at stepped
        cases stepped
        exact ⟨atomic, rfl, linearized.begin there idle call⟩

end StreamUP.Streams
