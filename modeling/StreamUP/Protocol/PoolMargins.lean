import StreamUP.Protocol.PoolSizes

/-! Sizes that have been registered are served within the margin, over whole histories of a pool. -/

namespace StreamUP

open Machine BufferUtil

namespace SendPacketPool

variable {pool : SendPacketPool} {bufferSize : Nat}

/-- Some class is as big as a size, and exceeds it by no more than the margin. -/
def Covers (pool : SendPacketPool) (bufferSize : Nat) : Prop :=
  ∃ classSize ∈ pool.sendPackets, bufferSize ≤ classSize ∧
    (classSize : Int) ≤ bufferSize + pool.margin

/-- The smallest class that is big enough is within the margin where any class is. -/
theorem Covers.servedSize_le (covers : pool.Covers bufferSize) :
    (pool.servedSize bufferSize : Int) ≤ bufferSize + pool.margin ∧
      pool.servedSize bufferSize ∈ pool.sendPackets := by
  obtain ⟨classSize, registered, big, within⟩ := covers
  unfold servedSize
  cases smallest : pool.lowerBound bufferSize with
  | none =>
    -- The class would be too small.
    have small := lowerBound_eq_none.mp smallest classSize registered
    omega
  | some least =>
    obtain ⟨⟨member, _⟩, below⟩ := lowerBound_eq_some.mp smallest
    have least_le : least ≤ classSize := below ⟨registered, big⟩
    rw [Option.getD_some]
    exact ⟨by omega, member⟩

/-- A size that is registered as a class of its own is covered by it. -/
theorem emplace_covers (nonneg : 0 ≤ pool.margin) :
    (pool.emplace bufferSize).Covers bufferSize := by
  unfold emplace
  split
  · rename_i registered
    exact ⟨bufferSize, registered, Nat.le_refl _, by omega⟩
  · exact ⟨bufferSize, (AList.mem_insert _).mpr (.inl rfl), Nat.le_refl _, by
      show (bufferSize : Int) ≤ bufferSize + pool.margin
      omega⟩

/-- Registering a size leaves it covered, by a class of its own or by one that was there. -/
theorem addClassSize_covers (nonneg : 0 ≤ pool.margin)
    (small : (bufferSize : Int) + pool.margin ≤ intMax) :
    (pool.addClassSize bufferSize).Covers bufferSize := by
  -- Neither the conversion of the margin nor the sum wraps.
  have upper : (toSizeT (bufferSize + toSizeT pool.margin) : Int)
      = bufferSize + pool.margin := by
    simp only [intMax] at small
    unfold toSizeT
    omega
  unfold addClassSize
  dsimp only
  split
  · rename_i classSize smallest
    obtain ⟨⟨registered, big⟩, _⟩ := lowerBound_eq_some.mp smallest
    split
    · rename_i within
      exact ⟨classSize, registered, big, by omega⟩
    · exact emplace_covers nonneg
  · exact emplace_covers nonneg

end SendPacketPool

namespace PoolState

open SendPacketPool

variable {Address : Type} [Inhabited Address] {state next : PoolState Address}

/-- Nothing takes a class away or changes the margin. -/
structure KeepsClasses (before after : PoolState Address) : Prop where
  margin : after.pool.margin = before.pool.margin
  classes : ∀ classSize ∈ before.pool.sendPackets, classSize ∈ after.pool.sendPackets

/-- Every call keeps the classes that there are. -/
theorem keepsClasses_of_effect {call : PoolCall Address} (effect : Effect state call next) :
    KeepsClasses state next := by
  -- A free list is only ever replaced, or added.
  cases effect with
  | unchanged => exact ⟨rfl, fun _ registered => registered⟩
  | classAdded bufferSize absent =>
    exact ⟨rfl, fun _ registered => (AList.mem_insert _).mpr (.inr registered)⟩
  | reused target list packet given =>
    exact ⟨rfl, fun _ registered => (AList.mem_insert _).mpr (.inr registered)⟩
  | allocated size pkt low high made => exact ⟨rfl, fun _ registered => registered⟩
  | filed packet pkt list holds there registered =>
    exact ⟨rfl, fun _ registered => (AList.mem_insert _).mpr (.inr registered)⟩
  | dropped packet holds => exact ⟨rfl, fun _ registered => registered⟩
  | touched packet pkt changed holds there same => exact ⟨rfl, fun _ registered => registered⟩

/-- Every run keeps the classes that there are. -/
theorem keepsClasses_of_run {host : Endian} {calls : List (PoolCall Address)}
    (arrived : Run.run (step host) state calls = .ok next) : KeepsClasses state next :=
  Run.run_related (step host) (fun _ => ⟨rfl, fun _ registered => registered⟩)
    (fun _ _ _ first second => ⟨second.margin.trans first.margin,
      fun classSize registered => second.classes classSize (first.classes classSize registered)⟩)
    (fun _ _ _ stepped => keepsClasses_of_effect (step_effect stepped)) arrived

/-- A class that was not there before has just been registered. -/
theorem effect_registers {call : PoolCall Address} (effect : Effect state call next)
    {classSize : Nat} (registered : classSize ∈ next.pool.sendPackets) :
    classSize ∈ state.pool.sendPackets ∨ call = .addClassSize classSize := by
  -- Replacing the list of a class needs the class to be there.
  have known : ∀ {target : Nat} {list vec : List Nat},
      state.pool.sendPackets.lookup target = some list →
      classSize ∈ state.pool.sendPackets.insert target vec →
      classSize ∈ state.pool.sendPackets := by
    intro target list vec there member
    rcases (AList.mem_insert _).mp member with rfl | before
    · exact AList.lookup_isSome.mp (by rw [there]; rfl)
    · exact before
  cases effect with
  | unchanged => exact .inl registered
  | classAdded bufferSize absent =>
    rcases (AList.mem_insert _).mp registered with rfl | before
    · exact .inr rfl
    · exact .inl before
  | reused target list packet given => exact .inl (known given registered)
  | allocated size pkt low high made => exact .inl registered
  | filed packet pkt list holds there filedUnder => exact .inl (known filedUnder registered)
  | dropped packet holds => exact .inl registered
  | touched packet pkt changed holds there same => exact .inl registered

/-- The margin is the pool's, and no class exceeds what an `int` can count, even by the margin. -/
structure Countable (margin : Int) (state : PoolState Address) : Prop where
  same : state.pool.margin = margin
  classes : ∀ classSize ∈ state.pool.sendPackets, (classSize : Int) + margin ≤ intMax

/-- Where only such sizes are registered, the classes stay countable. -/
theorem run_countable {host : Endian} {margin : Int}
    {own : List {packet : SendPacket Address // packet.Sized}} {calls : List (PoolCall Address)}
    (small : ∀ size : Nat, .addClassSize size ∈ calls → (size : Int) + margin ≤ intMax)
    (arrived : Run.run (step host) (holding margin own) calls = .ok state) :
    Countable margin state := by
  have admits : Run.EveryStep (step host)
      (fun _ call => ∀ size : Nat, call = .addClassSize size → (size : Int) + margin ≤ intMax)
      (holding margin own) calls :=
    Run.everyStep_of_forall (step host) fun call member size same => small size (same ▸ member)
  refine Run.run_invariant (step host) (Countable margin) ?_ ⟨rfl, ?_⟩ admits arrived
  · intro before call after countable admitted stepped
    have effect := step_effect stepped
    refine ⟨(keepsClasses_of_effect effect).margin.trans countable.same, ?_⟩
    intro classSize registered
    -- A class was there before, or the call has registered it.
    rcases effect_registers effect registered with old | rfl
    · exact countable.classes classSize old
    · exact admitted classSize rfl
  · intro classSize registered
    contradiction

/-- A size that is covered stays covered along every run. -/
theorem run_covers {host : Endian} {bufferSize : Nat} {calls : List (PoolCall Address)}
    (covers : state.pool.Covers bufferSize)
    (arrived : Run.run (step host) state calls = .ok next) : next.pool.Covers bufferSize := by
  -- The class that covers it is never taken away.
  obtain ⟨classSize, registered, big, within⟩ := covers
  have kept := keepsClasses_of_run arrived
  exact ⟨classSize, kept.classes classSize registered, big, by rw [kept.margin]; exact within⟩

/--
Once a size has been registered, it is served within the margin for ever.

Other sizes may be registered before and after it, in any order.
-/
theorem registered_served {host : Endian} {margin : Int}
    {own : List {packet : SendPacket Address // packet.Sized}}
    {before after : List (PoolCall Address)} {bufferSize : Nat} (nonneg : 0 ≤ margin)
    (small : ∀ size : Nat, .addClassSize size ∈ before ++ .addClassSize bufferSize :: after →
      (size : Int) + margin ≤ intMax)
    (arrived : Run.run (step host) (holding margin own)
      (before ++ .addClassSize bufferSize :: after) = .ok state) :
    (∃ classSize ∈ state.pool.sendPackets, bufferSize ≤ classSize ∧
        (classSize : Int) ≤ bufferSize + margin) ∧
      ∃ packet heap pool pkt,
        state.pool.getSendPacket state.heap bufferSize = .ok (packet, heap, pool) ∧
        heap[packet]? = some pkt ∧ bufferSize ≤ pkt.bufferCapacity ∧
        (pkt.bufferCapacity : Int) ≤ bufferSize + margin := by
  have owned := (run_managed own arrived).1
  have countable := run_countable small arrived
  obtain ⟨middle, arrived₁, rest⟩ := (Run.run_append_ok (step host)).mp arrived
  obtain ⟨registered, stepped, arrived₂⟩ := (Run.run_cons_ok (step host)).mp rest
  -- The size is covered from the moment on at which it is registered.
  have sofar := (run_countable (fun size member => small size (List.mem_append_left _ member))
    arrived₁).same
  have covered : registered.pool.Covers bufferSize := by
    cases stepped
    exact addClassSize_covers (by rw [sofar]; exact nonneg)
      (by rw [sofar]; exact small bufferSize (by simp))
  have covers := run_covers covered arrived₂
  obtain ⟨within, served⟩ := covers.servedSize_le
  rw [countable.same] at within
  -- The class that serves it is countable, so the request gets a packet of that size.
  have class_small := countable.classes _ served
  obtain ⟨packet, heap, pool, pkt, handed, there, capacity⟩ :=
    getSendPacket_of_countable owned (Int.le_trans (Int.le_add_of_nonneg_right nonneg) class_small)
  refine ⟨⟨_, served, le_servedSize, within⟩, packet, heap, pool, pkt, handed, there, ?_, ?_⟩
  · rw [capacity]
    exact le_servedSize
  · rw [capacity]
    exact within

/-- The size 8 is served by the class 40, which is within the margin of 32. -/
theorem registered_eight :
    ∃ state : PoolState Nat, Run.run (step .little) (holding 32 [])
        ([.addClassSize 40] ++ .addClassSize 8 :: []) = .ok state ∧
      ∃ classSize ∈ state.pool.sendPackets, 8 ≤ classSize ∧ (classSize : Int) ≤ 8 + 32 := by
  obtain ⟨state, arrived⟩ : ∃ state : PoolState Nat, Run.run (step .little) (holding 32 [])
      ([.addClassSize 40] ++ .addClassSize 8 :: []) = .ok state := ⟨_, rfl⟩
  have small : ∀ size : Nat, (.addClassSize size : PoolCall Nat)
      ∈ [.addClassSize 40] ++ .addClassSize 8 :: [] → (size : Int) + 32 ≤ intMax := by
    intro size member
    -- Only two sizes are registered.
    simp only [List.singleton_append, List.mem_cons, PoolCall.addClassSize.injEq,
      List.not_mem_nil, or_false] at member
    simp only [intMax]
    omega
  exact ⟨state, arrived, (registered_served (by decide) small arrived).1⟩

end PoolState

end StreamUP
