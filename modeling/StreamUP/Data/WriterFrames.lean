import StreamUP.Data.WriterHistories

/-! Writes that fit, in any order and anywhere: the last one to cover a byte decides it. -/

namespace StreamUP.BufferUtil

open Fallible Machine Overlay

/-- A call that moves the write cursor or writes at it. -/
inductive FieldCall where
  | setWriteIndex (index : Int)
  | write (t : Arithmetic) (value : t.Value)
  | writeFromArray (source : SourceArray)

namespace FieldCall

/-- The index is inside the buffer, or what is written fits into the writable bytes. -/
def Fits (writer : WriteBufferWrapper) : FieldCall → Prop
  -- The writable bytes are those from the cursor to the end.
  | .setWriteIndex index => 0 ≤ index ∧ index ≤ writer.length
  | .write t _ => (t.size : Int) ≤ writer.length - writer.writeIndex
  | .writeFromArray source =>
    0 ≤ source.numBytes.val ∧ source.numBytes.val ≤ writer.length - writer.writeIndex

instance (writer : WriteBufferWrapper) : ∀ call : FieldCall, Decidable (call.Fits writer)
  | .setWriteIndex _ => inferInstanceAs (Decidable (_ ∧ _))
  | .write _ _ => inferInstanceAs (Decidable (_ ≤ _))
  | .writeFromArray _ => inferInstanceAs (Decidable (_ ∧ _))

/-- The ranges that calls write to and what they put there, from a position of the cursor on. -/
def writes (cursor : Nat) : List FieldCall → List (Nat × List Byte)
  | [] => []
  | .setWriteIndex index :: calls => writes index.toNat calls
  | .write t value :: calls =>
    -- The digits of the value are as many bytes as its type has.
    (cursor, BigEndian.toBytes t.size value) :: writes (cursor + t.size) calls
  | .writeFromArray source :: calls =>
    (cursor, source.bytes.take source.numBytes.val.toNat)
      :: writes (cursor + source.numBytes.val.toNat) calls

end FieldCall

namespace WriteBufferWrapper

/-- The cursor after a call, made without asking first. -/
def fieldCall (host : Endian) (writer : WriteBufferWrapper) :
    FieldCall → Except Fault WriteBufferWrapper
  | .setWriteIndex index => .ok (writer.setWriteIndex index)
  | .write t value => do
    let (_, after) ← writer.write host t value
    return after
  | .writeFromArray source => writer.writeFromArray source.bytes source.numBytes

/-- A cursor inside an object that holds at least the buffer the cursor is bounded by. -/
structure Placed (writer : WriteBufferWrapper) (cursor : Nat) : Prop extends
    Positioned writer cursor where
  bound : writer.length ≤ writer.data.length

variable {writer : WriteBufferWrapper} {cursor : Nat}

/-- Laying bytes that fit over the buffer leaves the cursor inside. -/
theorem Placed.overwrite (placed : Placed writer cursor) {bytes : List Byte}
    (room : cursor + bytes.length ≤ writer.data.length) :
    Placed (writer.overwrite cursor bytes) (cursor + bytes.length) where
  toPositioned := placed.toPositioned.overwrite room
  bound := placed.bound.trans (le_of_eq (congrArg Nat.cast (length_overlay room).symm))

/-- An array that fits is laid over the buffer at the cursor. -/
theorem Positioned.writeFromArray_eq (at_ : Positioned writer cursor) {source : SourceArray}
    (room : cursor + source.numBytes.val.toNat ≤ writer.data.length)
    (nonneg : 0 ≤ source.numBytes.val) :
    writer.writeFromArray source.bytes source.numBytes
      = .ok (writer.overwrite cursor (source.bytes.take source.numBytes.val.toNat)) := by
  have addressable := at_.addressable
  have count := source.length_copied
  have stored : writer.store (source.bytes.take source.numBytes.val.toNat)
      = .ok (overlay writer.data cursor (source.bytes.take source.numBytes.val.toNat)) :=
    at_.store_eq (by omega)
  -- The cursor moves by the count, which is the length of what is laid down.
  have moved : checkedInt (cursor + source.numBytes.val) = .ok (cursor + source.numBytes.val) :=
    checkedInt_of_nonneg (by omega) (by omega)
  rw [writeFromArray_eq_place]
  simp only [place, stored, moved, ok_bind, pure_eq_ok, WriteBufferWrapper.overwrite, count,
    at_.cursor, Int.toNat_of_nonneg nonneg]

/--
What a call does to its cursor, and to the calls that follow.

It succeeds with the cursor inside, and lays what it writes over the buffer.
-/
structure Lays (host : Endian) (writer : WriteBufferWrapper) (cursor : Nat) (call : FieldCall)
    (next : WriteBufferWrapper) (moved : Nat) (own : List (Nat × List Byte)) : Prop where
  called : writer.fieldCall host call = .ok next
  placed : Placed next moved
  laid : next.data = overlayAll writer.data own
  room : ∀ write ∈ own, write.1 + write.2.length ≤ writer.data.length
  split : ∀ calls, FieldCall.writes cursor (call :: calls) = own ++ FieldCall.writes moved calls

/-- A call that lays bytes over the buffer at the cursor does nothing else. -/
theorem Placed.lays (placed : Placed writer cursor) {host : Endian} {call : FieldCall}
    {bytes : List Byte} {count : Nat} (size : bytes.length = count)
    (room : cursor + count ≤ writer.data.length)
    (called : writer.fieldCall host call = .ok (writer.overwrite cursor bytes))
    (split : ∀ calls, FieldCall.writes cursor (call :: calls)
      = (cursor, bytes) :: FieldCall.writes (cursor + count) calls) :
    Lays host writer cursor call (writer.overwrite cursor bytes) (cursor + count)
      [(cursor, bytes)] := by
  subst size
  refine ⟨called, placed.overwrite room, rfl, ?_, split⟩
  intro write member
  rw [List.mem_singleton.mp member]
  exact room

/-- A call that fits lays what it writes over the buffer. -/
theorem Placed.fieldCall (placed : Placed writer cursor) (host : Endian) {call : FieldCall}
    (fits : call.Fits writer) : ∃ next moved own, Lays host writer cursor call next moved own := by
  have bound := placed.bound
  have at_cursor := placed.cursor
  cases call with
  | setWriteIndex index =>
    obtain ⟨low, high⟩ := fits
    have inside : index.toNat ≤ writer.data.length := by omega
    have same : index = index.toNat := by omega
    have next : Placed (writer.setWriteIndex index) index.toNat :=
      ⟨⟨placed.addressable, inside, same⟩, bound⟩
    -- Only the cursor moves.
    exact ⟨_, _, [], rfl, next, rfl, by simp, fun _ => rfl⟩
  | write t value =>
    have room : cursor + t.size ≤ writer.data.length := by
      unfold FieldCall.Fits at fits
      omega
    have wrote : writer.fieldCall host (.write t value)
        = .ok (writer.overwrite cursor (BigEndian.toBytes t.size value)) := by
      simp only [WriteBufferWrapper.fieldCall, placed.write_eq host value room, ok_bind,
        pure_eq_ok]
    have size := BigEndian.length_toBytes t.size value
    exact ⟨_, _, _, placed.lays size room wrote fun _ => rfl⟩
  | writeFromArray source =>
    obtain ⟨nonneg, within⟩ := fits
    have room : cursor + source.numBytes.val.toNat ≤ writer.data.length := by omega
    have wrote := placed.writeFromArray_eq room nonneg
    exact ⟨_, _, _, placed.lays source.length_copied room wrote fun _ => rfl⟩

/-- Calls that fit succeed, and lay what they write over the buffer one after the other. -/
theorem Placed.run (placed : Placed writer cursor) (host : Endian) {calls : List FieldCall}
    (fits : Run.EveryStep (WriteBufferWrapper.fieldCall host)
      (fun writer call => call.Fits writer) writer calls) :
    ∃ final, Run.run (WriteBufferWrapper.fieldCall host) writer calls = .ok final ∧
      final.data = overlayAll writer.data (FieldCall.writes cursor calls) ∧
      ∀ write ∈ FieldCall.writes cursor calls,
        write.1 + write.2.length ≤ writer.data.length := by
  -- The induction follows the run, and each call moves the cursor and changes the buffer.
  induction calls generalizing writer cursor with
  | nil => exact ⟨writer, rfl, rfl, fun _ member => absurd member List.not_mem_nil⟩
  | cons call calls ih =>
    obtain ⟨next, moved, own, lays⟩ := placed.fieldCall host fits.1
    obtain ⟨final, arrived, rest, room⟩ := ih lays.placed (fits.2 next lays.called)
    have same : next.data.length = writer.data.length := by
      rw [lays.laid, length_overlayAll lays.room]
    refine ⟨final, (Run.run_cons_ok _).mpr ⟨next, lays.called, arrived⟩, ?_, ?_⟩
    · rw [rest, lays.laid, lays.split, overlayAll_append]
    · intro write member
      rw [lays.split, List.mem_append] at member
      rcases member with now | later
      · exact lays.room write now
      · rw [← same]
        exact room write later

/-- Wherever calls that fit have led, the cursor is inside the buffer. -/
theorem Placed.of_run {middle : WriteBufferWrapper} (placed : Placed writer cursor)
    {host : Endian} {calls : List FieldCall}
    (fits : Run.EveryStep (WriteBufferWrapper.fieldCall host)
      (fun writer call => call.Fits writer) writer calls)
    (arrived : Run.run (WriteBufferWrapper.fieldCall host) writer calls = .ok middle) :
    ∃ moved, Placed middle moved := by
  refine Run.run_invariant (WriteBufferWrapper.fieldCall host)
    (fun writer => ∃ cursor, Placed writer cursor) ?_ ⟨cursor, placed⟩ fits arrived
  intro state call next somewhere fits called
  obtain ⟨cursor, placed⟩ := somewhere
  obtain ⟨other, moved, own, lays⟩ := placed.fieldCall host fits
  have same : next = other := Except.ok.inj (called.symm.trans lays.called)
  exact ⟨moved, same ▸ lays.placed⟩

/--
The last writer of a byte wins.

Each byte is the one put there by the last write to cover it, and the others stay as they were.
-/
structure LastWriterWins (start : WriteBufferWrapper) (calls : List FieldCall)
    (final : WriteBufferWrapper) : Prop where
  length : final.data.length = start.data.length
  covered : ∀ before write after position,
    FieldCall.writes start.writeIndex.toNat calls = before ++ write :: after →
      Covers write position → (∀ later ∈ after, ¬ Covers later position) →
        final.data[position]? = write.2[position - write.1]?
  untouched : ∀ position,
    (∀ write ∈ FieldCall.writes start.writeIndex.toNat calls, ¬ Covers write position) →
      final.data[position]? = start.data[position]?

/-- From a cursor inside its buffer, calls that fit let the last writer of each byte win. -/
theorem Placed.lastWriterWins (placed : Placed writer cursor) (host : Endian)
    {calls : List FieldCall}
    (fits : Run.EveryStep (WriteBufferWrapper.fieldCall host)
      (fun writer call => call.Fits writer) writer calls) :
    ∃ final, Run.run (WriteBufferWrapper.fieldCall host) writer calls = .ok final ∧
      LastWriterWins writer calls final := by
  obtain ⟨final, arrived, laid, room⟩ := placed.run host fits
  have start : writer.writeIndex.toNat = cursor := by
    rw [placed.cursor, Int.toNat_natCast]
  refine ⟨final, arrived, ?_, ?_, ?_⟩
  · rw [laid, length_overlayAll room]
  · intro before write after position split covers last
    rw [start] at split
    rw [split] at laid room
    rw [laid, getElem?_overlayAll_of_last room covers last]
  · intro position uncovered
    rw [start] at uncovered
    rw [laid, getElem?_overlayAll_of_uncovered room uncovered]

/--
Fields have a last writer, in a whole run and behind any part of it.

From any cursor inside its buffer, calls that fit succeed and let the last write to each byte win.
Calls made later, such as those that go back to patch a field, disturb no byte outside their ranges.
-/
theorem fieldCalls_lastWriter (placed : Placed writer cursor) (host : Endian)
    {calls : List FieldCall}
    (fits : Run.EveryStep (WriteBufferWrapper.fieldCall host)
      (fun writer call => call.Fits writer) writer calls) :
    ∃ final, Run.run (WriteBufferWrapper.fieldCall host) writer calls = .ok final ∧
      LastWriterWins writer calls final ∧
      ∀ before after, calls = before ++ after →
        ∃ middle, Run.run (WriteBufferWrapper.fieldCall host) writer before = .ok middle ∧
          Run.run (WriteBufferWrapper.fieldCall host) middle after = .ok final ∧
          LastWriterWins middle after final := by
  obtain ⟨final, arrived, wins⟩ := placed.lastWriterWins host fits
  refine ⟨final, arrived, wins, ?_⟩
  rintro before after rfl
  -- The cursor is inside its buffer behind the first part too, where the second one starts.
  obtain ⟨fits_before, fits_after⟩ := (Run.everyStep_append _).mp fits
  obtain ⟨middle, arrived_before, arrived_after⟩ := (Run.run_append_ok _).mp arrived
  obtain ⟨moved, placed_middle⟩ := placed.of_run fits_before arrived_before
  obtain ⟨last, arrived_last, wins_after⟩ :=
    placed_middle.lastWriterWins host (fits_after middle arrived_before)
  rw [arrived_after, Except.ok.injEq] at arrived_last
  exact ⟨middle, arrived_before, arrived_after, arrived_last ▸ wins_after⟩

/-- Two bytes, of which the second one is patched. -/
def patchedPair : List FieldCall :=
  [.write .uint16 0x0102, .setWriteIndex 1, .write .uint8 9]

/-- The patch wins over the byte it covers, and the other bytes are as the first write left them. -/
theorem patchedPair_lastWriter :
    LastWriterWins (new [7, 7, 7] 3) patchedPair ⟨[1, 9, 7], 3, 2⟩ := by
  have placed : Placed (new [7, 7, 7] 3) 0 :=
    ⟨positioned_new (show (3 : Int) ≤ 2147483647 by omega), Int.le_refl 3⟩
  have fits : Run.EveryStep (fieldCall .little) (fun writer call => call.Fits writer)
      (new [7, 7, 7] 3) patchedPair := by decide
  obtain ⟨final, arrived, wins, _⟩ := fieldCalls_lastWriter placed .little fits
  -- The run is computed.
  have computed : Run.run (fieldCall .little) (new [7, 7, 7] 3) patchedPair
      = .ok ⟨[1, 9, 7], 3, 2⟩ := by rfl
  rw [computed, Except.ok.injEq] at arrived
  exact arrived ▸ wins

end WriteBufferWrapper

end StreamUP.BufferUtil
