import StreamUP.Data.WriteBufferWrapper
import StreamUP.Foundation.Run

/-! Histories of a write cursor that asks before it writes: when its guard keeps it in bounds. -/

namespace StreamUP.BufferUtil

open Fallible Machine

/-- Memory to write to, of a size that an `int` can count. -/
structure OutputBuffer where
  bytes : List Byte
  countable : (bytes.length : Int) ≤ intMax

/-- The arguments `src, numBytes` of a call: the array holds at least what is copied from it. -/
structure SourceArray where
  bytes : List Byte
  numBytes : IntValue
  holds : numBytes.val ≤ bytes.length

/-- As many bytes are copied from an array as the count says. -/
theorem SourceArray.length_copied (source : SourceArray) :
    (source.bytes.take source.numBytes.val.toNat).length = source.numBytes.val.toNat := by
  have holds := source.holds
  rw [List.length_take]
  omega

/-- A call of a write cursor. -/
inductive WriterCall where
  | setWriteIndex (index : IntValue)
  | ensureWritableBytes (numBytes : IntValue)
  | write (t : Arithmetic) (value : t.Value)
  | writeFromArray (source : SourceArray)

/-- The call neither sets a negative index nor asks for a negative count. -/
def WriterCall.Nonnegative : WriterCall → Prop
  -- The sizes of types are never negative.
  | .setWriteIndex index => 0 ≤ index.val
  | .ensureWritableBytes _ | .write _ _ => True
  | .writeFromArray source => 0 ≤ source.numBytes.val

/-- The size a write asks its guard for. -/
def WriterCall.writes : WriterCall → Option Int
  -- Moving the cursor and asking the guard write nothing.
  | .setWriteIndex _ | .ensureWritableBytes _ => none
  | .write t _ => some t.size
  | .writeFromArray source => some source.numBytes.val

namespace WriteBufferWrapper

/-- Do something behind the guard, or leave the cursor as it is. -/
def guarded (writer : WriteBufferWrapper) (numBytes : Int)
    (behind : Except Fault WriteBufferWrapper) : Except Fault WriteBufferWrapper := do
  -- The guard itself can overflow.
  if ← writer.ensureWritableBytes numBytes then behind else return writer

/-- The cursor after a call, every write being preceded by the guard for its size. -/
def call (host : Endian) (writer : WriteBufferWrapper) :
    WriterCall → Except Fault WriteBufferWrapper
  | .setWriteIndex index => .ok (writer.setWriteIndex index)
  | .ensureWritableBytes numBytes => writer.guarded numBytes (.ok writer)
  | .write t value => writer.guarded t.size do
    let (_, after) ← writer.write host t value
    return after
  | .writeFromArray source =>
    writer.guarded source.numBytes (writer.writeFromArray source.bytes source.numBytes)

/-- A write whose guard has passed leaves the cursor inside the buffer. -/
def EndsInside (writer : WriteBufferWrapper) (call : WriterCall) (next : WriteBufferWrapper) :
    Prop :=
  ∀ numBytes, call.writes = some numBytes → writer.ensureWritableBytes numBytes = .ok true →
    0 ≤ next.writeIndex ∧ next.writeIndex ≤ next.length

/--
Guarded writes are safe along a run.

No byte is written outside the buffer, no difference or sum overflows, and every write leaves the
cursor inside.
-/
structure GuardedWritesSafe (host : Endian) (buffer : OutputBuffer) (calls : List WriterCall) :
    Prop where
  noFault : ∀ fault, Run.run (call host) (new buffer.bytes buffer.bytes.length) calls
    ≠ .error fault
  endsInside : Run.EveryStep (call host) (fun writer call => ∀ next,
    writer.call host call = .ok next → writer.EndsInside call next)
    (new buffer.bytes buffer.bytes.length) calls

/-- The difference the guard computes is an `int`. -/
def GuardFits (writer : WriteBufferWrapper) : Prop := writer.length - writer.writeIndex ≤ intMax

/-- What the guard lets through neither starts nor ends in front of the buffer. -/
def GuardCovers (writer : WriteBufferWrapper) (numBytes : Int) : Prop :=
  -- The guard compares with the end of the buffer only.
  writer.GuardFits ∧ (writer.writeIndex + numBytes ≤ writer.length →
    0 ≤ writer.writeIndex ∧ 0 ≤ writer.writeIndex + numBytes)

/-- The guard of the call, if it has one, is computed exactly and is all the call needs. -/
def CallFits (writer : WriteBufferWrapper) : WriterCall → Prop
  | .setWriteIndex _ => True
  | .ensureWritableBytes _ => writer.GuardFits
  | .write t _ => writer.GuardCovers t.size
  | .writeFromArray source => writer.GuardCovers source.numBytes

/-- The bound of the cursor is the size of its buffer, and both numbers are an `int`. -/
structure Framed (writer : WriteBufferWrapper) : Prop where
  bound : writer.length = writer.data.length
  countable : writer.length ≤ intMax
  low : intMin ≤ writer.writeIndex
  high : writer.writeIndex ≤ intMax

/-- A new cursor over a buffer is bounded by it. -/
theorem framed_new (buffer : OutputBuffer) : (new buffer.bytes buffer.bytes.length).Framed :=
  ⟨rfl, buffer.countable, show intMin ≤ 0 by decide, show 0 ≤ intMax by decide⟩

/-- The guard compares exactly where its difference is an `int`. -/
theorem ensureWritableBytes_eq {writer : WriteBufferWrapper} (framed : writer.Framed)
    (fits : writer.GuardFits) (numBytes : Int) :
    writer.ensureWritableBytes numBytes
      = .ok (decide (writer.writeIndex + numBytes ≤ writer.length)) := by
  -- The bound is not negative, so the difference cannot be too small.
  have bound := framed.bound
  have high := framed.high
  unfold GuardFits at fits
  have exact_difference : writer.getWritableBytes = .ok (writer.length - writer.writeIndex) := by
    refine checkedInt_ok.mpr ⟨rfl, ?_, fits⟩
    simp only [intMax, intMin] at high ⊢
    omega
  simp only [ensureWritableBytes, exact_difference, ok_bind, pure_eq_ok, Except.ok.injEq,
    decide_eq_decide]
  omega

/-- Where the difference is no `int`, the guard overflows, and so does what asks it. -/
theorem guarded_overflows {writer : WriteBufferWrapper} (large : ¬ writer.GuardFits)
    (numBytes : Int) (behind : Except Fault WriteBufferWrapper) :
    ∃ fault, writer.guarded numBytes behind = .error fault := by
  -- The difference is too large, as the cursor stands far in front of the buffer.
  unfold GuardFits at large
  have overflows : writer.getWritableBytes
      = .error (.intOverflow (writer.length - writer.writeIndex)) :=
    checkedInt_of_lt (by omega)
  exact ⟨_, by simp only [guarded, ensureWritableBytes, overflows, error_bind]; rfl⟩

/-- Store bytes at the cursor and move it by a count. -/
def place (writer : WriteBufferWrapper) (bytes : List Byte) (numBytes : Int) :
    Except Fault WriteBufferWrapper := do
  -- Both kinds of write come down to this.
  let data ← writer.store bytes
  let index ← checkedInt (writer.writeIndex + numBytes)
  return { writer with data := data, writeIndex := index }

/-- A write stores the digits of its value and moves by the size of its type. -/
theorem write_eq_place (host : Endian) (t : Arithmetic) (value : t.Value)
    (writer : WriteBufferWrapper) :
    (do let (_, after) ← writer.write host t value; return after)
      = writer.place (BigEndian.toBytes t.size value) t.size := by
  -- The size of a type survives its conversion to `int`.
  have small := (size_bounds t).2
  have converted : toInt t.size = t.size :=
    toInt_of_mem (by simp only [intMin]; omega) (by simp only [intMax]; omega)
  simp only [WriteBufferWrapper.write, BufferUtil.write_eq, place, converted, bind_assoc]
  rfl

/-- A copy stores the front of its source and moves by the count. -/
theorem writeFromArray_eq_place (writer : WriteBufferWrapper) (source : SourceArray) :
    writer.writeFromArray source.bytes source.numBytes
      = writer.place (source.bytes.take source.numBytes.val.toNat) source.numBytes := by
  -- The source holds what is copied, so the copy reads inside of it.
  have holds := source.holds
  unfold writeFromArray
  dsimp only
  rw [if_neg (by omega)]
  rfl

/-- Placing succeeds with the cursor inside exactly when the run of bytes is inside at both ends. -/
theorem place_inside_iff {writer : WriteBufferWrapper} (framed : writer.Framed)
    {bytes : List Byte} {numBytes : Int} (count : bytes.length = numBytes.toNat)
    (passed : writer.writeIndex + numBytes ≤ writer.length) :
    (∃ next, writer.place bytes numBytes = .ok next ∧
        0 ≤ next.writeIndex ∧ next.writeIndex ≤ next.length) ↔
      0 ≤ writer.writeIndex ∧ 0 ≤ writer.writeIndex + numBytes := by
  have bound := framed.bound
  have countable := framed.countable
  constructor
  · intro placed
    obtain ⟨next, placed, low, _⟩ := placed
    simp only [place, bind_eq_ok, pure_eq_ok, Except.ok.injEq] at placed
    obtain ⟨data, stored, index, moved, rfl⟩ := placed
    obtain ⟨rfl, _⟩ := checkedInt_ok.mp moved
    refine ⟨?_, low⟩
    -- A store of some bytes checks the start, and without bytes the end is not behind it.
    unfold store at stored
    split at stored
    · rename_i empty
      simp only [empty, List.length_nil] at count
      simp only at low
      omega
    · split at stored
      · rename_i inside
        exact inside.1
      · contradiction
  · intro inside
    have stored : ∃ data, writer.store bytes = .ok data := by
      unfold store
      split
      · exact ⟨_, rfl⟩
      · rename_i some
        -- The run is not empty, so it ends where the cursor is moved to.
        have positive := List.length_pos_of_ne_nil some
        rw [if_pos (by omega)]
        exact ⟨_, rfl⟩
    obtain ⟨data, stored⟩ := stored
    have moved : checkedInt (writer.writeIndex + numBytes) = .ok (writer.writeIndex + numBytes) :=
      checkedInt_of_nonneg inside.2 (by omega)
    exact ⟨_, by simp only [place, stored, moved, ok_bind, pure_eq_ok]; rfl, inside.2, passed⟩

/-- A write behind its guard is safe exactly when the guard covers it. -/
theorem guarded_place_iff {writer : WriteBufferWrapper} (framed : writer.Framed)
    {bytes : List Byte} {numBytes : Int} (count : bytes.length = numBytes.toNat) :
    (∃ next, writer.guarded numBytes (writer.place bytes numBytes) = .ok next ∧
        (writer.ensureWritableBytes numBytes = .ok true →
          0 ≤ next.writeIndex ∧ next.writeIndex ≤ next.length)) ↔
      writer.GuardCovers numBytes := by
  unfold GuardCovers
  by_cases fits : writer.GuardFits
  · have asked := ensureWritableBytes_eq framed fits numBytes
    by_cases passed : writer.writeIndex + numBytes ≤ writer.length
    · rw [decide_eq_true passed] at asked
      simp only [guarded, asked, ok_bind, if_true, forall_const, fits, passed, true_and]
      exact place_inside_iff framed count passed
    · -- A guard that fails keeps the write from happening.
      rw [decide_eq_false passed] at asked
      simp [guarded, asked, fits, passed]
  · -- A guard that overflows is a fault.
    obtain ⟨fault, overflows⟩ := guarded_overflows fits numBytes (writer.place bytes numBytes)
    simp [overflows, fits]

/-- A call succeeds and ends well exactly when its guard is all it needs. -/
theorem call_iff {host : Endian} {writer : WriteBufferWrapper} (framed : writer.Framed)
    (call : WriterCall) :
    (∃ next, writer.call host call = .ok next ∧ writer.EndsInside call next) ↔
      writer.CallFits call := by
  cases call with
  | setWriteIndex index =>
    simp [WriteBufferWrapper.call, EndsInside, WriterCall.writes, CallFits]
  | ensureWritableBytes numBytes =>
    by_cases fits : writer.GuardFits
    · simp [WriteBufferWrapper.call, guarded, ensureWritableBytes_eq framed fits, EndsInside,
        WriterCall.writes, CallFits, fits]
    · obtain ⟨fault, overflows⟩ := guarded_overflows fits numBytes (.ok writer)
      simp [WriteBufferWrapper.call, overflows, CallFits, fits]
  | write t value =>
    have count : (BigEndian.toBytes t.size value).length = (t.size : Int).toNat :=
      BigEndian.length_toBytes t.size value
    simp only [WriteBufferWrapper.call, write_eq_place, EndsInside, WriterCall.writes, CallFits,
      Option.some.injEq, forall_eq']
    exact guarded_place_iff framed count
  | writeFromArray source =>
    simp only [WriteBufferWrapper.call, writeFromArray_eq_place, EndsInside, WriterCall.writes,
      CallFits, Option.some.injEq, forall_eq']
    exact guarded_place_iff framed source.length_copied

/-- Placing bytes keeps the bound of the cursor, and an index that is an `int`. -/
theorem Framed.place {writer next : WriteBufferWrapper} (framed : writer.Framed)
    {bytes : List Byte} {numBytes : Int} (placed : writer.place bytes numBytes = .ok next) :
    next.Framed := by
  -- The object keeps its size, and the sum has been checked.
  simp only [WriteBufferWrapper.place, bind_eq_ok, pure_eq_ok, Except.ok.injEq] at placed
  obtain ⟨data, stored, index, moved, rfl⟩ := placed
  obtain ⟨rfl, low, high⟩ := checkedInt_ok.mp moved
  exact ⟨by rw [length_of_store stored, framed.bound], framed.countable, low, high⟩

/-- Behind a guard the cursor stays as it was, or the guard has passed and something was done. -/
theorem guarded_cases {writer next : WriteBufferWrapper} {numBytes : Int}
    {behind : Except Fault WriteBufferWrapper}
    (done : writer.guarded numBytes behind = .ok next) :
    next = writer ∨ writer.ensureWritableBytes numBytes = .ok true ∧ behind = .ok next := by
  -- One case for each answer of the guard.
  simp only [guarded, bind_eq_ok] at done
  obtain ⟨passed, asked, branch⟩ := done
  cases passed with
  | true => exact .inr ⟨asked, branch⟩
  | false =>
    cases branch
    exact .inl rfl

/-- Every call keeps the bound of the cursor, and an index that is an `int`. -/
theorem Framed.call {host : Endian} {writer next : WriteBufferWrapper} {call : WriterCall}
    (framed : writer.Framed) (called : writer.call host call = .ok next) : next.Framed := by
  cases call with
  | setWriteIndex index =>
    cases called
    exact ⟨framed.bound, framed.countable, index.property.1, index.property.2⟩
  | ensureWritableBytes numBytes =>
    rcases guarded_cases called with same | ⟨_, same⟩
    · exact same ▸ framed
    · cases same
      exact framed
  | write t value =>
    rcases guarded_cases called with same | ⟨_, wrote⟩
    · exact same ▸ framed
    · rw [write_eq_place] at wrote
      exact framed.place wrote
  | writeFromArray source =>
    rcases guarded_cases called with same | ⟨_, wrote⟩
    · exact same ▸ framed
    · rw [writeFromArray_eq_place] at wrote
      exact framed.place wrote

/-- Placing bytes moves the cursor by their count. -/
theorem writeIndex_place {writer next : WriteBufferWrapper} {bytes : List Byte} {numBytes : Int}
    (placed : writer.place bytes numBytes = .ok next) :
    next.writeIndex = writer.writeIndex + numBytes := by
  -- The sum that is checked is the exact one.
  simp only [place, bind_eq_ok, pure_eq_ok, Except.ok.injEq] at placed
  obtain ⟨data, stored, index, moved, rfl⟩ := placed
  exact (checkedInt_ok.mp moved).1

/-- A call that is not negative keeps a cursor from getting in front of the buffer. -/
theorem nonnegative_call {host : Endian} {writer next : WriteBufferWrapper} {call : WriterCall}
    (start : 0 ≤ writer.writeIndex) (nonnegative : call.Nonnegative)
    (called : writer.call host call = .ok next) : 0 ≤ next.writeIndex := by
  -- The cursor is set, or it moves by a count, or it stays.
  cases call with
  | setWriteIndex index =>
    cases called
    exact nonnegative
  | ensureWritableBytes numBytes =>
    rcases guarded_cases called with same | ⟨_, same⟩
    · rw [same]
      exact start
    · cases same
      exact start
  | write t value =>
    rcases guarded_cases called with same | ⟨_, wrote⟩
    · rw [same]
      exact start
    · rw [write_eq_place] at wrote
      rw [writeIndex_place wrote]
      omega
  | writeFromArray source =>
    rcases guarded_cases called with same | ⟨_, wrote⟩
    · rw [same]
      exact start
    · rw [writeFromArray_eq_place] at wrote
      rw [writeIndex_place wrote]
      exact Int.add_nonneg start nonnegative

/-- A run is safe where the guard of every call is all the call needs. -/
theorem guardedWritesSafe_of_callFits {host : Endian} {buffer : OutputBuffer}
    {calls : List WriterCall} (fits : Run.EveryStep (call host) CallFits
      (new buffer.bytes buffer.bytes.length) calls) : GuardedWritesSafe host buffer calls := by
  -- Call by call, fitting is the same as succeeding and ending well.
  obtain ⟨noFault, endsInside⟩ := (Run.faultless_iff (call host) Framed
    (fun _ _ _ framed called => framed.call called) (fun _ call framed => call_iff framed call)
    (framed_new buffer)).mpr fits
  exact ⟨noFault, endsInside⟩

/-- In a run without negative indices and counts, guarded writes are safe. -/
theorem guardedWritesSafe_of_nonnegative (host : Endian) {buffer : OutputBuffer}
    {calls : List WriterCall} (nonnegative : ∀ call ∈ calls, call.Nonnegative) :
    GuardedWritesSafe host buffer calls := by
  -- The cursor never stands in front of the buffer, so the guard covers every write.
  refine guardedWritesSafe_of_callFits ?_
  have along := (Run.everyStep_of_forall (call host) nonnegative).with_invariant (call host)
    (fun writer => writer.Framed ∧ 0 ≤ writer.writeIndex)
    (fun _ _ _ kept nonnegative called =>
      ⟨kept.1.call called, nonnegative_call kept.2 nonnegative called⟩)
    ⟨framed_new buffer, Int.le_refl 0⟩
  refine along.mono (call host) ?_
  intro writer call both
  obtain ⟨⟨framed, start⟩, nonnegative⟩ := both
  have countable := framed.countable
  have fits : writer.GuardFits := by
    unfold GuardFits
    omega
  cases call with
  | setWriteIndex index => trivial
  | ensureWritableBytes numBytes => exact fits
  | write t value => exact ⟨fits, fun _ => ⟨start, by omega⟩⟩
  | writeFromArray source =>
    have count : 0 ≤ source.numBytes.val := nonnegative
    exact ⟨fits, fun _ => ⟨start, by omega⟩⟩

/-- Guarded writes are safe along a run exactly when each guard is all that its call needs. -/
theorem guardedWritesSafe_iff (host : Endian) (buffer : OutputBuffer) (calls : List WriterCall) :
    GuardedWritesSafe host buffer calls ↔
      Run.EveryStep (call host) CallFits (new buffer.bytes buffer.bytes.length) calls := by
  -- Call by call, fitting is the same as succeeding and ending well.
  constructor
  · intro safe
    exact (Run.faultless_iff (call host) Framed
      (fun _ _ _ framed called => framed.call called) (fun _ call framed => call_iff framed call)
      (framed_new buffer)).mp ⟨safe.noFault, safe.endsInside⟩
  · exact guardedWritesSafe_of_callFits

/-- A buffer of one byte. -/
def singleByteBuffer : OutputBuffer where
  bytes := [7]
  countable := by decide

/-- The guard lets a byte be written in front of the buffer. -/
theorem setNegative_not_safe :
    ¬ GuardedWritesSafe .little singleByteBuffer
      [.setWriteIndex ⟨-1, by decide⟩, .write .uint8 5] := by
  -- Two bytes count as writable behind the index -1, and the store goes to that index.
  intro safe
  exact safe.noFault (.writeOutside (-1) 1 1) rfl

end WriteBufferWrapper

end StreamUP.BufferUtil
