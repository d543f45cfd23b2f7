import StreamUP.Data.MessageCodec
import StreamUP.Data.WriterFrames

/-! Records: fields at places of their own, written in any order and read at random. -/

namespace StreamUP.BufferUtil

open Machine Overlay

/-- A field of a record, and the index it is written to. -/
structure PlacedField where
  offset : Nat
  field : Field

namespace PlacedField

/-- Bytes that the field takes up. -/
def size (placed : PlacedField) : Nat := placed.field.1.size

/-- The run of bytes that the field lays over the buffer. -/
def run (placed : PlacedField) : Nat × List Byte :=
  (placed.offset, BigEndian.toBytes placed.field.1.size placed.field.2)

/-- The calls that write the field to its place. -/
def calls (placed : PlacedField) : List FieldCall :=
  [.setWriteIndex placed.offset, .write placed.field.1 placed.field.2]

/-- Two fields have no byte in common. -/
def Apart (first second : PlacedField) : Prop :=
  first.offset + first.size ≤ second.offset ∨ second.offset + second.size ≤ first.offset

theorem length_run (placed : PlacedField) : placed.run.2.length = placed.size :=
  BigEndian.length_toBytes ..

/-- Fields without a byte in common are runs that lie apart. -/
theorem Apart.runs {first second : PlacedField} (apart : Apart first second) :
    Overlay.Apart first.run second.run := by
  unfold Overlay.Apart
  rw [length_run, length_run]
  exact apart

end PlacedField

/-- The fields of a record fit into a buffer of the length, and none shares a byte with another. -/
structure RecordLayout (fields : List PlacedField) (length : Nat) : Prop where
  inside : ∀ placed ∈ fields, placed.offset + placed.size ≤ length
  apart : fields.Pairwise PlacedField.Apart

/-- The runs of the fields fit, and lie apart. -/
theorem RecordLayout.runs {fields : List PlacedField} {length : Nat}
    (layout : RecordLayout fields length) :
    (fields.map PlacedField.run).Pairwise Overlay.Apart ∧
      ∀ run ∈ fields.map PlacedField.run, run.1 + run.2.length ≤ length := by
  refine ⟨List.pairwise_map.mpr (layout.apart.imp PlacedField.Apart.runs), ?_⟩
  intro run member
  obtain ⟨placed, among, rfl⟩ := List.mem_map.mp member
  rw [PlacedField.length_run]
  exact layout.inside placed among

namespace WriteBufferWrapper

variable {writer : WriteBufferWrapper} {cursor : Nat}

/-- Writing a field to its place lays its digits over the buffer there. -/
theorem Placed.run_field (at_ : Placed writer cursor) (host : Endian) {placed : PlacedField}
    (inside : placed.offset + placed.size ≤ writer.data.length) :
    ∃ next, Run.run (WriteBufferWrapper.fieldCall host) writer placed.calls = .ok next ∧
      Placed next (placed.offset + placed.size) ∧
      next.data = Overlay.overlay writer.data placed.run.1 placed.run.2 := by
  have start : placed.offset ≤ writer.data.length := by omega
  have moved : Placed (writer.setWriteIndex placed.offset) placed.offset :=
    ⟨⟨at_.addressable, start, rfl⟩, at_.bound⟩
  have digits := placed.length_run
  have wrote := moved.write_eq host placed.field.2 inside
  have kept : Placed ((writer.setWriteIndex placed.offset).overwrite placed.offset placed.run.2)
      (placed.offset + placed.run.2.length) := moved.overwrite (by rw [digits]; exact inside)
  rw [digits] at kept
  refine ⟨_, ?_, kept, rfl⟩
  -- The cursor is set first, and the write starts there.
  simp only [PlacedField.calls, Run.run, WriteBufferWrapper.fieldCall, wrote]
  rfl

/-- Writing fields to their places lays them over the buffer one after the other. -/
theorem Placed.run_fields (at_ : Placed writer cursor) (host : Endian)
    {fields : List PlacedField}
    (inside : ∀ placed ∈ fields, placed.offset + placed.size ≤ writer.data.length) :
    ∃ final, Run.run (WriteBufferWrapper.fieldCall host) writer
        (fields.flatMap PlacedField.calls) = .ok final ∧
      final.data = overlayAll writer.data (fields.map PlacedField.run) := by
  -- Each field moves the cursor and changes the buffer, but not its length.
  induction fields generalizing writer cursor with
  | nil => exact ⟨writer, rfl, rfl⟩
  | cons placed fields ih =>
    rw [List.forall_mem_cons] at inside
    obtain ⟨next, wrote, moved, laid⟩ := at_.run_field host inside.1
    have same : next.data.length = writer.data.length := by
      rw [laid]
      exact length_overlay (by rw [placed.length_run]; exact inside.1)
    obtain ⟨final, rest, whole⟩ := ih moved (by rw [same]; exact inside.2)
    refine ⟨final, ?_, ?_⟩
    · rw [List.flatMap_cons]
      exact (Run.run_append_ok _).mpr ⟨next, wrote, rest⟩
    · rw [whole, laid]
      rfl

end WriteBufferWrapper

end StreamUP.BufferUtil
