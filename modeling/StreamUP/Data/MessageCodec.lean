import StreamUP.Data.ReadBufferWrapper
import StreamUP.Data.WriteBufferWrapper
import StreamUP.Foundation.Run

/-! Whole messages: fields written in turn read back, and bytes read in turn write back. -/

namespace StreamUP.BufferUtil

open Machine BigEndian Overlay

/-- One field of a message: its type and its value. -/
abbrev Field : Type := Σ t : Arithmetic, t.Value

/-- The types of a message's fields, in order. -/
def schemaOf (fields : List Field) : List Arithmetic := fields.map Sigma.fst

/-- Bytes a schema takes up. -/
def schemaSize (schema : List Arithmetic) : Nat := (schema.map Arithmetic.size).sum

/-- Write one field with `write`, whose returned count nobody looks at. -/
def writeField (host : Endian) (writer : WriteBufferWrapper) (field : Field) :
    Except Fault WriteBufferWrapper := do
  -- The count that `write` returns is the size of the type.
  let (_, writer) ← writer.write host field.1 field.2
  return writer

/-- Write the fields in turn. -/
def writeMessage (host : Endian) (writer : WriteBufferWrapper) (fields : List Field) :
    Except Fault WriteBufferWrapper :=
  -- A message is written by a run of single writes on one cursor.
  Run.run (writeField host) writer fields

/-- Read the fields of a schema in turn with `read`. -/
def readMessage (host : Endian) : List Arithmetic → ReadBufferWrapper →
    Except Fault (List Field × ReadBufferWrapper)
  -- Each field is read where the one before it ended.
  | [], reader => .ok ([], reader)
  | t :: schema, reader => do
    let (value, reader) ← reader.read host t
    let (fields, reader) ← readMessage host schema reader
    return (⟨t, value⟩ :: fields, reader)

/-- The wire form of a message: the big-endian digits of its fields, one after the other. -/
def encodeMessage (fields : List Field) : List Byte :=
  fields.flatMap fun field => toBytes field.1.size field.2

/-- A message is as long on the wire as its schema says. -/
theorem length_encodeMessage (fields : List Field) :
    (encodeMessage fields).length = schemaSize (schemaOf fields) := by
  -- Every field has as many digits as its type has bytes.
  induction fields with
  | nil => rfl
  | cons field fields ih =>
    simp only [encodeMessage, schemaSize, schemaOf, List.flatMap_cons, List.length_append,
      List.map_cons, List.sum_cons, length_toBytes] at ih ⊢
    rw [ih]

/-- Writing the fields in turn lays the message's wire form over the object at the cursor. -/
theorem writeMessage_eq (host : Endian) {writer : WriteBufferWrapper} {index : Nat}
    (fields : List Field) (at_ : writer.Positioned index)
    (room : index + (encodeMessage fields).length ≤ writer.data.length) :
    writeMessage host writer fields = .ok (writer.overwrite index (encodeMessage fields)) := by
  -- Each field moves the cursor, so the writer and its index stay quantified over.
  induction fields generalizing writer index with
  | nil =>
    have cursor := at_.cursor
    cases writer
    simp_all [writeMessage, encodeMessage, WriteBufferWrapper.overwrite]
  | cons field fields ih =>
    obtain ⟨t, value⟩ := field
    have digits : (toBytes t.size value).length = t.size := length_toBytes t.size value
    simp only [encodeMessage, List.flatMap_cons, List.length_append, digits] at room
    have size : (writer.overwrite index (toBytes t.size value)).data.length = writer.data.length :=
      length_overlay (by omega)
    have moved : (writer.overwrite index (toBytes t.size value)).Positioned
        (index + (toBytes t.size value).length) :=
      at_.overwrite (by omega)
    have rest := ih moved (by rw [size, digits]; simp only [encodeMessage]; omega)
    -- The remaining fields go down right behind this one, so both lay down one run.
    simp only [WriteBufferWrapper.overwrite, overlay_overlay at_.inside] at rest
    have first : writeField host writer ⟨t, value⟩
        = .ok (writer.overwrite index (toBytes t.size value)) := by
      simp [writeField, at_.write_eq host value (by omega)]
    simp only [writeMessage, Run.run, first]
    simpa [writeMessage, encodeMessage, WriteBufferWrapper.overwrite, Int.add_assoc] using rest

/-- Reading a schema off the wire form of a message gives that message, and nothing after it. -/
theorem readMessage_encode (host : Endian) {reader : ReadBufferWrapper} {fields : List Field}
    {rest : List Byte} (at_ : reader.Positioned (encodeMessage fields ++ rest)) :
    ∃ final, readMessage host (schemaOf fields) reader = .ok (fields, final) ∧
      final.Positioned rest ∧ final.data = reader.data := by
  induction fields generalizing reader with
  | nil => exact ⟨reader, rfl, at_, rfl⟩
  | cons field fields ih =>
    obtain ⟨t, value⟩ := field
    have digits : (toBytes t.size value).length = t.size := length_toBytes t.size value
    simp only [encodeMessage, List.flatMap_cons, List.append_assoc] at at_
    have enough : t.size ≤ (toBytes t.size value ++ (encodeMessage fields ++ rest)).length := by
      simp only [List.length_append]
      omega
    have read := at_.read_eq host enough
    rw [List.take_left' digits, ofBytes_toBytes rfl] at read
    -- The cursor stands in front of the remaining fields, which the hypothesis reads.
    have advanced := at_.advance enough
    rw [List.drop_left' digits] at advanced
    obtain ⟨final, rest, placed, same⟩ := ih advanced
    refine ⟨final, ?_, placed, same⟩
    simp only [schemaOf] at rest
    simp [schemaOf, readMessage, read, rest]

/-- Reading a schema off arbitrary bytes gives the message those bytes are the wire form of. -/
theorem readMessage_decodes (host : Endian) {reader : ReadBufferWrapper}
    {schema : List Arithmetic} {bytes : List Byte} (at_ : reader.Positioned bytes)
    (enough : schemaSize schema ≤ bytes.length) :
    ∃ fields final, readMessage host schema reader = .ok (fields, final) ∧
      schemaOf fields = schema ∧ encodeMessage fields = bytes.take (schemaSize schema) ∧
      final.Positioned (bytes.drop (schemaSize schema)) ∧ final.data = reader.data := by
  -- The cursor moves with each field, so the reader and its bytes stay quantified over.
  induction schema generalizing reader bytes with
  | nil => exact ⟨[], reader, rfl, rfl, rfl, at_, rfl⟩
  | cons t schema ih =>
    simp only [schemaSize, List.map_cons, List.sum_cons] at enough ih ⊢
    have taken : (bytes.take t.size).length = t.size := by
      rw [List.length_take]
      omega
    have moved : (reader.advance t.size).Positioned (bytes.drop t.size) :=
      at_.advance (by omega)
    obtain ⟨fields, final, rest, types, wire, placed, same⟩ :=
      ih moved (by rw [List.length_drop]; omega)
    refine ⟨⟨t, ofBytes (8 * t.size) t.size (bytes.take t.size)⟩ :: fields, final, ?_, ?_, ?_, ?_,
      same⟩
    · have first := at_.read_eq host (t := t) (by omega)
      simp [readMessage, first, rest]
    · simpa [schemaOf] using types
    · -- The first digits are the bytes themselves, and the hypothesis gives the others.
      simp only [encodeMessage, List.flatMap_cons] at wire ⊢
      rw [wire, toBytes_ofBytes rfl taken, ← List.take_add]
    · simpa [List.drop_drop] using placed

/-- A message written to a buffer with room for it reads back, whatever the two byte orders. -/
theorem written_reads_back (writerHost readerHost : Endian) {fields : List Field}
    {data : List Byte} (room : schemaSize (schemaOf fields) ≤ data.length)
    (addressable : (data.length : Int) ≤ intMax) :
    ∃ writer reader,
      writeMessage writerHost (.new data data.length) fields = .ok writer ∧
      writer.getWriteIndex = schemaSize (schemaOf fields) ∧
      writer.data.length = data.length ∧
      writer.data.drop (schemaSize (schemaOf fields))
        = data.drop (schemaSize (schemaOf fields)) ∧
      readMessage readerHost (schemaOf fields) (.new writer.data) = .ok (fields, reader) ∧
      reader.getReadIndex = schemaSize (schemaOf fields) := by
  -- The buffer ends up as the wire form followed by what lay behind it before.
  have size := length_encodeMessage fields
  have start : (WriteBufferWrapper.new data data.length).Positioned 0 :=
    WriteBufferWrapper.positioned_new addressable
  have written := writeMessage_eq writerHost fields start
    (by simpa [WriteBufferWrapper.new, size] using room)
  have layout : ((WriteBufferWrapper.new data data.length).overwrite 0
      (encodeMessage fields)).data
      = encodeMessage fields ++ data.drop (schemaSize (schemaOf fields)) := by
    simp [WriteBufferWrapper.overwrite, WriteBufferWrapper.new, overlay, size]
  have kept : (encodeMessage fields ++ data.drop (schemaSize (schemaOf fields))).length
      = data.length := by
    rw [List.length_append, List.length_drop, size]
    omega
  have countable : (encodeMessage fields ++ data.drop (schemaSize (schemaOf fields))).length
      < sizeCount := by
    simp only [kept, intMax, sizeCount] at addressable ⊢
    omega
  obtain ⟨reader, read, placed, same⟩ :=
    readMessage_encode readerHost (ReadBufferWrapper.positioned_new countable)
  have total := placed.readIndex_add
  refine ⟨_, reader, written, ?_, by rw [layout, kept], ?_, by rw [layout]; exact read, ?_⟩
  · simp [WriteBufferWrapper.getWriteIndex, WriteBufferWrapper.overwrite, size]
  · rw [layout, List.drop_left' size]
  · -- What is left to read is exactly what lies behind the message.
    simp only [ReadBufferWrapper.length, same, ReadBufferWrapper.new, List.length_append,
      size] at total
    simp only [ReadBufferWrapper.getReadIndex]
    omega

/-- The message read off any bytes writes those bytes again, whatever the two byte orders. -/
theorem read_writes_back (writerHost readerHost : Endian) {schema : List Arithmetic}
    {bytes data : List Byte} (enough : schemaSize schema ≤ bytes.length)
    (finite : bytes.length < sizeCount) (room : schemaSize schema ≤ data.length)
    (addressable : (data.length : Int) ≤ intMax) :
    ∃ fields reader writer,
      readMessage readerHost schema (.new bytes) = .ok (fields, reader) ∧
      reader.getReadIndex = schemaSize schema ∧
      schemaOf fields = schema ∧
      writeMessage writerHost (.new data data.length) fields = .ok writer ∧
      writer.getWriteIndex = schemaSize schema ∧
      writer.data.take (schemaSize schema) = bytes.take (schemaSize schema) := by
  -- The bytes read are the wire form of the message, and the wire form is what gets written.
  obtain ⟨fields, reader, read, types, wire, placed, same⟩ :=
    readMessage_decodes readerHost (ReadBufferWrapper.positioned_new finite) enough
  have size : (encodeMessage fields).length = schemaSize schema := by
    rw [length_encodeMessage, types]
  have start : (WriteBufferWrapper.new data data.length).Positioned 0 :=
    WriteBufferWrapper.positioned_new addressable
  have written := writeMessage_eq writerHost fields start
    (by simpa [WriteBufferWrapper.new, size] using room)
  have total := placed.readIndex_add
  refine ⟨fields, reader, _, read, ?_, types, written, ?_, ?_⟩
  · -- The cursor has passed all bytes but those behind the schema.
    simp only [ReadBufferWrapper.length, same, ReadBufferWrapper.new, List.length_drop] at total
    simp only [ReadBufferWrapper.getReadIndex]
    omega
  · simp [WriteBufferWrapper.getWriteIndex, WriteBufferWrapper.overwrite, size]
  · have front : (overlay data 0 (encodeMessage fields)).take (0 + (encodeMessage fields).length)
        = data.take 0 ++ encodeMessage fields :=
      take_add_overlay (Nat.zero_le data.length)
    rw [Nat.zero_add, List.take_zero, List.nil_append, size] at front
    exact front.trans wire

/--
The codec is a bijection between messages of a schema and byte strings of its size.

Writer and reader may run on hosts of different byte orders.
-/
theorem message_codec (writerHost readerHost : Endian) :
    (∀ (fields : List Field) (data : List Byte),
      schemaSize (schemaOf fields) ≤ data.length → (data.length : Int) ≤ intMax →
      ∃ writer reader,
        writeMessage writerHost (.new data data.length) fields = .ok writer ∧
        writer.getWriteIndex = schemaSize (schemaOf fields) ∧
        writer.data.length = data.length ∧
        writer.data.drop (schemaSize (schemaOf fields))
          = data.drop (schemaSize (schemaOf fields)) ∧
        readMessage readerHost (schemaOf fields) (.new writer.data) = .ok (fields, reader) ∧
        reader.getReadIndex = schemaSize (schemaOf fields)) ∧
    (∀ (schema : List Arithmetic) (bytes data : List Byte),
      schemaSize schema ≤ bytes.length → bytes.length < sizeCount →
      schemaSize schema ≤ data.length → (data.length : Int) ≤ intMax →
      ∃ fields reader writer,
        readMessage readerHost schema (.new bytes) = .ok (fields, reader) ∧
        reader.getReadIndex = schemaSize schema ∧
        schemaOf fields = schema ∧
        writeMessage writerHost (.new data data.length) fields = .ok writer ∧
        writer.getWriteIndex = schemaSize schema ∧
        writer.data.take (schemaSize schema) = bytes.take (schemaSize schema)) := by
  -- One direction reads a message that was written, the other writes one that was read.
  constructor
  · intro fields data room addressable
    exact written_reads_back writerHost readerHost room addressable
  · intro schema bytes data enough finite room addressable
    exact read_writes_back writerHost readerHost enough finite room addressable

/-- A signed, an unsigned and a floating-point field cross from one host to the other. -/
theorem message_codec_sample :
    ∃ writer reader,
      writeMessage .little (.new (List.replicate 8 7) 8) [⟨.int8, -123⟩, ⟨.uint16, 4567⟩,
        ⟨.float, 0x43078811⟩] = .ok writer ∧
      writer.getWriteIndex = 7 ∧ writer.data.length = 8 ∧ writer.data.drop 7 = [7] ∧
      readMessage .big [.int8, .uint16, .float] (.new writer.data)
        = .ok ([⟨.int8, -123⟩, ⟨.uint16, 4567⟩, ⟨.float, 0x43078811⟩], reader) ∧
      reader.getReadIndex = 7 :=
  -- The schema takes up seven of the eight bytes.
  (message_codec .little .big).1 [⟨.int8, -123⟩, ⟨.uint16, 4567⟩, ⟨.float, 0x43078811⟩]
    (List.replicate 8 7) (by decide) (by decide)

end StreamUP.BufferUtil
