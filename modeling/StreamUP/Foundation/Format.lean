import Mathlib.Data.List.Induction
import StreamUP.Foundation.BigEndian
import StreamUP.Foundation.Refinement

/-! Self-delimiting byte formats: values written one after the other that read back uniquely. -/

open Machine

/--
A way of writing values as bytes so that they can be read back off the front of any input.

What follows an encoded value never matters, and only encoded values are read.
-/
structure Format (α : Type) where
  Valid : α → Prop
  encode : α → List Byte
  decode : List Byte → Option (α × List Byte)
  decode_encode : ∀ value rest, Valid value → decode (encode value ++ rest) = some (value, rest)
  encode_decode : ∀ bytes value rest, decode bytes = some (value, rest) →
    Valid value ∧ bytes = encode value ++ rest

namespace Format

variable {α β : Type}

/-- Decoding succeeds exactly on the encodings of valid values. -/
theorem decode_iff (format : Format α) {bytes rest : List Byte} {value : α} :
    format.decode bytes = some (value, rest) ↔
      format.Valid value ∧ bytes = format.encode value ++ rest := by
  -- One direction for each of the two laws of a format.
  constructor
  · exact format.encode_decode bytes value rest
  · rintro ⟨valid, rfl⟩
    exact format.decode_encode value rest valid

/-- What follows the bytes that were read only lengthens the rest. -/
theorem decode_append (format : Format α) {bytes rest : List Byte} {value : α}
    (decoded : format.decode bytes = some (value, rest)) (tail : List Byte) :
    format.decode (bytes ++ tail) = some (value, rest ++ tail) := by
  -- The bytes are the encoding and the rest, so the encoding is still in front.
  obtain ⟨valid, rfl⟩ := format.decode_iff.mp decoded
  rw [List.append_assoc]
  exact format.decode_encode value (rest ++ tail) valid

/-- Cutting the bytes behind an encoded value cuts the rest. -/
theorem decode_take (format : Format α) {bytes rest : List Byte} {value : α} {count : Nat}
    (decoded : format.decode bytes = some (value, rest))
    (within : (format.encode value).length ≤ count) :
    format.decode (bytes.take count)
      = some (value, rest.take (count - (format.encode value).length)) := by
  -- The encoding is in front of the cut.
  obtain ⟨valid, rfl⟩ := format.decode_iff.mp decoded
  rw [List.take_append, List.take_of_length_le within]
  exact format.decode_encode value _ valid

/-- The value that takes up no bytes. -/
def nothing (only : α) : Format α where
  -- Nothing is read, so nothing can be wrong with it.
  Valid value := value = only
  encode _ := []
  decode bytes := some (only, bytes)
  decode_encode := by rintro value rest rfl; rfl
  encode_decode := by
    intro bytes value rest decoded
    simp only [Option.some.injEq, Prod.mk.injEq] at decoded
    exact ⟨decoded.1.symm, decoded.2⟩

/-- A value that stands for itself as a big-endian number of the given number of bytes. -/
def number (count : Nat) : Format (BitVec (8 * count)) where
  -- Every bit pattern of the width is a value.
  Valid _ := True
  encode value := BigEndian.toBytes count value
  decode bytes :=
    if count ≤ bytes.length then
      some (BigEndian.ofBytes (8 * count) count (bytes.take count), bytes.drop count)
    else none
  decode_encode := by
    intro value rest _
    have digits := BigEndian.length_toBytes count value
    have room : count ≤ (BigEndian.toBytes count value ++ rest).length := by
      rw [List.length_append]
      omega
    rw [if_pos room, List.take_left' digits, List.drop_left' digits, BigEndian.ofBytes_toBytes rfl]
  encode_decode := by
    intro bytes value rest decoded
    split at decoded
    · rename_i enough
      simp only [Option.some.injEq, Prod.mk.injEq] at decoded
      obtain ⟨rfl, rfl⟩ := decoded
      refine ⟨trivial, ?_⟩
      rw [BigEndian.toBytes_ofBytes rfl (by rw [List.length_take]; omega), List.take_append_drop]
    · contradiction

/-- Two values in order, the format of the second depending on the first. -/
def andThen (first : Format α) (second : α → Format β) : Format (α × β) where
  -- The second format may depend on the first value, as keys depend on a count.
  Valid value := first.Valid value.1 ∧ (second value.1).Valid value.2
  encode value := first.encode value.1 ++ (second value.1).encode value.2
  decode bytes :=
    (first.decode bytes).bind fun (head, middle) =>
      ((second head).decode middle).bind fun (tail, rest) => some ((head, tail), rest)
  decode_encode := by
    rintro ⟨head, tail⟩ rest ⟨headValid, tailValid⟩
    simp [List.append_assoc, first.decode_encode head _ headValid,
      (second head).decode_encode tail _ tailValid]
  encode_decode := by
    rintro bytes ⟨head, tail⟩ rest decoded
    simp only [Option.bind_eq_some_iff, Prod.exists, Option.some.injEq, Prod.mk.injEq] at decoded
    obtain ⟨_, middle, firstRead, _, _, secondRead, ⟨rfl, rfl⟩, rfl⟩ := decoded
    obtain ⟨headValid, front⟩ := first.encode_decode _ _ _ firstRead
    obtain ⟨tailValid, back⟩ := (second _).encode_decode _ _ _ secondRead
    exact ⟨⟨headValid, tailValid⟩, by rw [front, back, List.append_assoc]⟩

/-- The same bytes read as values of another type. -/
def transport (format : Format α) (Valid : β → Prop) (up : α → β) (down : β → α)
    (valid_up : ∀ value, format.Valid value → Valid (up value))
    (valid_down : ∀ value, Valid value → format.Valid (down value))
    (up_down : ∀ value, Valid value → up (down value) = value)
    (down_up : ∀ value, format.Valid value → down (up value) = value) : Format β where
  -- The two maps are inverse to each other on the valid values.
  Valid := Valid
  encode value := format.encode (down value)
  decode bytes := (format.decode bytes).map fun (value, rest) => (up value, rest)
  decode_encode := by
    intro value rest valid
    simp [format.decode_encode _ rest (valid_down value valid), up_down value valid]
  encode_decode := by
    intro bytes value rest decoded
    simp only [Option.map_eq_some_iff, Prod.exists, Prod.mk.injEq] at decoded
    obtain ⟨source, _, read, rfl, rfl⟩ := decoded
    obtain ⟨valid, front⟩ := format.encode_decode _ _ _ read
    exact ⟨valid_up source valid, by rw [down_up source valid, front]⟩

/-- The values of a format that meet a decidable condition. -/
def restrict (format : Format α) (condition : α → Prop) [DecidablePred condition] : Format α where
  -- A value outside the condition is not written, and not read either.
  Valid value := format.Valid value ∧ condition value
  encode := format.encode
  decode bytes := (format.decode bytes).bind fun (value, rest) =>
    if condition value then some (value, rest) else none
  decode_encode := by
    rintro value rest ⟨valid, met⟩
    simp [format.decode_encode value rest valid, met]
  encode_decode := by
    intro bytes value rest decoded
    simp only [Option.bind_eq_some_iff, Prod.exists] at decoded
    obtain ⟨source, _, read, kept⟩ := decoded
    split at kept
    · rename_i met
      simp only [Option.some.injEq, Prod.mk.injEq] at kept
      obtain ⟨rfl, rfl⟩ := kept
      obtain ⟨valid, front⟩ := format.encode_decode _ _ _ read
      exact ⟨⟨valid, met⟩, front⟩
    · contradiction

/-- Read one more item behind those already read. -/
def decodeItem (item : Format α) (_ : Nat) (sofar : List α × List Byte) :
    Option (List α × List Byte) :=
  -- The item goes behind the ones before it, and the rest is left for the next.
  (item.decode sofar.2).bind fun (value, rest) => some (sofar.1 ++ [value], rest)

/-- Items written in turn are read back in turn. -/
theorem iterate_decodeItem_encode (item : Format α) (values : List α) (rest : List Byte)
    (valid : ∀ value ∈ values, item.Valid value) :
    Refinement.iterate item.decodeItem values.length ([], values.flatMap item.encode ++ rest)
      = some (values, rest) := by
  -- The loop peels off its last item, so the induction is on the end of the list.
  induction values using List.reverseRecOn generalizing rest with
  | nil => rfl
  | append_singleton values last ih =>
    have front := ih (item.encode last ++ rest) fun value member => valid value (by simp [member])
    rw [List.length_append, List.length_singleton, Refinement.iterate, List.flatMap_append,
      List.append_assoc]
    simp only [List.flatMap_singleton, front, Option.bind_some]
    simp [decodeItem, item.decode_encode last rest (valid last (by simp))]

/-- Items read in turn are as many as were asked for, and were written in turn. -/
theorem encode_iterate_decodeItem (item : Format α) {count : Nat} {bytes rest : List Byte}
    {values : List α}
    (decoded : Refinement.iterate item.decodeItem count ([], bytes) = some (values, rest)) :
    values.length = count ∧ (∀ value ∈ values, item.Valid value) ∧
      bytes = values.flatMap item.encode ++ rest := by
  -- The loop peels off its last item, so the induction is on the count.
  induction count generalizing values rest with
  | zero =>
    simp only [Refinement.iterate, Option.some.injEq, Prod.mk.injEq] at decoded
    obtain ⟨rfl, rfl⟩ := decoded
    simp
  | succ count ih =>
    simp only [Refinement.iterate, decodeItem, Option.bind_eq_some_iff, Prod.exists,
      Option.some.injEq, Prod.mk.injEq] at decoded
    obtain ⟨front, middle, before, last, _, read, rfl, rfl⟩ := decoded
    obtain ⟨length, valid, bytesEq⟩ := ih before
    obtain ⟨lastValid, middleEq⟩ := item.encode_decode _ _ _ read
    refine ⟨by simp [length], ?_, ?_⟩
    · intro value member
      rcases List.mem_append.mp member with member | member
      · exact valid value member
      · rw [List.mem_singleton.mp member]
        exact lastValid
    · simp [bytesEq, middleEq]

/-- A known number of items, one after the other. -/
def times (item : Format α) (count : Nat) : Format (List α) where
  -- Reading is the counted loop of the code, one item in each round.
  Valid values := values.length = count ∧ ∀ value ∈ values, item.Valid value
  encode values := values.flatMap item.encode
  decode bytes := Refinement.iterate item.decodeItem count ([], bytes)
  decode_encode := by
    rintro values rest ⟨rfl, valid⟩
    exact iterate_decodeItem_encode item values rest valid
  encode_decode := by
    intro bytes values rest decoded
    obtain ⟨length, valid, bytesEq⟩ := encode_iterate_decodeItem item decoded
    exact ⟨⟨length, valid⟩, bytesEq⟩

/-- A big-endian count of so many bytes, below a limit that those bytes can express. -/
def countBelow (width limit : Nat) (expressible : limit ≤ 2 ^ (8 * width)) : Format Nat :=
  -- A count is a number that is compared with the limit once it has been read.
  ((number width).restrict fun value => value.toNat < limit).transport (· < limit)
    BitVec.toNat (BitVec.ofNat (8 * width))
    (by
      rintro value ⟨_, small⟩
      exact small)
    (by
      intro value small
      refine ⟨trivial, ?_⟩
      show (BitVec.ofNat (8 * width) value).toNat < limit
      rwa [BitVec.toNat_ofNat, Nat.mod_eq_of_lt (by omega)])
    (by
      intro value small
      rw [BitVec.toNat_ofNat, Nat.mod_eq_of_lt (by omega)])
    (by
      intro value _
      rw [BitVec.ofNat_toNat, BitVec.setWidth_eq])

/-- A count and then that many items. -/
def counted (width limit : Nat) (expressible : limit ≤ 2 ^ (8 * width)) (item : Format α) :
    Format (List α) :=
  -- The count is not part of the value, since the list knows its own length.
  ((countBelow width limit expressible).andThen item.times).transport
    (fun values => values.length < limit ∧ ∀ value ∈ values, item.Valid value)
    Prod.snd (fun values => (values.length, values))
    (by
      rintro ⟨count, values⟩ ⟨small, length, valid⟩
      exact ⟨Nat.lt_of_le_of_lt (Nat.le_of_eq length) small, valid⟩)
    (by
      rintro values ⟨small, valid⟩
      exact ⟨small, rfl, valid⟩)
    (by
      intro values _
      rfl)
    (by
      rintro ⟨count, values⟩ ⟨_, length, _⟩
      exact Prod.ext length rfl)

/-- Reading a count takes its bytes off the front and compares the number with the limit. -/
theorem decode_countBelow {width limit : Nat} (expressible : limit ≤ 2 ^ (8 * width))
    (bytes : List Byte) :
    (countBelow width limit expressible).decode bytes
      = if width ≤ bytes.length then
          if (BigEndian.ofBytes (8 * width) width (bytes.take width)).toNat < limit then
            some ((BigEndian.ofBytes (8 * width) width (bytes.take width)).toNat, bytes.drop width)
          else none
        else none := by
  -- Unfolded, the format takes the bytes off the front and makes the comparison.
  simp only [countBelow, transport, restrict, number]
  split
  · rw [Option.bind_some]
    split <;> rfl
  · rfl

/-- Reading counted items reads the count and then so many items. -/
theorem decode_counted {width limit : Nat} (expressible : limit ≤ 2 ^ (8 * width))
    (item : Format α) (bytes : List Byte) :
    (counted width limit expressible item).decode bytes
      = ((countBelow width limit expressible).decode bytes).bind fun (count, rest) =>
          (item.times count).decode rest := by
  -- Dropping the count from the pair does not change where the reading stops.
  simp only [counted, transport, andThen]
  cases (countBelow width limit expressible).decode bytes with
  | none => rfl
  | some found =>
    obtain ⟨count, rest⟩ := found
    simp only [Option.bind_some]
    cases (item.times count).decode rest <;> rfl

/-- Items of one fixed size are read exactly when all of their bytes are there. -/
theorem decode_times_number (width count : Nat) (bytes : List Byte) :
    ((number width).times count).decode bytes
      = if width * count ≤ bytes.length then
          some ((List.range count).map fun index =>
            BigEndian.ofBytes (8 * width) width ((bytes.drop (width * index)).take width),
            bytes.drop (width * count))
        else none := by
  -- The loop peels off its last item, so the induction is on the count.
  show Refinement.iterate (number width).decodeItem count ([], bytes) = _
  induction count with
  | zero => simp [Refinement.iterate]
  | succ count ih =>
    rw [Refinement.iterate, ih, Nat.mul_succ]
    split
    · -- The items before the last are there, so the last decides.
      simp only [Option.bind_some, decodeItem, number, List.length_drop, List.drop_drop,
        List.range_succ, List.map_append, List.map_singleton]
      by_cases room : width * count + width ≤ bytes.length
      · rw [if_pos (by omega), if_pos room]
        rfl
      · rw [if_neg (by omega), if_neg room]
        rfl
    · rw [if_neg (by omega)]
      rfl

/-- A count and its items take up the bytes of the count and those of the items. -/
theorem length_encode_counted {width limit : Nat} (expressible : limit ≤ 2 ^ (8 * width))
    (item : Format α) (values : List α) :
    ((counted width limit expressible item).encode values).length
      = width + (values.map fun value => (item.encode value).length).sum := by
  -- A count takes up as many bytes as its width says, whatever it counts.
  show (BigEndian.toBytes width (BitVec.ofNat (8 * width) values.length)
    ++ values.flatMap item.encode).length = _
  rw [List.length_append, BigEndian.length_toBytes, List.length_flatMap]

end Format
