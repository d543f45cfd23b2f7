import StreamUP.Data.ReadBufferWrapper
import StreamUP.Foundation.Format
import StreamUP.Protocol.AuthEncryptionTypes

/-! What a client hello is: the grammar its documentation lays down, as a byte format. -/

namespace StreamUP

open Machine Security BufferUtil

/-- Bound on every count of a hello. -/
def maxNumberNegotiables : Nat := 16

/-- One ephemeral key a client offers: its type and its value. -/
structure KeyEntry where
  type : Byte
  value : List Byte
  deriving DecidableEq, Repr

/-- What a hello says: the client's versions, the ids of its ciphers, and its ephemeral keys. -/
structure ClientHello where
  versions : List Byte
  ciphers : List (BitVec 16)
  entries : List KeyEntry
  deriving DecidableEq, Repr

/-- A single byte. -/
def byteFormat : Format Byte := Format.number 1

/-- A byte that counts what a hello negotiates. -/
def countFormat : Format Nat := Format.countBelow 1 maxNumberNegotiables (by decide)

/-- A byte count and that many items. -/
def negotiables {α : Type} (item : Format α) : Format (List α) :=
  Format.counted 1 maxNumberNegotiables (by decide) item

/-- A byte count and that many versions. -/
def versionsFormat : Format (List Byte) := negotiables byteFormat

/-- A byte count and that many big-endian cipher ids. -/
def ciphersFormat : Format (List (BitVec 16)) := negotiables (Format.number 2)

/-- A type byte, a two-byte length, and a value of that length. -/
def keyEntryFormat : Format KeyEntry :=
  -- A value may have the full length, so the count may reach it.
  (byteFormat.andThen fun _ =>
      Format.counted 2 (maxEphemeralKeyValueLength + 1) (by decide) byteFormat).transport
    (fun entry => entry.value.length ≤ maxEphemeralKeyValueLength)
    (fun (type, value) => ⟨type, value⟩) (fun entry => (entry.type, entry.value))
    (by
      intro entry valid
      exact Nat.le_of_lt_succ valid.2.1)
    (by
      intro entry short
      exact ⟨trivial, Nat.lt_succ_of_le short, fun _ _ => trivial⟩)
    (fun _ _ => rfl) (fun _ _ => rfl)

/-- A byte count and that many ephemeral keys. -/
def keySectionFormat : Format (List KeyEntry) := negotiables keyEntryFormat

/-- Keys are present only when the client offers ciphers. -/
def keysAfter (ciphers : List (BitVec 16)) : Format (List KeyEntry) :=
  if ciphers = [] then Format.nothing [] else keySectionFormat

/-- The hello: versions, ciphers, and the keys that go with the ciphers. -/
def clientHelloFormat : Format ClientHello :=
  -- The later sections depend on the ciphers only through whether there are any.
  (versionsFormat.andThen fun _ => ciphersFormat.andThen keysAfter).transport
    (fun hello => versionsFormat.Valid hello.versions ∧ ciphersFormat.Valid hello.ciphers ∧
      (keysAfter hello.ciphers).Valid hello.entries)
    (fun (versions, ciphers, entries) => ⟨versions, ciphers, entries⟩)
    (fun hello => (hello.versions, hello.ciphers, hello.entries))
    (fun _ valid => valid) (fun _ valid => valid) (fun _ _ => rfl) (fun _ _ => rfl)

/-- A one-byte count is its byte, provided it is below the limit. -/
theorem decode_countByte (bytes : List Byte) :
    countFormat.decode bytes
      = match bytes with
        | [] => none
        | count :: rest =>
          if count.toNat < maxNumberNegotiables then some (count.toNat, rest) else none := by
  -- One byte is its own number, so the comparison is with the byte.
  rw [countFormat, Format.decode_countBelow]
  cases bytes with
  | nil => rfl
  | cons count rest => simp

/-- Counted items are read behind their count. -/
theorem decode_negotiables {α : Type} (item : Format α) (bytes : List Byte) :
    (negotiables item).decode bytes
      = (countFormat.decode bytes).bind fun (count, rest) => (item.times count).decode rest :=
  -- The count is the general one, at the width and the bound of a hello.
  Format.decode_counted _ item bytes

/-- So many bytes are read exactly when they are there. -/
theorem decode_times_byte (count : Nat) (bytes : List Byte) :
    (byteFormat.times count).decode bytes
      = if count ≤ bytes.length then some (bytes.take count, bytes.drop count) else none := by
  rw [byteFormat, Format.decode_times_number, Nat.one_mul]
  split
  · rename_i room
    congr 2
    -- Each item is the single byte at its own position.
    apply List.ext_getElem
    · simp [room]
    · intro index inItems inBytes
      have inside : index < bytes.length := by
        simp only [List.length_take] at inBytes
        omega
      have single : (bytes.drop index).take 1 = [bytes[index]] := by
        rw [List.drop_eq_getElem_cons inside]
        rfl
      simp only [List.getElem_map, List.getElem_range, Nat.one_mul, single, List.getElem_take]
      exact BigEndian.ofBytes_singleton _
  · rfl

/-- The versions are the bytes behind their count. -/
theorem decode_versions (bytes : List Byte) :
    versionsFormat.decode bytes
      = (countFormat.decode bytes).bind fun (count, rest) =>
          if count ≤ rest.length then some (rest.take count, rest.drop count) else none := by
  -- A version is a byte, so so many versions are so many bytes.
  rw [versionsFormat, decode_negotiables]
  congr 1
  funext ⟨count, rest⟩
  exact decode_times_byte count rest

/-- A key is its type, its big-endian length, and the bytes behind them. -/
theorem decode_keyEntry (type high low : Byte) (rest : List Byte) :
    keyEntryFormat.decode (type :: high :: low :: rest)
      = if (BigEndian.ofBytes 16 2 [high, low]).toNat ≤ maxEphemeralKeyValueLength then
          if (BigEndian.ofBytes 16 2 [high, low]).toNat ≤ rest.length then
            some (⟨type, rest.take (BigEndian.ofBytes 16 2 [high, low]).toNat⟩,
              rest.drop (BigEndian.ofBytes 16 2 [high, low]).toNat)
          else none
        else none := by
  -- The type and the length are there, so the length decides.
  have first : byteFormat.decode (type :: high :: low :: rest)
      = some (type, high :: low :: rest) := by
    simp [byteFormat, Format.number]
  simp only [keyEntryFormat, Format.transport, Format.andThen, first, Option.bind_some,
    Format.decode_counted, Format.decode_countBelow, decode_times_byte]
  have taken : (high :: low :: rest).take 2 = [high, low] := rfl
  have dropped : (high :: low :: rest).drop 2 = rest := rfl
  rw [if_pos (by simp), taken, dropped]
  by_cases short : (BigEndian.ofBytes 16 2 [high, low]).toNat ≤ maxEphemeralKeyValueLength
  · rw [if_pos short, if_pos (Nat.lt_succ_of_le short), Option.bind_some]
    split <;> rfl
  · rw [if_neg short, if_neg fun below => short (Nat.le_of_lt_succ below)]
    rfl

/-- Fewer bytes than a type and a length take up are no key. -/
theorem decode_keyEntry_short {bytes : List Byte} (short : bytes.length < 3) :
    keyEntryFormat.decode bytes = none := by
  -- Behind the type there is less than a length.
  simp only [keyEntryFormat, Format.transport, Format.andThen, Format.decode_counted,
    Format.decode_countBelow, byteFormat, Format.number]
  split
  · rw [Option.bind_some, if_neg (by rw [List.length_drop]; omega)]
    rfl
  · rfl

/-- A count of ciphers with room for as many ids, of which only the count is taken. -/
def cipherCount (bytes : List Byte) : Option (Nat × List Byte) :=
  -- The guard of the code asks for all ids, two bytes each.
  (countFormat.decode bytes).bind fun (count, rest) =>
    if 2 * count ≤ rest.length then some (count, rest) else none

/-- The count takes up one byte, and there is room for the ids behind it. -/
theorem length_of_cipherCount {bytes behind : List Byte} {count : Nat}
    (counted : cipherCount bytes = some (count, behind)) :
    bytes.length = behind.length + 1 ∧ 2 * count ≤ behind.length := by
  -- The count is the first byte, and the guard asks for two bytes each.
  rw [cipherCount, decode_countByte] at counted
  cases bytes with
  | nil => contradiction
  | cons first tail =>
    simp only [Option.bind_eq_some_iff, Option.ite_none_right_eq_some, Option.some.injEq,
      Prod.exists, Prod.mk.injEq] at counted
    obtain ⟨_, _, ⟨_, rfl, rfl⟩, room, rfl, rfl⟩ := counted
    exact ⟨rfl, room⟩

/-- So many cipher ids, two big-endian bytes each. -/
def cipherIds (count : Nat) (bytes : List Byte) : List (BitVec 16) :=
  (List.range count).map fun index => BigEndian.ofBytes 16 2 ((bytes.drop (2 * index)).take 2)

/-- The ciphers are the ids behind their count. -/
theorem decode_ciphers (bytes : List Byte) :
    ciphersFormat.decode bytes
      = (cipherCount bytes).map fun (count, rest) =>
          (cipherIds count rest, rest.drop (2 * count)) := by
  -- Ids have two bytes each, so they are there when twice their number is.
  rw [ciphersFormat, decode_negotiables, cipherCount, Option.map_bind]
  congr 1
  funext ⟨count, rest⟩
  dsimp only [Function.comp]
  rw [Format.decode_times_number]
  split <;> rfl

/-- No ids are read exactly when none are counted. -/
@[simp] theorem cipherIds_eq_nil {count : Nat} {bytes : List Byte} :
    cipherIds count bytes = [] ↔ count = 0 := by
  -- There is one id for each index below the count.
  simp [cipherIds]

/-- A hello is its versions, its cipher ids, and behind them the keys that go with them. -/
theorem decode_clientHello (bytes : List Byte) :
    clientHelloFormat.decode bytes
      = (versionsFormat.decode bytes).bind fun (versions, rest) =>
          (cipherCount rest).bind fun (count, behind) =>
            if count = 0 then some (⟨versions, [], []⟩, behind)
            else (keySectionFormat.decode (behind.drop (2 * count))).map fun (entries, tail) =>
              (⟨versions, cipherIds count behind, entries⟩, tail) := by
  -- The sections are peeled off in the order in which they are written.
  simp only [clientHelloFormat, Format.transport, Format.andThen, decode_ciphers]
  cases versionsFormat.decode bytes with
  | none => rfl
  | some found =>
    obtain ⟨versions, rest⟩ := found
    simp only [Option.bind_some]
    cases cipherCount rest with
    | none => rfl
    | some found =>
      obtain ⟨count, behind⟩ := found
      simp only [Option.map_some, Option.bind_some, keysAfter, cipherIds_eq_nil]
      by_cases empty : count = 0
      · subst empty
        rfl
      · rw [if_neg empty, if_neg empty]
        cases keySectionFormat.decode (behind.drop (2 * count)) <;> rfl

/-- With ciphers, the sections of a hello, one behind the other, are a hello. -/
theorem decode_clientHello_of_ciphers {bytes versions rest behind tail : List Byte} {count : Nat}
    {entries : List KeyEntry} (decoded : versionsFormat.decode bytes = some (versions, rest))
    (counted : cipherCount rest = some (count, behind)) (ciphers : count ≠ 0)
    (read : keySectionFormat.decode (behind.drop (2 * count)) = some (entries, tail)) :
    clientHelloFormat.decode bytes = some (⟨versions, cipherIds count behind, entries⟩, tail) := by
  -- Each section is found where the one before it ends.
  simp [decode_clientHello, decoded, counted, ciphers, read]

end StreamUP
