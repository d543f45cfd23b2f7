import Mathlib.Algebra.Order.BigOperators.Group.List
import Mathlib.Algebra.Order.Ring.Nat
import StreamUP.Protocol.HandshakeExtension

/-! How much of its input the handshake parser takes: as much as it reads off it, and a bound. -/

namespace StreamUP

open Machine Refinement Security BufferUtil

/-- The bytes of a key: its type, its length, and its value. -/
def KeyEntry.extent (entry : KeyEntry) : Nat := 1 + 2 + entry.value.length

/-- The bytes of what has been read: two counts and the versions, and with ciphers the keys. -/
def Handshake.extent (handshake : Handshake) : Nat :=
  -- The ids of the ciphers are not among them.
  1 + handshake.supVersions.length + 1
    + handshake.keys.elim 0 fun keys => 1 + (keys.entries.map KeyEntry.extent).sum

/-- The bytes of a handshake with as many versions and keys as the counts allow, of full length. -/
def maxHandshakeExtent : Nat :=
  1 + (maxNumberNegotiables - 1) + 1
    + (1 + (maxNumberNegotiables - 1) * (1 + 2 + maxEphemeralKeyValueLength))

/-- Versions take up one byte each, and one for their count. -/
theorem length_encode_versions (versions : List Byte) :
    (versionsFormat.encode versions).length = 1 + versions.length := by
  have single : ∀ version : Byte, (byteFormat.encode version).length = 1 :=
    fun version => BigEndian.length_toBytes 1 version
  rw [versionsFormat, negotiables, Format.length_encode_counted]
  simp [single]

/-- A key takes up its extent. -/
theorem length_encode_keyEntry (entry : KeyEntry) :
    (keyEntryFormat.encode entry).length = entry.extent := by
  have single : ∀ byte : Byte, (byteFormat.encode byte).length = 1 :=
    fun byte => BigEndian.length_toBytes 1 byte
  -- The type is a byte, and the value is counted in two.
  show (byteFormat.encode entry.type
    ++ (Format.counted 2 _ _ byteFormat).encode entry.value).length = _
  rw [List.length_append, Format.length_encode_counted, single, KeyEntry.extent]
  simp only [single, List.map_const', List.sum_replicate_nat, Nat.mul_one, Nat.add_assoc]

/-- Keys take up their extents, and one byte for their count. -/
theorem length_encode_keySection (entries : List KeyEntry) :
    (keySectionFormat.encode entries).length = 1 + (entries.map KeyEntry.extent).sum := by
  rw [keySectionFormat, negotiables, Format.length_encode_counted]
  simp only [length_encode_keyEntry]

/-- No key is longer than its array allows. -/
theorem sum_extent_le {entries : List KeyEntry} (valid : keySectionFormat.Valid entries) :
    (entries.map KeyEntry.extent).sum
      ≤ (maxNumberNegotiables - 1) * (1 + 2 + maxEphemeralKeyValueLength) := by
  obtain ⟨few, each⟩ := valid
  have short : ∀ extent ∈ entries.map KeyEntry.extent,
      extent ≤ 1 + 2 + maxEphemeralKeyValueLength := by
    intro extent member
    obtain ⟨entry, offered, rfl⟩ := List.mem_map.mp member
    have length : entry.value.length ≤ maxEphemeralKeyValueLength := each entry offered
    rw [KeyEntry.extent]
    omega
  have total := List.sum_le_card_nsmul _ _ short
  rw [List.length_map, Nat.nsmul_eq_mul] at total
  -- There are fewer keys than the bound of their count.
  exact total.trans (Nat.mul_le_mul_right _ (Nat.le_sub_one_of_lt few))

/-- A count and the room for its ids are there in the front of the bytes, too. -/
theorem cipherCount_take {bytes behind : List Byte} {count limit : Nat}
    (counted : cipherCount bytes = some (count, behind)) (enough : 1 + 2 * count ≤ limit) :
    cipherCount (bytes.take limit) = some (count, behind.take (limit - 1)) := by
  simp only [cipherCount, Option.bind_eq_some_iff, Prod.exists, Option.ite_none_right_eq_some,
    Option.some.injEq, Prod.mk.injEq] at counted ⊢
  obtain ⟨count, behind, decoded, room, rfl, rfl⟩ := counted
  have single : ∀ number, (countFormat.encode number).length = 1 :=
    fun number => BigEndian.length_toBytes 1 (BitVec.ofNat 8 number)
  have within : (countFormat.encode count).length ≤ limit := by
    rw [single]
    omega
  have front := countFormat.decode_take decoded within
  rw [single] at front
  refine ⟨_, _, front, ?_, rfl, rfl⟩
  rw [List.length_take]
  omega

/-- What is counted of the ciphers is below the bound. -/
theorem lt_of_cipherCount {bytes behind : List Byte} {count : Nat}
    (counted : cipherCount bytes = some (count, behind)) : count < maxNumberNegotiables := by
  simp only [cipherCount, Option.bind_eq_some_iff, Prod.exists, Option.ite_none_right_eq_some,
    Option.some.injEq, Prod.mk.injEq] at counted
  obtain ⟨_, _, decoded, _, rfl, rfl⟩ := counted
  exact (countFormat.decode_iff.mp decoded).1

variable {self : Protocol} {bytes rest : List Byte}

/-- What is read and what is left make up the input, and what is read is bounded. -/
theorem handshakeMeaning_extent {handshake : Handshake}
    (meant : self.handshakeMeaning bytes = some (handshake, rest)) :
    bytes.length = handshake.extent + rest.length ∧ handshake.extent ≤ maxHandshakeExtent := by
  simp only [Protocol.handshakeMeaning, Option.bind_eq_some_iff, Prod.exists] at meant
  obtain ⟨versions, behind, decoded, count, left, counted, ending⟩ := meant
  obtain ⟨valid, rfl⟩ := versionsFormat.decode_iff.mp decoded
  have few : versions.length < maxNumberNegotiables := valid.1
  have front := length_encode_versions versions
  have counts := (length_of_cipherCount counted).1
  rw [List.length_append, front, counts]
  by_cases empty : count = 0
  · -- Without ciphers nothing is read behind their count.
    rw [if_pos empty, Option.ite_none_right_eq_some] at ending
    obtain ⟨_, same⟩ := ending
    rw [Option.some.injEq, Prod.mk.injEq] at same
    obtain ⟨rfl, rfl⟩ := same
    simp only [Handshake.extent, Option.elim_none, maxHandshakeExtent]
    omega
  · rw [if_neg empty, Option.map_eq_some_iff] at ending
    obtain ⟨⟨keys, tail⟩, read, same⟩ := ending
    rw [Prod.mk.injEq] at same
    obtain ⟨rfl, rfl⟩ := same
    obtain ⟨entries, section_, rfl, _⟩ := keysMeaning_eq_some.mp read
    obtain ⟨keysValid, rfl⟩ := keySectionFormat.decode_iff.mp section_
    have total := sum_extent_le keysValid
    rw [List.length_append, length_encode_keySection]
    simp only [Handshake.extent, Handshake.keyed, Option.elim_some, takeKeys_entries,
      maxHandshakeExtent]
    omega

/-- The front of the input, as long as a handshake can be, has the same meaning. -/
theorem handshakeMeaning_take {handshake : Handshake}
    (meant : self.handshakeMeaning bytes = some (handshake, rest)) :
    self.handshakeMeaning (bytes.take maxHandshakeExtent)
      = some (handshake, rest.take (maxHandshakeExtent - handshake.extent)) := by
  have within := handshakeMeaning_extent meant
  simp only [Protocol.handshakeMeaning, Option.bind_eq_some_iff, Prod.exists] at meant ⊢
  obtain ⟨versions, behind, decoded, count, left, counted, ending⟩ := meant
  have few : versions.length < maxNumberNegotiables := (versionsFormat.decode_iff.mp decoded).1.1
  have counts := lt_of_cipherCount counted
  have size := length_encode_versions versions
  simp only [maxNumberNegotiables] at few counts
  -- Behind the versions there is room for the count and for what its guard asks for.
  have room : (versionsFormat.encode versions).length ≤ maxHandshakeExtent := by
    rw [size]
    simp only [maxHandshakeExtent, maxNumberNegotiables, maxEphemeralKeyValueLength]
    omega
  have guarded : 1 + 2 * count
      ≤ maxHandshakeExtent - (versionsFormat.encode versions).length := by
    rw [size]
    simp only [maxHandshakeExtent, maxNumberNegotiables, maxEphemeralKeyValueLength]
    omega
  refine ⟨versions, _, versionsFormat.decode_take decoded room, count, _,
    cipherCount_take counted guarded, ?_⟩
  by_cases empty : count = 0
  · rw [if_pos empty, Option.ite_none_right_eq_some] at ending ⊢
    obtain ⟨insecure, same⟩ := ending
    rw [Option.some.injEq, Prod.mk.injEq] at same
    obtain ⟨rfl, rfl⟩ := same
    refine ⟨insecure, ?_⟩
    rw [size]
    simp only [Handshake.extent, Option.elim_none, Nat.sub_sub, Nat.add_zero]
  · rw [if_neg empty, Option.map_eq_some_iff] at ending ⊢
    obtain ⟨⟨keys, tail⟩, read, same⟩ := ending
    rw [Prod.mk.injEq] at same
    obtain ⟨rfl, rfl⟩ := same
    obtain ⟨entries, section_, rfl, supported⟩ := keysMeaning_eq_some.mp read
    have extent : Handshake.extent (.keyed versions (self.takeKeys entries))
        = (versionsFormat.encode versions).length + 1
          + (keySectionFormat.encode entries).length := by
      rw [size, length_encode_keySection]
      simp only [Handshake.extent, Handshake.keyed, Option.elim_some, takeKeys_entries]
    rw [extent] at within ⊢
    have inside : (keySectionFormat.encode entries).length
        ≤ maxHandshakeExtent - (versionsFormat.encode versions).length - 1 := by
      omega
    have front := keySectionFormat.decode_take section_ inside
    rw [Nat.sub_sub, Nat.sub_sub] at front
    exact ⟨_, keysMeaning_eq_some.mpr ⟨entries, front, rfl, supported⟩, rfl⟩

/-- At the end the cursor is behind what has been read, and no further than the bound. -/
theorem getReadIndex_of_accepted {data : DataArgument} {handshake : Handshake}
    {buffer : ReadBufferWrapper}
    (accepted : self.acceptClientHandshake data = .ok (handshake, buffer)) :
    buffer.getReadIndex = handshake.extent ∧ handshake.extent ≤ maxHandshakeExtent := by
  obtain ⟨⟨_, left⟩, meant, rfl, placed, same⟩ :=
    (acceptClientHandshake_follows self data).some_of_ok accepted
  obtain ⟨split, bound⟩ := handshakeMeaning_extent meant
  refine ⟨?_, bound⟩
  -- The cursor and what is left make up the input, too.
  have total : buffer.readIndex + left.length = buffer.length := placed.readIndex_add
  have size : buffer.length = data.bytes.length := congrArg List.length same
  show buffer.readIndex = _
  simp only at split ⊢
  omega

/--
No hello takes up more than 15423 bytes, and nothing behind them matters.

The parser stops behind what it has read. Input with the same first 15423 bytes gives the same
handshake, of the same extent.
-/
theorem acceptClientHandshake_extent {data : DataArgument} {handshake : Handshake}
    {buffer : ReadBufferWrapper}
    (accepted : self.acceptClientHandshake data = .ok (handshake, buffer)) :
    buffer.getReadIndex = handshake.extent ∧ handshake.extent ≤ maxHandshakeExtent ∧
      ∀ other : DataArgument,
        other.bytes.take maxHandshakeExtent = data.bytes.take maxHandshakeExtent →
        ∃ behind, self.acceptClientHandshake other = .ok (handshake, behind) ∧
          behind.getReadIndex = buffer.getReadIndex := by
  obtain ⟨index, bound⟩ := getReadIndex_of_accepted accepted
  refine ⟨index, bound, ?_⟩
  intro other alike
  obtain ⟨⟨_, left⟩, meant, rfl, _⟩ :=
    (acceptClientHandshake_follows self data).some_of_ok accepted
  -- The front that both have in common is enough, and the rest of the other follows it.
  have front := handshakeMeaning_take meant
  have longer := handshakeMeaning_append front (other.bytes.drop maxHandshakeExtent)
  rw [← alike, List.take_append_drop] at longer
  obtain ⟨⟨_, behind⟩, accepted', rfl, _⟩ :=
    (acceptClientHandshake_follows self other).ok_of_some longer
  exact ⟨behind, accepted', (getReadIndex_of_accepted accepted').1.trans index.symm⟩

/-- The bound is 15423, and a hello without versions and with a key of length zero takes up six. -/
theorem helloAndMore_extent :
    ∃ handshake buffer, secureServer.acceptClientHandshake (helloAndMore [7] (Nat.le_succ 1))
        = .ok (handshake, buffer) ∧ buffer.getReadIndex = handshake.extent ∧
      handshake.extent = 6 ∧ maxHandshakeExtent = 15423 := by
  have decoded : versionsFormat.decode (helloAndMore [7] (Nat.le_succ 1)).bytes
      = some ([], [1, 1, 23, 0, 0, 7]) := by
    rfl
  have counted : cipherCount [1, 1, 23, 0, 0, 7] = some (1, [1, 23, 0, 0, 7]) := by rfl
  have read : keySectionFormat.decode [1, 23, 0, 0, 7] = some ([⟨23, []⟩], [7]) := by rfl
  have supported : secureServer.Supports ⟨23, []⟩ :=
    ⟨.secp256r1, by rfl, List.mem_singleton.mpr rfl⟩
  obtain ⟨buffer, accepted, _⟩ := acceptClientHandshake_of_keys secureServer decoded counted
    Nat.one_ne_zero read ⟨_, List.mem_singleton.mpr rfl, supported⟩
  -- Two counts and a cipher count, and the three bytes of the key.
  have extent : Handshake.extent (.keyed [] (secureServer.takeKeys [⟨23, []⟩])) = 6 := by
    simp [Handshake.extent, Handshake.keyed, KeyEntry.extent]
  exact ⟨_, buffer, accepted, (acceptClientHandshake_extent accepted).1, extent, rfl⟩

end StreamUP
