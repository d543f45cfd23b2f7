import StreamUP.Protocol.KeyGroupRank

/-! What a handshake that is accepted promises, and what every handshake is safe from. -/

namespace StreamUP

open Machine Refinement Security BufferUtil

/-- The parser runs to its end without an early return. -/
def Protocol.Accepts (self : Protocol) (data : DataArgument) : Prop :=
  ∃ result, self.acceptClientHandshake data = .ok result

/-- A key section at the front of the bytes names a group the server supports. -/
def Protocol.NamesSupportedGroup (self : Protocol) (bytes : List Byte) : Prop :=
  -- What follows the section does not matter.
  ∃ entries rest, keySectionFormat.decode bytes = some (entries, rest) ∧
    ∃ entry ∈ entries, self.Supports entry

/-- The meaning of the key section is defined where it names a supported group. -/
theorem keysMeaning_eq_some {self : Protocol} {bytes rest : List Byte} {keys : KeyNegotiation} :
    self.keysMeaning bytes = some (keys, rest) ↔
      ∃ entries, keySectionFormat.decode bytes = some (entries, rest) ∧
        keys = self.takeKeys entries ∧ ∃ entry ∈ entries, self.Supports entry := by
  -- The section must be there, and its keys must have chosen a group.
  simp only [Protocol.keysMeaning, Option.bind_eq_some_iff, Prod.exists]
  constructor
  · intro meant
    obtain ⟨entries, left, decoded, chosen⟩ := meant
    split at chosen
    · rename_i ranked
      simp only [Option.some.injEq, Prod.mk.injEq] at chosen
      obtain ⟨rfl, rfl⟩ := chosen
      exact ⟨entries, decoded, rfl, (takeKeys_keyGroupRank self entries).mp ranked⟩
    · contradiction
  · intro named
    obtain ⟨entries, decoded, rfl, supported⟩ := named
    refine ⟨entries, rest, decoded, ?_⟩
    rw [if_pos ((takeKeys_keyGroupRank self entries).mpr supported)]

/-- With ciphers, keys that are found behind their count and name a supported group are taken. -/
theorem acceptClientHandshake_of_keys (self : Protocol) {data : DataArgument}
    {versions rest behind tail : List Byte} {count : Nat} {entries : List KeyEntry}
    (decoded : versionsFormat.decode data.bytes = some (versions, rest))
    (counted : cipherCount rest = some (count, behind)) (ciphers : count ≠ 0)
    (read : keySectionFormat.decode behind = some (entries, tail))
    (supported : ∃ entry ∈ entries, self.Supports entry) :
    ∃ buffer, self.acceptClientHandshake data
        = .ok (.keyed versions (self.takeKeys entries), buffer) ∧
      buffer.getReadIndex + tail.length = data.bytes.length := by
  -- The parser follows its meaning, and the cursor is in front of what is left.
  have defined := keysMeaning_eq_some.mpr ⟨entries, read, rfl, supported⟩
  have follows := acceptClientHandshake_of_ciphers self decoded counted ciphers
  rw [defined] at follows
  obtain ⟨⟨_, buffer⟩, accepted, rfl, placed, same⟩ := follows.ok_of_some rfl
  exact ⟨buffer, accepted, placed.readIndex_add.trans (congrArg List.length same)⟩

/-- With ciphers, a hello is accepted when a supported group is named behind their count. -/
theorem accepts_of_ciphers (self : Protocol) {data : DataArgument}
    {versions rest behind : List Byte} {count : Nat}
    (decoded : versionsFormat.decode data.bytes = some (versions, rest))
    (counted : cipherCount rest = some (count, behind)) (ciphers : count ≠ 0) :
    self.Accepts data ↔ self.NamesSupportedGroup behind := by
  -- Behind the cipher count the key section is all there is.
  constructor
  · intro accepts
    obtain ⟨result, accepted⟩ := accepts
    have follows := acceptClientHandshake_of_ciphers self decoded counted ciphers
    obtain ⟨⟨_, tail⟩, defined, _⟩ := follows.some_of_ok accepted
    simp only [Option.map_eq_some_iff, Prod.exists, Prod.mk.injEq] at defined
    obtain ⟨keys, left, keysRead, _⟩ := defined
    obtain ⟨entries, read, _, supported⟩ := keysMeaning_eq_some.mp keysRead
    exact ⟨entries, left, read, supported⟩
  · intro named
    obtain ⟨entries, left, read, supported⟩ := named
    obtain ⟨buffer, accepted, _⟩ :=
      acceptClientHandshake_of_keys self decoded counted ciphers read supported
    exact ⟨_, accepted⟩

/--
Handshake parsing stays in bounds.

No read leaves the buffer, no guard is asked past its end, and no write leaves an array.
-/
theorem acceptClientHandshake_inBounds (self : Protocol) (data : DataArgument) :
    (∀ fault, self.acceptClientHandshake data ≠ .error (.fault fault)) ∧
      ∀ handshake buffer, self.acceptClientHandshake data = .ok (handshake, buffer) →
        buffer.data = data.bytes ∧ buffer.readIndex ≤ data.bytes.length := by
  -- The parser follows its meaning, and so it fails by early returns only.
  have follows := acceptClientHandshake_follows self data
  constructor
  · intro fault failed
    exact follows.admitted_of_error failed
  · intro handshake buffer accepted
    obtain ⟨value, _, _, placed, same⟩ := follows.some_of_ok accepted
    have inside := placed.inside
    rw [ReadBufferWrapper.length, same] at inside
    exact ⟨same, inside⟩

/-- A handshake that is accepted begins with versions and a cipher count, and ends either way. -/
theorem handshakeMeaning_eq_some {self : Protocol} {bytes tail : List Byte}
    {handshake : Handshake} (defined : self.handshakeMeaning bytes = some (handshake, tail)) :
    ∃ versions rest count behind, versionsFormat.decode bytes = some (versions, rest) ∧
      cipherCount rest = some (count, behind) ∧
      (count = 0 ∧ self.allowInsecureConnections = true ∧ handshake = ⟨versions, [], none⟩ ∨
        count ≠ 0 ∧ ∃ entries, keySectionFormat.decode behind = some (entries, tail) ∧
          (∃ entry ∈ entries, self.Supports entry) ∧
          handshake = .keyed versions (self.takeKeys entries)) := by
  -- The count decides between the two ways to the end.
  simp only [Protocol.handshakeMeaning, Option.bind_eq_some_iff, Prod.exists] at defined
  obtain ⟨versions, rest, decoded, count, behind, counted, ending⟩ := defined
  refine ⟨versions, rest, count, behind, decoded, counted, ?_⟩
  by_cases empty : count = 0
  · -- Without ciphers the flag alone decides.
    rw [if_pos empty] at ending
    split at ending
    · rename_i insecure
      simp only [Option.some.injEq, Prod.mk.injEq] at ending
      exact .inl ⟨empty, insecure, ending.1.symm⟩
    · contradiction
  · -- With ciphers the keys do.
    rw [if_neg empty] at ending
    simp only [Option.map_eq_some_iff, Prod.exists, Prod.mk.injEq] at ending
    obtain ⟨keys, _, meant, rfl, rfl⟩ := ending
    obtain ⟨entries, read, rfl, supported⟩ := keysMeaning_eq_some.mp meant
    exact .inr ⟨empty, entries, read, supported, rfl⟩

/-- A hello at the front of the bytes has the sections it is made of, one behind the other. -/
theorem decode_clientHello_eq_some {bytes tail : List Byte} {hello : ClientHello}
    (decoded : clientHelloFormat.decode bytes = some (hello, tail)) :
    ∃ rest count behind, versionsFormat.decode bytes = some (hello.versions, rest) ∧
      cipherCount rest = some (count, behind) ∧
      hello.ciphers = cipherIds count behind ∧
      (count = 0 ∧ hello.entries = [] ∨
        count ≠ 0 ∧ keySectionFormat.decode (behind.drop (2 * count))
          = some (hello.entries, tail)) := by
  -- The count decides whether there are keys behind the ids.
  rw [decode_clientHello] at decoded
  simp only [Option.bind_eq_some_iff, Prod.exists] at decoded
  obtain ⟨versions, rest, first, count, behind, counted, ending⟩ := decoded
  by_cases empty : count = 0
  · rw [if_pos empty] at ending
    simp only [Option.some.injEq, Prod.mk.injEq] at ending
    obtain ⟨rfl, rfl⟩ := ending
    exact ⟨rest, count, behind, first, counted, (cipherIds_eq_nil.mpr empty).symm,
      .inl ⟨empty, rfl⟩⟩
  · rw [if_neg empty] at ending
    simp only [Option.map_eq_some_iff, Prod.exists, Prod.mk.injEq] at ending
    obtain ⟨entries, _, read, rfl, rfl⟩ := ending
    exact ⟨rest, count, behind, first, counted, rfl, .inr ⟨empty, read⟩⟩

/-- Some id among those a client sent stands for a known suite. -/
def OffersKnownSuite (ciphers : List (BitVec 16)) : Prop :=
  ∃ id ∈ ciphers, (idToCipherSuite id.toNat).isSome

/-- The parser reads exactly the hellos of the documented grammar, and reads them as they are. -/
structure Protocol.ReadsHello (protocol : Protocol) (data : DataArgument) : Prop where
  /-- What is accepted begins with a hello, whose versions and keys are the ones read. -/
  sound : ∀ handshake buffer, protocol.acceptClientHandshake data = .ok (handshake, buffer) →
    ∃ hello tail, clientHelloFormat.Valid hello ∧
      data.bytes = clientHelloFormat.encode hello ++ tail ∧
      handshake.supVersions = hello.versions ∧ handshake.entries = hello.entries ∧
      (hello.ciphers = [] ∧ protocol.allowInsecureConnections = true ∨
        ∃ entry ∈ hello.entries, protocol.Supports entry)
  /-- What begins with a hello the server can serve is accepted. -/
  complete : ∀ hello tail, clientHelloFormat.Valid hello →
    data.bytes = clientHelloFormat.encode hello ++ tail →
    ((∃ entry ∈ hello.entries, protocol.Supports entry) ∧ OffersKnownSuite hello.ciphers ∨
      hello.ciphers = [] ∧ protocol.allowInsecureConnections = true) →
    protocol.Accepts data

/--
The bytes read the same whether or not the cipher ids are passed over.

The code looks for the keys right behind the cipher count, the grammar behind the cipher ids.
-/
def Protocol.KeysWherePlaced (self : Protocol) (bytes : List Byte) : Prop :=
  -- One clause for hellos wrongly accepted or misread, one for hellos wrongly turned away.
  ∀ versions rest count behind, versionsFormat.decode bytes = some (versions, rest) →
    cipherCount rest = some (count, behind) → count ≠ 0 →
    (self.NamesSupportedGroup behind →
      (keySectionFormat.decode behind).map Prod.fst
        = (keySectionFormat.decode (behind.drop (2 * count))).map Prod.fst) ∧
    (self.NamesSupportedGroup (behind.drop (2 * count)) →
      OffersKnownSuite (cipherIds count behind) → self.NamesSupportedGroup behind)

/-- With ciphers, what is accepted are the versions and the keys right behind the count. -/
theorem accepted_of_ciphers {self : Protocol} {data : DataArgument} {handshake : Handshake}
    {buffer : ReadBufferWrapper} {versions rest behind : List Byte} {count : Nat}
    (accepted : self.acceptClientHandshake data = .ok (handshake, buffer))
    (decoded : versionsFormat.decode data.bytes = some (versions, rest))
    (counted : cipherCount rest = some (count, behind)) (ciphers : count ≠ 0) :
    (keySectionFormat.decode behind).map Prod.fst = some handshake.entries := by
  -- The record of the keys is what the loop has taken, one after the other.
  have follows := acceptClientHandshake_of_ciphers self decoded counted ciphers
  obtain ⟨⟨_, left⟩, defined, agreed, _⟩ := follows.some_of_ok accepted
  simp only [Option.map_eq_some_iff, Prod.exists, Prod.mk.injEq] at defined
  obtain ⟨keys, _, meant, rfl, rfl⟩ := defined
  obtain ⟨entries, read, rfl, _⟩ := keysMeaning_eq_some.mp meant
  simp only at agreed
  rw [read, agreed]
  simp [Handshake.keyed, Handshake.entries]

/-- Where the parser reads hellos as they are, passing over the cipher ids changes nothing. -/
theorem Protocol.ReadsHello.keysWherePlaced {self : Protocol} {data : DataArgument}
    (reads : self.ReadsHello data) : self.KeysWherePlaced data.bytes := by
  intro versions rest count behind decoded counted ciphers
  have accepts := accepts_of_ciphers self decoded counted ciphers
  constructor
  · intro named
    obtain ⟨⟨handshake, buffer⟩, accepted⟩ := accepts.mpr named
    -- Both parses are of the same bytes, and the grammar's has the entries the code read.
    obtain ⟨hello, tail, valid, front, _, same, _⟩ := reads.sound _ _ accepted
    have parse := decode_clientHello_eq_some (clientHelloFormat.decode_iff.mpr ⟨valid, front⟩)
    simp only [decoded, Option.some.injEq, Prod.mk.injEq] at parse
    obtain ⟨_, _, _, ⟨_, rfl⟩, counted', _, ending⟩ := parse
    rw [counted, Option.some.injEq, Prod.mk.injEq] at counted'
    obtain ⟨rfl, rfl⟩ := counted'
    rcases ending with ⟨empty, _⟩ | ⟨_, read⟩
    · exact absurd empty ciphers
    · rw [accepted_of_ciphers accepted decoded counted ciphers, read, Option.map_some, same]
  · intro named known
    obtain ⟨entries, tail, read, supported⟩ := named
    have hello := decode_clientHello_of_ciphers decoded counted ciphers read
    obtain ⟨valid, front⟩ := clientHelloFormat.decode_iff.mp hello
    exact accepts.mp (reads.complete _ _ valid front (.inl ⟨supported, known⟩))

/-- Where passing over the cipher ids changes nothing, what is accepted begins with a hello. -/
theorem Protocol.KeysWherePlaced.sound {self : Protocol} {data : DataArgument}
    (placed : self.KeysWherePlaced data.bytes) {handshake : Handshake}
    {buffer : ReadBufferWrapper}
    (accepted : self.acceptClientHandshake data = .ok (handshake, buffer)) :
    ∃ hello tail, clientHelloFormat.decode data.bytes = some (hello, tail) ∧
      handshake.supVersions = hello.versions ∧ handshake.entries = hello.entries ∧
      (hello.ciphers = [] ∧ self.allowInsecureConnections = true ∨
        ∃ entry ∈ hello.entries, self.Supports entry) := by
  -- The code has come to its end in one of two ways.
  obtain ⟨⟨_, tail⟩, defined, rfl, _⟩ :=
    (acceptClientHandshake_follows self data).some_of_ok accepted
  obtain ⟨versions, rest, count, behind, decoded, counted, ending⟩ :=
    handshakeMeaning_eq_some defined
  rcases ending with ⟨rfl, insecure, rfl⟩ | ⟨ciphers, entries, read, supported, rfl⟩
  · -- Without ciphers the hello ends behind their count.
    refine ⟨⟨versions, [], []⟩, behind, ?_, rfl, rfl, .inl ⟨rfl, insecure⟩⟩
    simp [decode_clientHello, decoded, counted]
  · -- With ciphers the grammar finds the same keys behind the ids.
    have same := (placed versions rest count behind decoded counted ciphers).1
      ⟨entries, _, read, supported⟩
    rw [read, Option.map_some, eq_comm, Option.map_eq_some_iff] at same
    obtain ⟨⟨_, left⟩, read', rfl⟩ := same
    refine ⟨⟨versions, cipherIds count behind, _⟩, left, ?_, rfl, ?_, .inr supported⟩
    · exact decode_clientHello_of_ciphers decoded counted ciphers read'
    · simp [Handshake.keyed, Handshake.entries]

/-- Where passing over the cipher ids changes nothing, every servable hello is accepted. -/
theorem Protocol.KeysWherePlaced.complete {self : Protocol} {data : DataArgument}
    (placed : self.KeysWherePlaced data.bytes) {hello : ClientHello} {tail : List Byte}
    (parsed : clientHelloFormat.decode data.bytes = some (hello, tail))
    (served : (∃ entry ∈ hello.entries, self.Supports entry) ∧ OffersKnownSuite hello.ciphers ∨
      hello.ciphers = [] ∧ self.allowInsecureConnections = true) :
    self.Accepts data := by
  -- The grammar has the hello end in one of two ways.
  obtain ⟨rest, count, behind, decoded, counted, ids, ending⟩ := decode_clientHello_eq_some parsed
  rcases ending with ⟨rfl, absent⟩ | ⟨ciphers, read⟩
  · -- Nothing is offered, so the server must be one that allows insecure connections.
    have insecure : self.allowInsecureConnections = true := by
      rcases served with ⟨⟨entry, member, _⟩, _⟩ | ⟨_, insecure⟩
      · rw [absent] at member
        contradiction
      · exact insecure
    have defined : self.handshakeMeaning data.bytes
        = some (⟨hello.versions, [], none⟩, behind) := by
      simp [Protocol.handshakeMeaning, decoded, counted, insecure]
    obtain ⟨result, accepted, _⟩ := (acceptClientHandshake_follows self data).ok_of_some defined
    exact ⟨result, accepted⟩
  · rcases served with ⟨supported, known⟩ | ⟨none, _⟩
    · have named := (placed _ rest count behind decoded counted ciphers).2
        ⟨hello.entries, tail, read, supported⟩ (ids ▸ known)
      exact (accepts_of_ciphers self decoded counted ciphers).mpr named
    · exact absurd (cipherIds_eq_nil.mp (ids.symm.trans none)) ciphers

/-- A hello is read as the grammar has it exactly when the ids before its keys do not matter. -/
theorem readsHello_iff (self : Protocol) (data : DataArgument) :
    self.ReadsHello data ↔ self.KeysWherePlaced data.bytes := by
  -- A hello is a parse of the bytes, so both directions are about the two parses.
  constructor
  · exact Protocol.ReadsHello.keysWherePlaced
  · intro placed
    constructor
    · intro handshake buffer accepted
      obtain ⟨hello, tail, parsed, read⟩ := placed.sound accepted
      obtain ⟨valid, front⟩ := clientHelloFormat.decode_iff.mp parsed
      exact ⟨hello, tail, valid, front, read⟩
    · intro hello tail valid front served
      exact placed.complete (clientHelloFormat.decode_iff.mpr ⟨valid, front⟩) served

/-- A hello that offers the suite 0x1301 and one key of type 23, of length zero. -/
def helloWithSuite : DataArgument where
  bytes := [0, 1, 0x13, 0x01, 1, 23, 0, 0]
  countable := by decide

/-- The hello has no versions and counts one cipher, whose id is no key section. -/
theorem helloWithSuite_parts :
    versionsFormat.decode helloWithSuite.bytes = some ([], [1, 0x13, 0x01, 1, 23, 0, 0]) ∧
      cipherCount [1, 0x13, 0x01, 1, 23, 0, 0] = some (1, [0x13, 0x01, 1, 23, 0, 0]) ∧
      keySectionFormat.decode [0x13, 0x01, 1, 23, 0, 0] = none := by
  -- The byte 0x13 of the id stands for a count of 19 keys, which is too many.
  exact ⟨by rfl, by rfl, by rfl⟩

/-- The cipher ids are taken for the count of the keys, and the hello is turned away. -/
theorem helloWithSuite_not_read : ¬ secureServer.ReadsHello helloWithSuite := by
  intro reads
  have parsed : clientHelloFormat.decode helloWithSuite.bytes
      = some (⟨[], [0x1301], [⟨23, []⟩]⟩, []) := by
    rfl
  obtain ⟨valid, front⟩ := clientHelloFormat.decode_iff.mp parsed
  have supported : secureServer.Supports ⟨23, []⟩ :=
    ⟨.secp256r1, by rfl, List.mem_singleton.mpr rfl⟩
  obtain ⟨result, accepted⟩ := reads.complete _ _ valid front
    (.inl ⟨⟨_, List.mem_singleton.mpr rfl, supported⟩, 0x1301, List.mem_singleton.mpr rfl, by rfl⟩)
  -- The code looks for the keys where the id is.
  obtain ⟨decoded, counted, unread⟩ := helloWithSuite_parts
  have accepts := accepts_of_ciphers secureServer decoded counted (by decide)
  obtain ⟨entries, rest, read, _⟩ := accepts.mp ⟨result, accepted⟩
  rw [unread] at read
  contradiction

/-- No accepted handshake has negotiated a suite. -/
theorem cipherSuitesNegotiated_of_accepted {self : Protocol} {data : DataArgument}
    {handshake : Handshake} {buffer : ReadBufferWrapper}
    (accepted : self.acceptClientHandshake data = .ok (handshake, buffer)) :
    handshake.cipherSuitesNegotiated = [] := by
  -- The cipher loop looks up its own index, which is no id.
  obtain ⟨⟨_, tail⟩, defined, rfl, _⟩ :=
    (acceptClientHandshake_follows self data).some_of_ok accepted
  obtain ⟨_, _, _, _, _, _, ending⟩ := handshakeMeaning_eq_some defined
  rcases ending with ⟨_, _, rfl⟩ | ⟨_, _, _, _, rfl⟩
  · rfl
  · rfl

/-- An id the server can use: it stands for a suite, and the server has that suite. -/
def Protocol.Usable (self : Protocol) (id : BitVec 16) : Prop :=
  ∃ suite, idToCipherSuite id.toNat = some suite ∧ suite ∈ self.cipherSuitesAvailable

/-- A server that requires security accepts a hello only with a suite both sides have. -/
structure Protocol.SecureOnly (protocol : Protocol) (data : DataArgument) : Prop where
  /-- What is accepted has negotiated a suite the server has. -/
  negotiates : ∀ handshake buffer, protocol.acceptClientHandshake data = .ok (handshake, buffer) →
    handshake.cipherSuitesNegotiated ≠ [] ∧
      ∃ suite ∈ handshake.cipherSuitesNegotiated, suite ∈ protocol.cipherSuitesAvailable
  /-- A hello without a usable id is turned away as one without ids is. -/
  rejects : ∀ hello tail, clientHelloFormat.Valid hello →
    data.bytes = clientHelloFormat.encode hello ++ tail →
    (∀ id ∈ hello.ciphers, ¬ protocol.Usable id) →
    protocol.acceptClientHandshake data = .error (.returned .secureConnectionRequired)

/--
The bytes count some ciphers, and only their ids speak against them.

Either a supported group is named right behind the count, where the code looks for the keys, or
none of the ids of a whole hello is usable.
-/
def Protocol.CountsUnreadSuites (self : Protocol) (bytes : List Byte) : Prop :=
  -- Where no ciphers are counted, the policy has the last word.
  ∃ versions rest count behind, versionsFormat.decode bytes = some (versions, rest) ∧
    cipherCount rest = some (count, behind) ∧ count ≠ 0 ∧
    (self.NamesSupportedGroup behind ∨
      (∃ entries tail, keySectionFormat.decode (behind.drop (2 * count)) = some (entries, tail)) ∧
        ∀ id ∈ cipherIds count behind, ¬ self.Usable id)

/-- The policy is kept exactly on bytes whose cipher ids, which are never read, do not matter. -/
theorem secureOnly_iff {self : Protocol} (data : DataArgument)
    (secure : self.allowInsecureConnections = false) :
    self.SecureOnly data ↔ ¬ self.CountsUnreadSuites data.bytes := by
  -- Acceptance depends on the keys alone, and rejection for want of ciphers on their count.
  constructor
  · intro only unread
    obtain ⟨versions, rest, count, behind, decoded, counted, ciphers, either⟩ := unread
    rcases either with named | unusable
    · -- The keys are enough for the code, and no suite has been negotiated.
      obtain ⟨⟨handshake, buffer⟩, accepted⟩ :=
        (accepts_of_ciphers self decoded counted ciphers).mpr named
      exact (only.negotiates _ _ accepted).1 (cipherSuitesNegotiated_of_accepted accepted)
    · -- With ciphers a hello is never turned away for its lack of them.
      obtain ⟨⟨entries, tail, read⟩, useless⟩ := unusable
      have hello := decode_clientHello_of_ciphers decoded counted ciphers read
      obtain ⟨valid, front⟩ := clientHelloFormat.decode_iff.mp hello
      have rejected := only.rejects _ _ valid front useless
      have leaves := (acceptClientHandshake_of_ciphers self decoded counted
        ciphers).admitted_of_error rejected
      cases leaves
  · intro clean
    constructor
    · intro handshake buffer accepted
      obtain ⟨⟨_, tail⟩, defined, _⟩ :=
        (acceptClientHandshake_follows self data).some_of_ok accepted
      obtain ⟨versions, rest, count, behind, decoded, counted, ending⟩ :=
        handshakeMeaning_eq_some defined
      rcases ending with ⟨_, insecure, _⟩ | ⟨ciphers, entries, read, supported, _⟩
      · rw [secure] at insecure
        contradiction
      · exact absurd ⟨versions, rest, count, behind, decoded, counted, ciphers,
          .inl ⟨entries, tail, read, supported⟩⟩ clean
    · intro hello tail valid front useless
      obtain ⟨rest, count, behind, decoded, counted, ids, ending⟩ :=
        decode_clientHello_eq_some (clientHelloFormat.decode_iff.mpr ⟨valid, front⟩)
      rcases ending with ⟨rfl, _⟩ | ⟨ciphers, read⟩
      · exact acceptClientHandshake_of_no_ciphers decoded counted secure
      · rw [ids] at useless
        exact absurd ⟨_, rest, count, behind, decoded, counted, ciphers,
          .inr ⟨⟨_, _, read⟩, useless⟩⟩ clean

/-- A hello with a suite of the server gets nothing that the policy forbids. -/
theorem secureOnly_helloWithSuite : secureServer.SecureOnly helloWithSuite := by
  refine (secureOnly_iff helloWithSuite rfl).mpr ?_
  intro unread
  obtain ⟨versions, rest, count, behind, decoded, counted, _, either⟩ := unread
  obtain ⟨first, second, third⟩ := helloWithSuite_parts
  rw [first, Option.some.injEq, Prod.mk.injEq] at decoded
  obtain ⟨rfl, rfl⟩ := decoded
  rw [second, Option.some.injEq, Prod.mk.injEq] at counted
  obtain ⟨rfl, rfl⟩ := counted
  rcases either with ⟨entries, tail, read, _⟩ | ⟨_, useless⟩
  · rw [third] at read
    contradiction
  · -- The id stands for the suite that the server has.
    exact useless 0x1301 (by decide) ⟨.tlsAes128GcmSha256, by rfl, by decide⟩

/-- A hello of one cipher whose id is read as the key section: one key of type 23. -/
def helloWithoutSuite : DataArgument where
  bytes := [0, 1, 1, 23, 0, 0]
  countable := by decide

/-- A server that requires security accepts it without any suite. -/
theorem helloWithoutSuite_accepted : ¬ secureServer.SecureOnly helloWithoutSuite := by
  -- The two bytes of the id are read as the count and the type of a key.
  intro only
  have supported : secureServer.Supports ⟨23, []⟩ :=
    ⟨.secp256r1, by rfl, List.mem_singleton.mpr rfl⟩
  have decoded : versionsFormat.decode helloWithoutSuite.bytes = some ([], [1, 1, 23, 0, 0]) := by
    rfl
  have counted : cipherCount [1, 1, 23, 0, 0] = some (1, [1, 23, 0, 0]) := by rfl
  have accepts := accepts_of_ciphers secureServer decoded counted (by decide)
  obtain ⟨⟨handshake, buffer⟩, accepted⟩ :=
    accepts.mpr ⟨[⟨23, []⟩], [], by rfl, _, List.mem_singleton.mpr rfl, supported⟩
  exact (only.negotiates _ _ accepted).1 (cipherSuitesNegotiated_of_accepted accepted)

end StreamUP
