import StreamUP.Protocol.HandshakeLaws
import StreamUP.Protocol.KeptKey

/-! One hello and two servers: what of the outcome depends on how the server is configured. -/

namespace StreamUP

open Machine Refinement Security BufferUtil Preference

/--
A server that offers what another one does, and more.

The groups it adds come behind those of the other, and it is no stricter about security.
-/
structure Protocol.Extends (server base : Protocol) : Prop where
  groups : base.supportedEphemeralGroups <+: server.supportedEphemeralGroups
  insecure : base.allowInsecureConnections = true → server.allowInsecureConnections = true

/-- Two servers that support the same groups, in whatever order, and are equally strict. -/
structure Protocol.SameOffer (server other : Protocol) : Prop where
  groups : ∀ group, group ∈ server.supportedEphemeralGroups ↔
    group ∈ other.supportedEphemeralGroups
  insecure : server.allowInsecureConnections = other.allowInsecureConnections

/-- Two handshakes that agree on all but the group that was chosen, and its rank. -/
structure Handshake.ReadAlike (handshake other : Handshake) : Prop where
  supVersions : handshake.supVersions = other.supVersions
  suites : handshake.cipherSuitesNegotiated = other.cipherSuitesNegotiated
  entries : handshake.keys.map KeyNegotiation.entries = other.keys.map KeyNegotiation.entries
  ephemeralKey : handshake.keys.map KeyNegotiation.ephemeralKey
    = other.keys.map KeyNegotiation.ephemeralKey

attribute [ext] KeyNegotiation

variable {server base other : Protocol}

/-- A key that the smaller server supports is supported by the larger one. -/
theorem Protocol.Extends.supports (extended : server.Extends base) {entry : KeyEntry}
    (supported : base.Supports entry) : server.Supports entry := by
  obtain ⟨group, known, member⟩ := supported
  exact ⟨group, known, extended.groups.subset member⟩

/-- Servers with the same groups support the same keys. -/
theorem Protocol.SameOffer.supports_iff (same : server.SameOffer other) {entry : KeyEntry} :
    server.Supports entry ↔ other.Supports entry := by
  refine exists_congr fun group => and_congr_right fun _ => ?_
  exact same.groups group

/-- The loop leaves the larger server with what it leaves the smaller one with, rank included. -/
theorem Protocol.Extends.takeKeys_eq (extended : server.Extends base) {entries : List KeyEntry}
    (supported : ∃ entry ∈ entries, base.Supports entry) :
    server.takeKeys entries = base.takeKeys entries := by
  obtain ⟨more, longer⟩ := extended.groups
  obtain ⟨group, preferredGroup⟩ := Option.ne_none_iff_exists'.mp
    ((preferred_ne_none_iff base entries).mpr supported)
  have kept := takeKeys_chosenFrom base entries
  have kept' := takeKeys_chosenFrom server entries
  -- The larger server prefers the same group, which has the same position in its list.
  have chosen : (base.takeKeys entries).choosenKeyGroup = some group :=
    kept.group.trans preferredGroup
  have chosen' : (server.takeKeys entries).choosenKeyGroup = some group := by
    rw [kept'.group, ← longer]
    exact preferred_append_of_some preferredGroup more
  have listed := (mem_of_preferred preferredGroup).1
  have rank : (base.takeKeys entries).keyGroupRank = base.supportedEphemeralGroups.idxOf group := by
    rw [kept.rank, chosen, Option.elim_some, ephemeralGroupRank_of_mem listed]
  have rank' : (server.takeKeys entries).keyGroupRank
      = base.supportedEphemeralGroups.idxOf group := by
    rw [kept'.rank, chosen', Option.elim_some,
      ephemeralGroupRank_of_mem (extended.groups.subset listed), ← longer,
      List.idxOf_append_of_mem listed]
  -- The array and the record have never depended on the server.
  have array : (server.takeKeys entries).ephemeralKey = (base.takeKeys entries).ephemeralKey := by
    rw [takeKeys_ephemeralKey, takeKeys_ephemeralKey]
  have record : (server.takeKeys entries).entries = (base.takeKeys entries).entries := by
    rw [takeKeys_entries, takeKeys_entries]
  exact KeyNegotiation.ext (rank'.trans rank.symm) (chosen'.trans chosen.symm) array record

/-- The larger server gives a hello that the smaller one accepts the same meaning. -/
theorem Protocol.Extends.handshakeMeaning_eq_some (extended : server.Extends base)
    {bytes tail : List Byte} {handshake : Handshake}
    (meant : base.handshakeMeaning bytes = some (handshake, tail)) :
    server.handshakeMeaning bytes = some (handshake, tail) := by
  simp only [Protocol.handshakeMeaning, Option.bind_eq_some_iff, Prod.exists] at meant ⊢
  obtain ⟨versions, rest, decoded, count, behind, counted, ending⟩ := meant
  refine ⟨versions, rest, decoded, count, behind, counted, ?_⟩
  by_cases empty : count = 0
  · -- Without ciphers the flag decides, and it is no stricter.
    rw [if_pos empty] at ending ⊢
    rw [Option.ite_none_right_eq_some] at ending ⊢
    exact ⟨extended.insecure ending.1, ending.2⟩
  · rw [if_neg empty] at ending ⊢
    rw [Option.map_eq_some_iff] at ending ⊢
    obtain ⟨⟨keys, left⟩, read, same⟩ := ending
    obtain ⟨entries, section_, taken, supported⟩ := keysMeaning_eq_some.mp read
    refine ⟨(keys, left), keysMeaning_eq_some.mpr ⟨entries, section_, ?_, ?_⟩, same⟩
    · rw [taken, extended.takeKeys_eq supported]
    · obtain ⟨entry, member, supports⟩ := supported
      exact ⟨entry, member, extended.supports supports⟩

/-- Two cursors over the same bytes with the same bytes left to read are the same. -/
theorem buffer_eq_of_positioned {buffer behind : ReadBufferWrapper} {rest : List Byte}
    (at_ : buffer.Positioned rest) (at_' : behind.Positioned rest)
    (same : buffer.data = behind.data) : buffer = behind := by
  -- What is left and what has been read add up to the bytes.
  have total := at_.readIndex_add
  have total' := at_'.readIndex_add
  obtain ⟨data, index⟩ := buffer
  obtain ⟨_, index'⟩ := behind
  simp only [ReadBufferWrapper.length] at same total total'
  subst same
  have index_eq : index = index' := by omega
  rw [index_eq]

/--
Offering more changes nothing for a client that is already served.

A server that adds groups behind those it had, or that gives up requiring security, reads the
same from each hello it has accepted before: the versions, the keys, the group it chooses and its
rank, the array, and the cursor.
-/
theorem accepted_of_extends (extended : server.Extends base) {data : DataArgument}
    {handshake : Handshake} {buffer : ReadBufferWrapper}
    (accepted : base.acceptClientHandshake data = .ok (handshake, buffer)) :
    server.acceptClientHandshake data = .ok (handshake, buffer) := by
  obtain ⟨⟨_, tail⟩, meant, rfl, placed, same⟩ :=
    (acceptClientHandshake_follows base data).some_of_ok accepted
  have meant' := extended.handshakeMeaning_eq_some meant
  obtain ⟨⟨_, behind⟩, accepted', rfl, placed', same'⟩ :=
    (acceptClientHandshake_follows server data).ok_of_some meant'
  have cursor : behind = buffer := buffer_eq_of_positioned placed' placed (same'.trans same.symm)
  rw [accepted', cursor]

/-- A server with two groups and one suite, which allows insecure connections. -/
def openServer (first second : EphemeralKeyGroup) : Protocol :=
  .initial none [.tlsAes128GcmSha256] [first, second] none none true

/-- A hello with one cipher and two keys, the first of which is of type 29. -/
def helloWithTwoKeys : DataArgument where
  bytes := [0, 1, 2, 29, 0, 1, 7, 23, 0, 0]
  countable := by decide

/-- A server that also supports the group of the first key still chooses that of the second. -/
theorem helloWithTwoKeys_accepted_alike :
    ∃ handshake buffer, secureServer.acceptClientHandshake helloWithTwoKeys
        = .ok (handshake, buffer) ∧
      (openServer .secp256r1 .x25519).acceptClientHandshake helloWithTwoKeys
        = .ok (handshake, buffer) := by
  have extended : (openServer .secp256r1 .x25519).Extends secureServer :=
    ⟨⟨[.x25519], rfl⟩, fun insecure => by contradiction⟩
  -- The keys are read from the bytes behind the cipher count.
  have decoded : versionsFormat.decode helloWithTwoKeys.bytes
      = some ([], [1, 2, 29, 0, 1, 7, 23, 0, 0]) := by
    rfl
  have counted : cipherCount [1, 2, 29, 0, 1, 7, 23, 0, 0]
      = some (1, [2, 29, 0, 1, 7, 23, 0, 0]) := by
    rfl
  have read : keySectionFormat.decode [2, 29, 0, 1, 7, 23, 0, 0]
      = some ([⟨29, [7]⟩, ⟨23, []⟩], []) := by
    rfl
  have supported : secureServer.Supports ⟨23, []⟩ :=
    ⟨.secp256r1, by rfl, List.mem_singleton.mpr rfl⟩
  obtain ⟨buffer, accepted, _⟩ := acceptClientHandshake_of_keys secureServer decoded counted
    Nat.one_ne_zero read ⟨⟨23, []⟩, by simp, supported⟩
  exact ⟨_, buffer, accepted, accepted_of_extends extended accepted⟩

/-- Two servers leave the same input early with one result, or at one place with one reading. -/
inductive SameOutcome :
    Parser (Handshake × ReadBufferWrapper) → Parser (Handshake × ReadBufferWrapper) → Prop
  | early (stop : Stop AcceptClientHandshakeResult) : SameOutcome (.error stop) (.error stop)
  | atEnd {handshake handshake' : Handshake} (buffer : ReadBufferWrapper)
      (alike : handshake.ReadAlike handshake') :
      SameOutcome (.ok (handshake, buffer)) (.ok (handshake', buffer))

/-- After a section that does not look at the server, the outcome is that of what follows. -/
theorem SameOutcome.bind {α : Type} {first : Parser α}
    {next next' : α → Parser (Handshake × ReadBufferWrapper)}
    (each : ∀ value, first = .ok value → SameOutcome (next value) (next' value)) :
    SameOutcome (first >>= next) (first >>= next') := by
  cases ran : first with
  | error stop =>
    -- Both stop where the section does.
    exact .early stop
  | ok value => exact each value ran

/-- Servers with the same groups leave the key section together, having taken the same keys. -/
theorem Protocol.SameOffer.readEphemeralKeys_eq (same : server.SameOffer other)
    {buffer : ReadBufferWrapper} {rest : List Byte} (at_ : buffer.Positioned rest) :
    server.readEphemeralKeys buffer = .error (.returned .noResult) ∧
        other.readEphemeralKeys buffer = .error (.returned .noResult) ∨
      ∃ entries behind, server.readEphemeralKeys buffer = .ok (server.takeKeys entries, behind) ∧
        other.readEphemeralKeys buffer = .ok (other.takeKeys entries, behind) := by
  have follows := readEphemeralKeys_follows server at_
  have follows' := readEphemeralKeys_follows other at_
  cases ran : server.readEphemeralKeys buffer with
  | error stop =>
    left
    refine ⟨congrArg _ (follows.admitted_of_error ran), ?_⟩
    cases ran' : other.readEphemeralKeys buffer with
    | error stop' => exact congrArg _ (follows'.admitted_of_error ran')
    | ok result =>
      -- The keys that the other server has found would have been found by this one.
      obtain ⟨⟨keys, left⟩, meant', _⟩ := follows'.some_of_ok ran'
      obtain ⟨entries, read, _, entry, member, supports⟩ := keysMeaning_eq_some.mp meant'
      have meant := keysMeaning_eq_some.mpr
        ⟨entries, read, rfl, entry, member, same.supports_iff.mpr supports⟩
      obtain ⟨_, ran'', _⟩ := follows.ok_of_some meant
      rw [ran] at ran''
      contradiction
  | ok result =>
    right
    obtain ⟨⟨keys, left⟩, meant, taken, placed, kept⟩ := follows.some_of_ok ran
    obtain ⟨entries, read, rfl, entry, member, supports⟩ := keysMeaning_eq_some.mp meant
    have meant' := keysMeaning_eq_some.mpr
      ⟨entries, read, rfl, entry, member, same.supports_iff.mp supports⟩
    obtain ⟨⟨_, behind⟩, ran', rfl, placed', kept'⟩ := follows'.ok_of_some meant'
    obtain ⟨_, cursor⟩ := result
    have cursors : behind = cursor := buffer_eq_of_positioned placed' placed (kept'.trans kept.symm)
    subst taken
    exact ⟨entries, cursor, rfl, by rw [ran', cursors]⟩

/--
The order in which a server lists its groups decides nothing but the choice.

Servers with the same groups, repeated or not, that are equally strict accept the same hellos and
turn the others away for the same reasons. From a hello they accept they read the same versions
and keys, keep the same bytes in the array, and stop at the same place.
-/
theorem sameOutcome_of_sameOffer (same : server.SameOffer other) (data : DataArgument) :
    SameOutcome (server.acceptClientHandshake data) (other.acceptClientHandshake data) := by
  have placed := ReadBufferWrapper.positioned_new data.addressable
  unfold Protocol.acceptClientHandshake
  rw [same.insecure]
  apply SameOutcome.bind
  intro read ran
  obtain ⟨versions, buffer⟩ := read
  obtain ⟨⟨_, rest⟩, _, _, placed, _⟩ := (readSUPVersions_follows placed).some_of_ok ran
  apply SameOutcome.bind
  intro read ran
  obtain ⟨⟨count, suites⟩, cursor⟩ := read
  obtain ⟨⟨_, behind⟩, _, _, placed, _⟩ := (readCipherSuites_follows placed).some_of_ok ran
  apply SameOutcome.bind
  intro _ _
  split
  · -- With ciphers it is the key section that looks at the server.
    rcases same.readEphemeralKeys_eq placed with ⟨left, left'⟩ | ⟨entries, after, kept, kept'⟩
    · rw [left, left']
      exact .early _
    · rw [kept, kept']
      exact .atEnd after ⟨rfl, rfl, by simp, by simp [takeKeys_ephemeralKey]⟩
  · exact .atEnd cursor ⟨rfl, rfl, rfl, rfl⟩

/-- Two servers that list the same groups the other way around. -/
theorem openServer_sameOutcome :
    SameOutcome ((openServer .secp256r1 .x25519).acceptClientHandshake helloWithTwoKeys)
      ((openServer .x25519 .secp256r1).acceptClientHandshake helloWithTwoKeys) := by
  -- One list is the other with its two groups swapped.
  have swapped : (openServer .secp256r1 .x25519).SameOffer (openServer .x25519 .secp256r1) := by
    refine ⟨fun group => ?_, rfl⟩
    exact (List.Perm.swap EphemeralKeyGroup.x25519 .secp256r1 []).mem_iff
  exact sameOutcome_of_sameOffer swapped helloWithTwoKeys

end StreamUP
