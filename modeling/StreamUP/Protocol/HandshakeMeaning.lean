import StreamUP.Protocol.Handshake

/-! What the handshake parser accepts, read off the bytes alone, and that the code follows it. -/

namespace StreamUP

open Machine Refinement Security BufferUtil

/-- A key taken into the variables of the loop: copied, recorded, and its group considered. -/
def Protocol.takeKey (self : Protocol) (keys : KeyNegotiation) (entry : KeyEntry) :
    KeyNegotiation :=
  -- A shorter key leaves the end of the one before it in the array.
  self.considerKeyGroup
    { keys with
      ephemeralKey := entry.value.map some ++ keys.ephemeralKey.drop entry.value.length
      entries := keys.entries ++ [entry] }
    entry.type

/-- The variables of the loop after all keys of a list. -/
def Protocol.takeKeys (self : Protocol) (entries : List KeyEntry) : KeyNegotiation :=
  entries.foldl self.takeKey .start

/-- The key section as the code reads it: the keys, of which one must have been chosen. -/
def Protocol.keysMeaning (self : Protocol) (bytes : List Byte) :
    Option (KeyNegotiation × List Byte) :=
  -- The bytes are those right behind the cipher count, ids included.
  (keySectionFormat.decode bytes).bind fun (entries, rest) =>
    if (self.takeKeys entries).keyGroupRank ≠ -1 then some (self.takeKeys entries, rest) else none

/-- How the function ends once it has read keys: the cipher loop leaves no suite behind. -/
def Handshake.keyed (versions : List Byte) (keys : KeyNegotiation) : Handshake where
  supVersions := versions
  cipherSuitesNegotiated := []
  keys := some keys

/-- The whole function as the code reads it: the key section right behind the cipher count. -/
def Protocol.handshakeMeaning (self : Protocol) (bytes : List Byte) :
    Option (Handshake × List Byte) :=
  -- The ids are not passed over, so the key section starts where they do.
  (versionsFormat.decode bytes).bind fun (versions, rest) =>
    (cipherCount rest).bind fun (count, rest) =>
      if count = 0 then
        if self.allowInsecureConnections then some (⟨versions, [], none⟩, rest) else none
      else (self.keysMeaning rest).map fun (keys, rest) => (.keyed versions keys, rest)

/-- A parser's result agrees with its meaning: the same value, and the same bytes left to read. -/
def Agrees {α : Type} (data : List Byte) (result : α × ReadBufferWrapper)
    (value : α × List Byte) : Prop :=
  -- The cursor is judged by what it has left to read.
  result.1 = value.1 ∧ result.2.Positioned value.2 ∧ result.2.data = data

section Steps

variable {α β : Type} {related : α → β → Prop} {buffer : ReadBufferWrapper} {rest : List Byte}
  {after : Option β} {reason : AcceptClientHandshakeResult}

/-- A guard on the bytes left passes exactly when they are there, and otherwise returns early. -/
theorem follows_check (at_ : buffer.Positioned rest) {count : Nat} {next : Unit → Parser α}
    (enough : count ≤ rest.length → Follows (Stop.Leaves reason) related (next ()) after)
    (short : rest.length < count → after = none) :
    Follows (Stop.Leaves reason) related
      (liftM (buffer.checkReadableBytes count) >>= fun passed => require passed reason >>= next)
      after := by
  -- The guard compares with the bytes that are left.
  rw [at_.checkReadableBytes_eq]
  exact Follows.require enough fun missing => short (Nat.lt_of_not_le missing)

/-- Reading a byte that is there goes on behind it. -/
theorem follows_readUInt8 {byte : Byte} (at_ : buffer.Positioned (byte :: rest))
    {next : Byte × ReadBufferWrapper → Parser α}
    (goes : ∀ behind : ReadBufferWrapper, behind.Positioned rest → behind.data = buffer.data →
      Follows (Stop.Leaves reason) related (next (byte, behind)) after) :
    Follows (Stop.Leaves reason) related (liftM buffer.readUInt8 >>= next) after := by
  -- The byte is the first one left.
  obtain ⟨read, moved⟩ := at_.readUInt8_eq
  rw [read]
  exact goes _ moved rfl

/-- Reading two bytes that are there as a number goes on behind them. -/
theorem follows_readUInt16 {high low : Byte} (at_ : buffer.Positioned (high :: low :: rest))
    {next : BitVec 16 × ReadBufferWrapper → Parser α}
    (goes : ∀ behind : ReadBufferWrapper, behind.Positioned rest → behind.data = buffer.data →
      Follows (Stop.Leaves reason) related
        (next (BigEndian.ofBytes 16 2 [high, low], behind)) after) :
    Follows (Stop.Leaves reason) related (liftM buffer.readUInt16 >>= next) after := by
  -- The two bytes are the big-endian digits of the number.
  have enough : Arithmetic.uint16.size ≤ (high :: low :: rest).length := by simp [Arithmetic.size]
  have read := at_.read_eq .big enough
  have moved := at_.advance enough
  rw [← ReadBufferWrapper.readUInt16_eq] at read
  rw [read]
  exact goes _ moved rfl

/-- Copying bytes that are there into an array with room for them goes on behind them. -/
theorem follows_readToArray (at_ : buffer.Positioned rest) {dest : List (Option Byte)}
    {count : Nat} (enough : count ≤ rest.length) (room : count ≤ dest.length)
    {next : List (Option Byte) × ReadBufferWrapper → Parser α}
    (goes : ∀ behind : ReadBufferWrapper, behind.Positioned (rest.drop count) →
      behind.data = buffer.data →
      Follows (Stop.Leaves reason) related
        (next ((rest.take count).map some ++ dest.drop count, behind)) after) :
    Follows (Stop.Leaves reason) related
      (liftM (buffer.readToArray dest count) >>= next) after := by
  -- The copy replaces the front of the array, which is large enough.
  have size : ((rest.take count).map some).length = count := by simp [enough]
  have read : buffer.readToArray dest count
      = .ok ((rest.take count).map some ++ dest.drop count, buffer.advance count) := by
    have copied := copyToFront_of_le dest ((rest.take count).map some) (by omega)
    rw [size] at copied
    rw [ReadBufferWrapper.readToArray, at_.load_eq enough]
    show (copyToFront dest ((rest.take count).map some) >>= fun array =>
      .ok (array, buffer.advance count)) = _
    rw [copied]
    rfl
  rw [read]
  exact goes _ (at_.advance enough) rfl

/-- A byte that counts what follows it is read behind a guard, and compared with the bound. -/
theorem follows_count (at_ : buffer.Positioned rest)
    {next : Byte × ReadBufferWrapper → Parser α} {after : Nat × List Byte → Option β}
    (goes : ∀ (count : Byte) (tail : List Byte) (behind : ReadBufferWrapper),
      count.toNat < maxNumberNegotiables → behind.Positioned tail → behind.data = buffer.data →
      Follows (Stop.Leaves reason) related (next (count, behind)) (after (count.toNat, tail))) :
    Follows (Stop.Leaves reason) related
      (liftM (buffer.checkReadableBytes 1) >>= fun passed => require passed reason >>= fun _ =>
        liftM buffer.readUInt8 >>= fun read =>
          require (read.1.toNat < maxNumberNegotiables) reason >>= fun _ => next read)
      ((countFormat.decode rest).bind after) := by
  -- What the guards ask for is what the format of a count asks for.
  rw [decode_countByte]
  apply follows_check at_
  · intro enough
    cases rest with
    | nil => simp at enough
    | cons count rest =>
      apply follows_readUInt8 at_
      intro behind placed same
      apply Follows.require
      · intro below
        simp only [if_pos below, Option.bind_some]
        exact goes count rest behind below placed same
      · intro above
        simp only [if_neg above, Option.bind_none]
  · intro short
    cases rest with
    | nil => rfl
    | cons count rest => simp at short

end Steps

/-- After `i` rounds of the version loop, the first `i` slots hold the first `i` bytes. -/
structure VersionsFilled (buffer : ReadBufferWrapper) (rest : List Byte) (count i : Nat)
    (state : List Byte × ReadBufferWrapper) : Prop where
  filled : state.1 = rest.take i ++ List.replicate (count - i) 0
  placed : state.2.Positioned (rest.drop i)
  same : state.2.data = buffer.data

/-- One round stores the next byte in the next slot. -/
theorem readSUPVersion_step {buffer : ReadBufferWrapper} {rest : List Byte} {count i : Nat}
    {state : List Byte × ReadBufferWrapper} (enough : count ≤ rest.length) (below : i < count)
    (before : VersionsFilled buffer rest count i state) :
    ∃ next, readSUPVersion i state = .ok next ∧ VersionsFilled buffer rest count (i + 1) next := by
  rcases state with ⟨versions, cursor⟩
  rcases before with ⟨filled, placed, same⟩
  have inside : i < rest.length := by omega
  -- The byte read is the one at the loop's own index.
  simp only at filled placed same
  rw [List.drop_eq_getElem_cons inside] at placed
  obtain ⟨read, moved⟩ := placed.readUInt8_eq
  have slot : i < versions.length := by
    rw [filled]
    simp
    omega
  refine ⟨(versions.set i rest[i], cursor.advance 1), ?_, ?_, moved, same⟩
  · simp [readSUPVersion, read, storeAt_of_lt _ slot]
  · -- The first zero behind the bytes already stored is replaced by the next byte.
    obtain ⟨left, more⟩ : ∃ left, count - i = left + 1 := ⟨count - i - 1, by omega⟩
    have front : (rest.take i).length = i := by simp; omega
    simp only [filled, more, show count - (i + 1) = left by omega, List.replicate_succ,
      List.take_add_one, List.getElem?_eq_getElem inside, Option.toList_some,
      List.append_assoc, List.singleton_append]
    rw [List.set_append_right _ _ (by omega), front, Nat.sub_self, List.set_cons_zero]

/-- The version loop fills the vector with the bytes that are there. -/
theorem readSUPVersions_loop {buffer : ReadBufferWrapper} {rest : List Byte}
    (at_ : buffer.Positioned rest) {count : Nat} (enough : count ≤ rest.length) :
    ∃ behind, forLoop readSUPVersion count (List.replicate count 0, buffer)
        = .ok (rest.take count, behind) ∧
      behind.Positioned (rest.drop count) ∧ behind.data = buffer.data := by
  -- The vector starts out as `count` zeros, and after all rounds none of them is left.
  obtain ⟨⟨versions, behind⟩, ran, filled, placed, same⟩ :=
    forLoop_ok readSUPVersion count (List.replicate count 0, buffer)
      (VersionsFilled buffer rest count) ⟨by simp, at_, rfl⟩
      fun i state below before => readSUPVersion_step enough below before
  refine ⟨behind, ?_, placed, same⟩
  rw [ran]
  simpa using filled

/-- The version section follows its format. -/
theorem readSUPVersions_follows {buffer : ReadBufferWrapper} {rest : List Byte}
    (at_ : buffer.Positioned rest) :
    Follows (Stop.Leaves .illFormedHandshake) (Agrees buffer.data) (readSUPVersions buffer)
      (versionsFormat.decode rest) := by
  -- Behind the count there is one more guard, for as many bytes as the count says.
  rw [decode_versions]
  apply follows_count at_
  intro count tail behind _ placed same
  dsimp only
  rw [Nat.one_mul]
  apply follows_check placed
  · intro room
    obtain ⟨final, ran, last, kept⟩ := readSUPVersions_loop placed room
    rw [if_pos room, ran]
    exact ⟨rfl, last, kept.trans same⟩
  · intro short
    rw [if_neg (by omega)]

/-- Below 4865 rounds the cipher loop knows no suite and leaves its state alone. -/
theorem negotiateCipherSuite_loop {count : Nat} (small : count ≤ 0x1301)
    (buffer : ReadBufferWrapper) :
    forLoop negotiateCipherSuite count ([], buffer) = .ok ([], buffer) := by
  -- The state is its own invariant, as no round changes it.
  obtain ⟨final, ran, same⟩ := forLoop_ok negotiateCipherSuite count ([], buffer)
    (fun _ state => state = ([], buffer)) rfl (by
      intro i state below same
      subst same
      have unknown : idToCipherSuite i = none := idToCipherSuite_of_small (by omega)
      exact ⟨([], buffer), by simp [negotiateCipherSuite, unknown], rfl⟩)
  rw [ran, same]

/-- The cipher section takes the count and nothing else, whatever the ids behind it say. -/
theorem readCipherSuites_follows {buffer : ReadBufferWrapper} {rest : List Byte}
    (at_ : buffer.Positioned rest) :
    Follows (Stop.Leaves .illFormedHandshake)
      (fun result (value : Nat × List Byte) => Agrees buffer.data result ((value.1, []), value.2))
      (readCipherSuites buffer) (cipherCount rest) := by
  -- As for the versions, except that no id is taken.
  rw [cipherCount]
  apply follows_count at_
  intro count tail behind below placed same
  dsimp only
  apply follows_check placed
  · intro room
    have small : count.toNat ≤ 0x1301 := by
      simp only [maxNumberNegotiables] at below
      omega
    rw [if_pos room, negotiateCipherSuite_loop small]
    exact ⟨rfl, placed, same⟩
  · intro short
    rw [if_neg (by omega)]

/-- Considering a group leaves the copied key alone. -/
@[simp] theorem considerKeyGroup_ephemeralKey (self : Protocol) (keys : KeyNegotiation)
    (type : Byte) : (self.considerKeyGroup keys type).ephemeralKey = keys.ephemeralKey := by
  -- Only the rank and the group are ever assigned.
  unfold Protocol.considerKeyGroup
  split
  · rfl
  · dsimp only
    split_ifs <;> rfl

/-- What has been copied to the front of an array is what the array begins with. -/
theorem reduceOption_take_copied (copied : List Byte) (array : List (Option Byte)) :
    ((copied.map some ++ array).take copied.length).reduceOption = copied := by
  rw [List.take_left' (List.length_map some)]
  show (copied.map some).filterMap id = copied
  rw [List.filterMap_map]
  exact List.filterMap_some

/-- A round of the key loop takes one key off the bytes, as its format says. -/
theorem readEphemeralKey_follows (self : Protocol) (index : Nat) {keys : KeyNegotiation}
    {buffer : ReadBufferWrapper} {rest : List Byte}
    (room : keys.ephemeralKey.length = maxEphemeralKeyValueLength)
    (at_ : buffer.Positioned rest) :
    Follows (Stop.Leaves .noResult)
      (fun result (value : KeyEntry × List Byte) => result.1 = self.takeKey keys value.1 ∧
        result.1.ephemeralKey.length = maxEphemeralKeyValueLength ∧
        result.2.Positioned value.2 ∧ result.2.data = buffer.data)
      (self.readEphemeralKey index (keys, buffer)) (keyEntryFormat.decode rest) := by
  apply follows_check at_
  · intro enough
    obtain ⟨type, high, low, rest, rfl⟩ :
        ∃ type high low tail, rest = type :: high :: low :: tail := by
      match rest, enough with
      | type :: high :: low :: tail, _ => exact ⟨type, high, low, tail, rfl⟩
    rw [decode_keyEntry]
    apply follows_readUInt8 at_
    intro behindType placed same
    apply follows_readUInt16 placed
    intro behindLength placed same'
    dsimp only
    generalize (BigEndian.ofBytes 16 2 [high, low]).toNat = length
    apply Follows.require
    · intro short
      rw [if_pos short]
      apply follows_check placed
      · intro there
        rw [if_pos there]
        apply follows_readToArray placed there (short.trans room.ge)
        intro behindKey placed same''
        -- The copied value is what its record says, and its group is considered next.
        have size := List.length_take_of_le there
        have recorded := reduceOption_take_copied (rest.take length)
          (keys.ephemeralKey.drop length)
        rw [size] at recorded
        refine ⟨?_, ?_, placed, same''.trans (same'.trans same)⟩
        · rw [Protocol.takeKey, size]
          show self.considerKeyGroup _ type = _
          rw [recorded]
        · show (self.considerKeyGroup _ type).ephemeralKey.length = _
          rw [considerKeyGroup_ephemeralKey, List.length_append, List.length_map, size,
            List.length_drop, room]
          omega
      · intro missing
        rw [if_neg (by omega)]
    · intro long
      rw [if_neg long]
  · intro few
    exact decode_keyEntry_short few

/-- The key loop reads as many keys as it has rounds, and takes each of them. -/
theorem readEphemeralKey_loop (self : Protocol) (count : Nat) {buffer : ReadBufferWrapper}
    {rest : List Byte} (at_ : buffer.Positioned rest) :
    Follows (Stop.Leaves .noResult)
      (fun result (value : List KeyEntry × List Byte) => result.1 = self.takeKeys value.1 ∧
        result.1.ephemeralKey.length = maxEphemeralKeyValueLength ∧
        result.2.Positioned value.2 ∧ result.2.data = buffer.data)
      (forLoop self.readEphemeralKey count (.start, buffer))
      ((keyEntryFormat.times count).decode rest) := by
  refine Follows.forLoop keyEntryFormat.decodeItem (fun _ => _)
    ⟨rfl, by simp [KeyNegotiation.start], at_, rfl⟩ ?_
  intro index state value _ before
  obtain ⟨keys, cursor⟩ := state
  obtain ⟨entries, left⟩ := value
  obtain ⟨taken, room, placed, same⟩ := before
  -- The round's key joins the keys before it.
  rw [← bind_pure (self.readEphemeralKey index (keys, cursor))]
  refine (readEphemeralKey_follows self index room placed).bind ?_
  intro result value _ read
  obtain ⟨entry, left⟩ := value
  obtain ⟨chosen, room, placed, same'⟩ := read
  refine ⟨chosen.trans ?_, room, placed, same'.trans same⟩
  show self.takeKey keys entry = self.takeKeys (entries ++ [entry])
  rw [show keys = self.takeKeys entries from taken]
  simp [Protocol.takeKeys]

/-- The key section follows its format, up to the choice that must have been made. -/
theorem readEphemeralKeys_follows (self : Protocol) {buffer : ReadBufferWrapper}
    {rest : List Byte} (at_ : buffer.Positioned rest) :
    Follows (Stop.Leaves .noResult) (Agrees buffer.data) (self.readEphemeralKeys buffer)
      (self.keysMeaning rest) := by
  -- Behind the count the loop, and behind the loop the group that must have been chosen.
  rw [Protocol.keysMeaning, keySectionFormat, decode_negotiables, Option.bind_assoc]
  apply follows_count at_
  intro count tail behind _ placed same
  dsimp only
  refine (readEphemeralKey_loop self count.toNat placed).bind ?_
  intro result value _ read
  obtain ⟨keys, cursor⟩ := result
  obtain ⟨entries, left⟩ := value
  obtain ⟨taken, _, last, kept⟩ := read
  simp only at taken
  subst taken
  apply Follows.require
  · intro chosen
    rw [if_pos chosen]
    exact ⟨rfl, last, kept.trans same⟩
  · intro missing
    rw [if_neg missing]

/-- With ciphers, what is left of the function is the key section, right behind their count. -/
theorem acceptKeys_follows (self : Protocol) (versions : List Byte) {buffer : ReadBufferWrapper}
    {rest : List Byte} (at_ : buffer.Positioned rest) :
    Follows (Stop.Leaves .noResult) (Agrees buffer.data)
      (do
        let (keys, buffer) ← self.readEphemeralKeys buffer
        return (Handshake.keyed versions keys, buffer))
      ((self.keysMeaning rest).map fun (keys, rest) => (.keyed versions keys, rest)) := by
  -- The versions and the suites are passed through.
  rw [Option.map_eq_bind]
  refine (readEphemeralKeys_follows self at_).bind ?_
  intro result value _ read
  obtain ⟨chosen, placed, same⟩ := read
  exact ⟨congrArg (Handshake.keyed versions) chosen, placed, same⟩

/-- The parser follows its meaning on every input: it never reads or writes out of bounds. -/
theorem acceptClientHandshake_follows (self : Protocol) (data : DataArgument) :
    Follows Stop.IsReturn (Agrees data.bytes) (self.acceptClientHandshake data)
      (self.handshakeMeaning data.bytes) := by
  -- Section by section, each starting where the one before it stopped.
  have versions := readSUPVersions_follows (ReadBufferWrapper.positioned_new data.addressable)
  refine (versions.widen fun _ leaves => leaves.isReturn).bind ?_
  intro result value _ read
  obtain ⟨versions, buffer⟩ := result
  obtain ⟨_, rest⟩ := value
  obtain ⟨rfl, placed, same⟩ := read
  have ciphers := readCipherSuites_follows placed
  refine (ciphers.widen fun _ leaves => leaves.isReturn).bind ?_
  intro result value _ read
  obtain ⟨⟨count, suites⟩, cursor⟩ := result
  obtain ⟨_, left⟩ := value
  obtain ⟨counted, placed', same'⟩ := read
  obtain ⟨rfl, rfl⟩ := Prod.mk.inj counted
  by_cases empty : count = 0
  · -- Without ciphers the hello ends here, where insecure connections are allowed.
    subst empty
    cases insecure : self.allowInsecureConnections with
    | false => trivial
    | true => exact ⟨rfl, placed', same'.trans same⟩
  · simp only [beq_eq_false_iff_ne.mpr empty, Bool.false_and, Bool.not_false, if_neg empty,
      if_pos empty]
    have keys := acceptKeys_follows self versions placed'
    rw [same', same] at keys
    exact keys.widen fun _ leaves => leaves.isReturn

/-- Once some ciphers are counted, the key section decides, and a rejection gives no result. -/
theorem acceptClientHandshake_of_ciphers (self : Protocol) {data : DataArgument}
    {versions rest behind : List Byte} {count : Nat}
    (decoded : versionsFormat.decode data.bytes = some (versions, rest))
    (counted : cipherCount rest = some (count, behind)) (ciphers : count ≠ 0) :
    Follows (Stop.Leaves .noResult) (Agrees data.bytes) (self.acceptClientHandshake data)
      ((self.keysMeaning behind).map fun (keys, rest) => (.keyed versions keys, rest)) := by
  -- The first two sections are known to succeed, so the third decides.
  have placed := ReadBufferWrapper.positioned_new data.addressable
  obtain ⟨⟨versions, buffer⟩, ran, rfl, placed, same⟩ :=
    (readSUPVersions_follows placed).ok_of_some decoded
  obtain ⟨⟨_, cursor⟩, ran', rfl, placed', same'⟩ :=
    (readCipherSuites_follows placed).ok_of_some counted
  have keys := acceptKeys_follows self versions placed'
  rw [same', same] at keys
  have unfolded : self.acceptClientHandshake data = (do
      let (keys, buffer) ← self.readEphemeralKeys cursor
      return (Handshake.keyed versions keys, buffer)) := by
    unfold Protocol.acceptClientHandshake
    simp only at ran'
    simp [ran, ran', ciphers, require, Handshake.keyed]
  rw [unfolded]
  exact keys

/-- A hello without ciphers is turned away by a server that requires secure connections. -/
theorem acceptClientHandshake_of_no_ciphers {self : Protocol} {data : DataArgument}
    {versions rest behind : List Byte}
    (decoded : versionsFormat.decode data.bytes = some (versions, rest))
    (counted : cipherCount rest = some (0, behind))
    (secure : self.allowInsecureConnections = false) :
    self.acceptClientHandshake data = .error (.returned .secureConnectionRequired) := by
  -- The first two sections are known to succeed, so the policy decides.
  have placed := ReadBufferWrapper.positioned_new data.addressable
  obtain ⟨⟨versions, buffer⟩, ran, rfl, placed, _⟩ :=
    (readSUPVersions_follows placed).ok_of_some decoded
  obtain ⟨⟨_, cursor⟩, ran', rfl, _⟩ := (readCipherSuites_follows placed).ok_of_some counted
  unfold Protocol.acceptClientHandshake
  simp only at ran'
  simp [ran, ran', secure, require]

/-- A key whose type names a group the server supports. -/
def Protocol.Supports (self : Protocol) (entry : KeyEntry) : Prop :=
  -- An unknown type names no group.
  ∃ group, getEphemeralKeyGroup entry.type.toNat = some group ∧
    group ∈ self.supportedEphemeralGroups

/-- Considering a group leaves the record of the keys alone. -/
@[simp] theorem considerKeyGroup_entries (self : Protocol) (keys : KeyNegotiation)
    (type : Byte) : (self.considerKeyGroup keys type).entries = keys.entries := by
  -- Only the rank and the group are ever assigned.
  unfold Protocol.considerKeyGroup
  split
  · rfl
  · dsimp only
    split_ifs <;> rfl

/-- The keys taken are recorded in order. -/
@[simp] theorem takeKeys_entries (self : Protocol) (entries : List KeyEntry) :
    (self.takeKeys entries).entries = entries := by
  -- The induction is on the end of the list, as the loop appends.
  induction entries using List.reverseRecOn with
  | nil => rfl
  | append_singleton entries last ih =>
    rw [Protocol.takeKeys, List.foldl_concat, Protocol.takeKey, considerKeyGroup_entries]
    show (self.takeKeys entries).entries ++ [last] = entries ++ [last]
    rw [ih]

end StreamUP
