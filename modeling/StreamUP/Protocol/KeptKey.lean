import StreamUP.Foundation.Overlay
import StreamUP.Protocol.KeyGroupChoice

/-! The array of the key loop, which every key is copied into, against the key that was chosen. -/

namespace StreamUP

open Machine Security BufferUtil Overlay Preference

/-- The byte that the last key long enough to have one has at a position. -/
def lastByteAt (entries : List KeyEntry) (position : Nat) : Option Byte :=
  (entries.filterMap fun entry => entry.value[position]?).getLast?

/-- The first key that offers a group. -/
def firstOffering (group : EphemeralKeyGroup) (entries : List KeyEntry) : Option KeyEntry :=
  entries.find? fun entry => getEphemeralKeyGroup entry.type.toNat == some group

/-- The array after the keys is the values laid over each other, each from the front on. -/
theorem takeKeys_ephemeralKey (self : Protocol) (entries : List KeyEntry) :
    (self.takeKeys entries).ephemeralKey
      = overlayAll KeyNegotiation.start.ephemeralKey
          (entries.map fun entry => (0, entry.value.map some)) := by
  -- The induction is on the end of the list, as the loop appends.
  induction entries using List.reverseRecOn with
  | nil => rfl
  | append_singleton entries last ih =>
    rw [Protocol.takeKeys, List.foldl_concat, Protocol.takeKey, considerKeyGroup_ephemeralKey,
      List.map_append, overlayAll, List.foldl_append]
    show last.value.map some ++ (self.takeKeys entries).ephemeralKey.drop last.value.length = _
    rw [ih]
    simp [overlay, overlayAll]

/-- The last value to cover a position has the byte of the last key long enough for it. -/
theorem lastAt_values (entries : List KeyEntry) (position : Nat) :
    lastAt (entries.map fun entry => (0, entry.value.map some)) position
      = (lastByteAt entries position).map some := by
  -- Every value begins at the front, so it covers as many positions as it has bytes.
  simp [lastAt, lastByteAt, elementAt, List.filterMap_map, Function.comp_def]

/-- Where some key has a byte, the array has the byte of the last key that has one. -/
theorem getElem?_takeKeys_ephemeralKey {self : Protocol} {entries : List KeyEntry}
    (valid : keySectionFormat.Valid entries) {position : Nat} {byte : Byte}
    (last : lastByteAt entries position = some byte) :
    (self.takeKeys entries).ephemeralKey[position]? = some (some byte) := by
  have room : ∀ run ∈ entries.map fun entry => (0, entry.value.map some),
      run.1 + run.2.length ≤ KeyNegotiation.start.ephemeralKey.length := by
    intro run member
    obtain ⟨entry, offered, rfl⟩ := List.mem_map.mp member
    -- The format bounds every value by the length of the array.
    have short := valid.2 entry offered
    rw [Nat.zero_add, List.length_map, KeyNegotiation.start, List.length_replicate]
    exact short
  rw [takeKeys_ephemeralKey, getElem?_overlayAll room, lastAt_values, last]
  rfl

/-- The array begins with the value of the first key that offers the chosen group. -/
def Protocol.KeepsChosenKey (self : Protocol) (entries : List KeyEntry)
    (buffer : ReadBufferWrapper) : Prop :=
  -- The section runs to its end only with a group.
  ∀ keys behind, self.readEphemeralKeys buffer = .ok (keys, behind) →
    ∃ group entry, keys.choosenKeyGroup = some group ∧ firstOffering group entries = some entry ∧
      entry.value.map some <+: keys.ephemeralKey

/-- The bytes of the key to be chosen are the last ones to be copied to their positions. -/
def Protocol.ChosenKeyOnTop (self : Protocol) (entries : List KeyEntry) : Prop :=
  -- Without a supported group no key is to be chosen.
  ∀ group entry, preferred self.supportedEphemeralGroups (offeredGroups entries) = some group →
    firstOffering group entries = some entry →
    ∀ position, position < entry.value.length →
      lastByteAt entries position = entry.value[position]?

/-- A group that is offered is offered by a first key. -/
theorem exists_firstOffering {group : EphemeralKeyGroup} {entries : List KeyEntry}
    (offered : group ∈ offeredGroups entries) :
    ∃ entry, firstOffering group entries = some entry := by
  obtain ⟨entry, member, known⟩ := List.mem_filterMap.mp offered
  -- The search finds some key, as this one passes its test.
  rw [← Option.isSome_iff_exists, firstOffering, List.find?_isSome]
  exact ⟨entry, member, by rw [known]; exact BEq.rfl⟩

/-- A position inside one of the keys has a byte from the last of them that reaches it. -/
theorem exists_lastByteAt {entries : List KeyEntry} {entry : KeyEntry} (member : entry ∈ entries)
    {position : Nat} (inside : position < entry.value.length) :
    ∃ byte, lastByteAt entries position = some byte := by
  cases last : lastByteAt entries position with
  | some byte => exact ⟨byte, rfl⟩
  | none =>
    -- The key itself reaches the position.
    have absent := List.filterMap_eq_nil_iff.mp (List.getLast?_eq_none_iff.mp last) entry member
    rw [List.getElem?_eq_getElem inside] at absent
    contradiction

/-- A value is at the front of the array exactly when its bytes are on top at their positions. -/
theorem value_prefix_iff {self : Protocol} {entries : List KeyEntry}
    (valid : keySectionFormat.Valid entries) {entry : KeyEntry} (member : entry ∈ entries) :
    entry.value.map some <+: (self.takeKeys entries).ephemeralKey ↔
      ∀ position, position < entry.value.length →
        lastByteAt entries position = entry.value[position]? := by
  rw [List.prefix_iff_getElem?]
  simp only [List.length_map, List.getElem_map]
  refine forall_congr' fun position => forall_congr' fun inside => ?_
  -- Both sides compare with the byte that is on top there.
  obtain ⟨byte, last⟩ := exists_lastByteAt member inside
  rw [getElem?_takeKeys_ephemeralKey valid last, last, List.getElem?_eq_getElem inside]
  simp

/-- The key that is kept is the one that is chosen exactly when its bytes are copied last. -/
theorem keepsChosenKey_iff (self : Protocol) {entries : List KeyEntry}
    {buffer : ReadBufferWrapper} (at_ : AtKeys entries buffer) :
    self.KeepsChosenKey entries buffer ↔ self.ChosenKeyOnTop entries := by
  have kept := (takeKeys_chosenFrom self entries).group
  constructor
  · intro keeps group entry chosen first
    rcases at_.readEphemeralKeys self with ⟨_, behind, ran⟩ | ⟨unsupported, _⟩
    · -- The group and its first key are the ones that the array is compared with.
      obtain ⟨group', entry', chosen', first', front⟩ := keeps _ behind ran
      rw [kept, chosen, Option.some.injEq] at chosen'
      subst chosen'
      rw [first, Option.some.injEq] at first'
      subst first'
      exact (value_prefix_iff at_.1 (List.mem_of_find?_eq_some first)).mp front
    · -- Without a supported group nothing would have been preferred.
      have none := mt (preferred_ne_none_iff self entries).mp unsupported
      exact absurd (chosen ▸ Option.some_ne_none group) none
  · intro top keys behind ran
    rcases at_.readEphemeralKeys self with ⟨supported, _, ran'⟩ | ⟨_, failed⟩
    · rw [ran', Except.ok.injEq, Prod.mk.injEq] at ran
      obtain ⟨rfl, _⟩ := ran
      obtain ⟨group, chosen⟩ := Option.ne_none_iff_exists'.mp
        ((preferred_ne_none_iff self entries).mpr supported)
      obtain ⟨entry, first⟩ := exists_firstOffering (mem_of_preferred chosen).2
      exact ⟨group, entry, kept.trans chosen, first,
        (value_prefix_iff at_.1 (List.mem_of_find?_eq_some first)).mpr
          (top group entry chosen first)⟩
    · rw [failed] at ran
      contradiction

/-- A key of type 23 between keys of an unknown type, the last of which begins like it. -/
def keysAround : List KeyEntry :=
  [⟨99, [9]⟩, ⟨23, [1, 2]⟩, ⟨99, []⟩, ⟨99, [1]⟩]

/-- The key of type 23 is kept, as the byte that is copied over it is the one it has there. -/
theorem keepsChosenKey_keysAround :
    secureServer.KeepsChosenKey keysAround
      (.new [4, 99, 0, 1, 9, 23, 0, 2, 1, 2, 99, 0, 0, 99, 0, 1, 1]) := by
  refine (keepsChosenKey_iff secureServer (atKeys_new rfl (by decide))).mpr ?_
  intro group entry chosen first position inside
  obtain rfl : .secp256r1 = group := Option.some.inj chosen
  obtain rfl : ⟨23, [1, 2]⟩ = entry := Option.some.inj first
  -- The last key reaches the first position only.
  have onTop : ∀ position < 2,
      lastByteAt keysAround position = ([1, 2] : List Byte)[position]? := by
    decide
  exact onTop position inside

/-- A key of an unknown type behind the chosen one takes its place in the array. -/
theorem laterKey_not_kept :
    AtKeys [⟨23, [1]⟩, ⟨99, [2]⟩] (.new [2, 23, 0, 1, 1, 99, 0, 1, 2]) ∧
      ¬ secureServer.KeepsChosenKey [⟨23, [1]⟩, ⟨99, [2]⟩]
        (.new [2, 23, 0, 1, 1, 99, 0, 1, 2]) := by
  have at_ : AtKeys [⟨23, [1]⟩, ⟨99, [2]⟩] (.new [2, 23, 0, 1, 1, 99, 0, 1, 2]) :=
    atKeys_new rfl (by decide)
  refine ⟨at_, fun keeps => ?_⟩
  rcases at_.readEphemeralKeys secureServer with ⟨_, behind, ran⟩ | ⟨unsupported, _⟩
  · obtain ⟨group, entry, chosen, first, front⟩ := keeps _ behind ran
    -- The first key has been chosen, but its byte has been replaced.
    obtain rfl : .secp256r1 = group := by
      rw [(takeKeys_chosenFrom secureServer _).group] at chosen
      exact Option.some.inj chosen
    obtain rfl : ⟨23, [1]⟩ = entry := Option.some.inj first
    have top : some 2 = some (1 : Byte) :=
      (value_prefix_iff at_.1 List.mem_cons_self).mp front 0 (by decide)
    exact absurd (Option.some.inj top) (by decide)
  · exact unsupported ⟨_, List.mem_cons_self, .secp256r1, rfl, List.mem_singleton.mpr rfl⟩

end StreamUP
