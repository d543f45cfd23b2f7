import StreamUP.Protocol.HandshakeLaws

/-! The choice of the key group: the server's order over what the client offers decides it. -/

namespace StreamUP

open Machine Refinement Security BufferUtil Preference

variable {self : Protocol}

/-- The key section reduced to its outcome: the group that is chosen, or how it is left. -/
def Protocol.chosenKeyGroup (self : Protocol) (buffer : ReadBufferWrapper) :
    Parser (Option EphemeralKeyGroup) := do
  let (keys, _) ← self.readEphemeralKeys buffer
  return keys.choosenKeyGroup

/-- A cursor in front of well-formed keys, with anything behind them. -/
def AtKeys (entries : List KeyEntry) (buffer : ReadBufferWrapper) : Prop :=
  -- There are fewer keys than the bound, and none is longer than its array.
  keySectionFormat.Valid entries ∧
    ∃ rest, buffer.Positioned (keySectionFormat.encode entries ++ rest)

/-- The section runs to its end exactly when a supported group is offered, having taken the keys. -/
theorem AtKeys.readEphemeralKeys {entries : List KeyEntry} {buffer : ReadBufferWrapper}
    (at_ : AtKeys entries buffer) (self : Protocol) :
    (∃ entry ∈ entries, self.Supports entry) ∧
        (∃ behind, self.readEphemeralKeys buffer = .ok (self.takeKeys entries, behind)) ∨
      (¬ ∃ entry ∈ entries, self.Supports entry) ∧
        self.readEphemeralKeys buffer = .error (.returned .noResult) := by
  obtain ⟨valid, rest, placed⟩ := at_
  have follows := readEphemeralKeys_follows self placed
  have decoded := keySectionFormat.decode_encode entries rest valid
  by_cases supported : ∃ entry ∈ entries, self.Supports entry
  · -- The meaning is the keys that were sent.
    have meant := keysMeaning_eq_some.mpr ⟨entries, decoded, rfl, supported⟩
    obtain ⟨⟨_, behind⟩, ran, rfl, _⟩ := follows.ok_of_some meant
    exact .inl ⟨supported, behind, ran⟩
  · refine .inr ⟨supported, ?_⟩
    cases ran : self.readEphemeralKeys buffer with
    | error stop => rw [follows.admitted_of_error ran]
    | ok result =>
      -- A section that ran to its end would have found the same keys.
      obtain ⟨⟨_, tail⟩, meant, _⟩ := follows.some_of_ok ran
      obtain ⟨found, decoded', _, supported'⟩ := keysMeaning_eq_some.mp meant
      rw [decoded, Option.some.injEq, Prod.mk.injEq] at decoded'
      obtain ⟨rfl, rfl⟩ := decoded'
      exact absurd supported' supported

/-- The outcome of the section is the group preferred among those offered. -/
theorem AtKeys.chosenKeyGroup_eq {entries : List KeyEntry} {buffer : ReadBufferWrapper}
    (at_ : AtKeys entries buffer) :
    self.chosenKeyGroup buffer
      = (preferred self.supportedEphemeralGroups (offeredGroups entries)).elim
          (.error (.returned .noResult)) fun group => .ok (some group) := by
  rw [Protocol.chosenKeyGroup]
  rcases at_.readEphemeralKeys self with ⟨supported, behind, ran⟩ | ⟨unsupported, ran⟩
  · -- The loop has kept the preferred group, as there is one.
    obtain ⟨group, chosen⟩ := Option.ne_none_iff_exists'.mp
      ((preferred_ne_none_iff self entries).mpr supported)
    have kept := (takeKeys_chosenFrom self entries).group
    rw [chosen] at kept ⊢
    rw [ran]
    exact congrArg Except.ok kept
  · rw [ran, not_not.mp (mt (preferred_ne_none_iff self entries).mp unsupported)]
    rfl

/-- Keys of other types add nothing to what a server can choose from, in whatever order. -/
theorem preferred_offeredGroups_of_perm {entries entries' extra : List KeyEntry}
    (rearranged : entries'.Perm (entries ++ extra))
    (unsupported : ∀ entry ∈ extra, ¬ self.Supports entry) :
    preferred self.supportedEphemeralGroups (offeredGroups entries')
      = preferred self.supportedEphemeralGroups (offeredGroups entries) := by
  -- The choice looks at the offers as a set, and within the server's list only.
  refine preferred_congr fun group supported => ?_
  have members := (rearranged.filterMap fun entry => getEphemeralKeyGroup entry.type.toNat).mem_iff
    (a := group)
  rw [offeredGroups, members, List.filterMap_append, List.mem_append]
  refine or_iff_left fun offer => ?_
  obtain ⟨entry, member, known⟩ := List.mem_filterMap.mp offer
  exact unsupported entry member ⟨group, known, supported⟩

/--
The server's preference decides the key group.

It is the first group of its list that some key offers, and the section is left without a result
when there is none. Neither the order of the keys nor keys of other types matter.
-/
theorem chosenKeyGroup_preferred (self : Protocol) {entries : List KeyEntry}
    {buffer : ReadBufferWrapper} (at_ : AtKeys entries buffer) :
    self.chosenKeyGroup buffer
        = (preferred self.supportedEphemeralGroups (offeredGroups entries)).elim
            (.error (.returned .noResult)) (fun group => .ok (some group)) ∧
      (self.chosenKeyGroup buffer = .error (.returned .noResult) ↔
        ∀ entry ∈ entries, ¬ self.Supports entry) ∧
      ∀ entries' extra buffer', AtKeys entries' buffer' → entries'.Perm (entries ++ extra) →
        (∀ entry ∈ extra, ¬ self.Supports entry) →
        self.chosenKeyGroup buffer' = self.chosenKeyGroup buffer := by
  refine ⟨at_.chosenKeyGroup_eq, ?_, ?_⟩
  · rw [at_.chosenKeyGroup_eq]
    have offers := preferred_ne_none_iff self entries
    cases chosen : preferred self.supportedEphemeralGroups (offeredGroups entries) with
    | none =>
      -- Nothing is preferred, so no key is of a supported group.
      rw [chosen] at offers
      exact iff_of_true rfl fun entry member supports => offers.mpr ⟨entry, member, supports⟩ rfl
    | some group =>
      rw [chosen] at offers
      obtain ⟨entry, member, supports⟩ := offers.mp (Option.some_ne_none group)
      exact iff_of_false nofun fun unsupported => unsupported entry member supports
  · intro entries' extra buffer' at_' rearranged unsupported
    rw [at_'.chosenKeyGroup_eq, at_.chosenKeyGroup_eq,
      preferred_offeredGroups_of_perm rearranged unsupported]

/-- A new cursor over bytes that begin with keys is in front of them. -/
theorem atKeys_new {bytes rest : List Byte} {entries : List KeyEntry}
    (decoded : keySectionFormat.decode bytes = some (entries, rest))
    (addressable : bytes.length < sizeCount) : AtKeys entries (.new bytes) := by
  -- What is decoded is valid, and its encoding is in front.
  obtain ⟨valid, rfl⟩ := keySectionFormat.decode_iff.mp decoded
  exact ⟨valid, rest, ReadBufferWrapper.positioned_new addressable⟩

/-- A key of an unknown type in front of the only known one does not change the choice. -/
theorem chosenKeyGroup_single :
    secureServer.chosenKeyGroup (.new [1, 23, 0, 0]) = .ok (some .secp256r1) ∧
      secureServer.chosenKeyGroup (.new [2, 99, 0, 1, 7, 23, 0, 0])
        = secureServer.chosenKeyGroup (.new [1, 23, 0, 0]) := by
  have one : AtKeys [⟨23, []⟩] (.new [1, 23, 0, 0]) := atKeys_new rfl (by decide)
  have two : AtKeys [⟨99, [7]⟩, ⟨23, []⟩] (.new [2, 99, 0, 1, 7, 23, 0, 0]) :=
    atKeys_new rfl (by decide)
  have decided := chosenKeyGroup_preferred secureServer one
  refine ⟨decided.1, decided.2.2 _ [⟨99, [7]⟩] _ two (List.Perm.swap _ _ _) ?_⟩
  -- The type 99 stands for no group.
  intro entry member supports
  obtain ⟨group, known, _⟩ := supports
  rw [List.mem_singleton.mp member] at known
  contradiction

end StreamUP
