import StreamUP.Foundation.Preference
import StreamUP.Protocol.HandshakeMeaning

/-! The rank that the key loop keeps: a running best of what the client offers so far. -/

namespace StreamUP

open Machine Security Preference

/-- The known groups that keys offer, in the order of the keys. -/
def offeredGroups (entries : List KeyEntry) : List EphemeralKeyGroup :=
  -- A key of an unknown type offers nothing.
  entries.filterMap fun entry => getEphemeralKeyGroup entry.type.toNat

/-- The rank of a supported group is its first position in the server's list. -/
theorem ephemeralGroupRank_of_mem {self : Protocol} {group : EphemeralKeyGroup}
    (supported : group ∈ self.supportedEphemeralGroups) :
    self.ephemeralGroupRank group = self.supportedEphemeralGroups.idxOf group := by
  -- The search of the code tests its elements the other way around.
  have tests : (group == ·) = (· == group) := funext fun _ => BEq.comm
  have found : self.supportedEphemeralGroups.findIdx? (group == ·)
      = some (self.supportedEphemeralGroups.idxOf group) := by
    rw [tests, List.findIdx?_eq_some_iff_findIdx_eq]
    exact ⟨List.idxOf_lt_length_of_mem supported, rfl⟩
  rw [Protocol.ephemeralGroupRank, found]

/-- The group and the rank that the loop keeps are those of the best offer so far. -/
structure ChosenFrom (protocol : Protocol) (offered : List EphemeralKeyGroup)
    (keys : KeyNegotiation) : Prop where
  group : keys.choosenKeyGroup = preferred protocol.supportedEphemeralGroups offered
  rank : keys.keyGroupRank = keys.choosenKeyGroup.elim (-1) protocol.ephemeralGroupRank

variable {self : Protocol}

/-- The rank that is kept tells whether a group would be an improvement. -/
theorem ChosenFrom.improves_iff {offered : List EphemeralKeyGroup} {keys : KeyNegotiation}
    (kept : ChosenFrom self offered keys) {group : EphemeralKeyGroup}
    (supported : group ∈ self.supportedEphemeralGroups) :
    (keys.keyGroupRank = -1 ∨ self.ephemeralGroupRank group < keys.keyGroupRank) ↔
      ∀ best, preferred self.supportedEphemeralGroups offered = some best →
        self.supportedEphemeralGroups.idxOf group < self.supportedEphemeralGroups.idxOf best := by
  rw [kept.rank, kept.group, ephemeralGroupRank_of_mem supported]
  cases chosen : preferred self.supportedEphemeralGroups offered with
  | none => simp
  | some best =>
    -- What has been chosen is supported, so its rank is a position.
    rw [Option.elim_some, ephemeralGroupRank_of_mem (mem_of_preferred chosen).1]
    simp only [Option.some.injEq, forall_eq']
    omega

/-- Considering a type keeps the best of the groups offered so far and its own. -/
theorem ChosenFrom.considerKeyGroup {offered : List EphemeralKeyGroup} {keys : KeyNegotiation}
    (kept : ChosenFrom self offered keys) (type : Byte) :
    ChosenFrom self (offered ++ (getEphemeralKeyGroup type.toNat).toList)
      (self.considerKeyGroup keys type) := by
  unfold Protocol.considerKeyGroup
  cases getEphemeralKeyGroup type.toNat with
  | none =>
    -- An unknown type offers nothing.
    simpa using kept
  | some group =>
    rw [Option.toList_some]
    dsimp only
    by_cases supported : group ∈ self.supportedEphemeralGroups
    · have ranked : self.ephemeralGroupRank group ≠ -1 :=
        mt Protocol.ephemeralGroupRank_eq_neg_one.mp (not_not.mpr supported)
      rw [if_neg ranked]
      by_cases better : keys.keyGroupRank = -1 ∨ self.ephemeralGroupRank group < keys.keyGroupRank
      · rw [if_pos better]
        refine ⟨?_, rfl⟩
        rw [preferred_concat, if_pos ⟨supported, (kept.improves_iff supported).mp better⟩]
      · rw [if_neg better]
        refine ⟨?_, kept.rank⟩
        rw [preferred_concat,
          if_neg fun improves => better ((kept.improves_iff supported).mpr improves.2)]
        exact kept.group
    · -- A group that the server does not support is never chosen.
      rw [if_pos (Protocol.ephemeralGroupRank_eq_neg_one.mpr supported)]
      refine ⟨?_, kept.rank⟩
      rw [preferred_concat, if_neg fun improves => supported improves.1]
      exact kept.group

/-- After all keys of a list, the loop keeps the best of the groups they offer. -/
theorem takeKeys_chosenFrom (self : Protocol) (entries : List KeyEntry) :
    ChosenFrom self (offeredGroups entries) (self.takeKeys entries) := by
  -- The induction is on the end of the list, as the loop appends.
  induction entries using List.reverseRecOn with
  | nil => exact ⟨preferred_eq_none.mpr (fun _ offered => by contradiction) |>.symm, rfl⟩
  | append_singleton entries last ih =>
    have offers : offeredGroups (entries ++ [last])
        = offeredGroups entries ++ (getEphemeralKeyGroup last.type.toNat).toList := by
      rw [offeredGroups, List.filterMap_append]
      cases known : getEphemeralKeyGroup last.type.toNat <;> simp [offeredGroups, known]
    rw [Protocol.takeKeys, List.foldl_concat, Protocol.takeKey, offers]
    -- Copying and recording the key touches neither the group nor the rank.
    have copied : ChosenFrom self (offeredGroups entries)
        { self.takeKeys entries with
          ephemeralKey := last.value.map some
            ++ (self.takeKeys entries).ephemeralKey.drop last.value.length
          entries := (self.takeKeys entries).entries ++ [last] } := ⟨ih.group, ih.rank⟩
    exact copied.considerKeyGroup last.type

/-- Some group is preferred exactly when some key is of a group the server supports. -/
theorem preferred_ne_none_iff (self : Protocol) (entries : List KeyEntry) :
    preferred self.supportedEphemeralGroups (offeredGroups entries) ≠ none ↔
      ∃ entry ∈ entries, self.Supports entry := by
  -- A group that is offered is offered by some key.
  simp only [ne_eq, preferred_eq_none, offeredGroups, List.mem_filterMap, not_forall, not_not,
    Protocol.Supports]
  constructor
  · intro offer
    obtain ⟨group, ⟨entry, member, known⟩, supported⟩ := offer
    exact ⟨entry, member, group, known, supported⟩
  · intro support
    obtain ⟨entry, member, group, known, supported⟩ := support
    exact ⟨group, ⟨entry, member, known⟩, supported⟩

/-- A group has been chosen exactly when the server supports the type of some key. -/
theorem takeKeys_keyGroupRank (self : Protocol) (entries : List KeyEntry) :
    (self.takeKeys entries).keyGroupRank ≠ -1 ↔ ∃ entry ∈ entries, self.Supports entry := by
  have kept := takeKeys_chosenFrom self entries
  rw [← preferred_ne_none_iff, kept.rank, kept.group]
  cases chosen : preferred self.supportedEphemeralGroups (offeredGroups entries) with
  | none => simp
  | some group =>
    -- What is preferred is in the server's list, and so it has a rank.
    have ranked := mt Protocol.ephemeralGroupRank_eq_neg_one.mp
      (not_not.mpr (mem_of_preferred chosen).1)
    simp [ranked]

end StreamUP
