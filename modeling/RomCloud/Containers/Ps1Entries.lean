import RomCloud.Containers.Ps1Rebuilt

namespace RomCloud.Containers.Ps1

open Lib
open SaveSync (ContainerEntry ContainerSnapshot sortedByIdentity)

/-!
# Single saves of a memory card

`replace_entry` and `remove_entry` rebuild a card for one save.

* `removeEntry_ok` — a save can always be removed;
* `replaceEntry_outcome` — a save is put on the card as it was read elsewhere, if the free blocks
  suffice for what it has grown by.
-/

variable {sha256 : Bytes → String} {raw : Bytes} {card : ParsedCard}

/-- What is extracted of a save that was read. -/
theorem extractEntry_of_mem (h : parse sha256 raw = .ok card) {entry : ParsedEntry}
    (hentry : entry ∈ card.live) (containerId : String) :
    extractEntry sha256 raw (snapshotOf card containerId) entry.identity
      = .ok (extracted entry) := by
  obtain ⟨-, deleted, hlayout⟩ := layout_of_parse h
  have hfound : (card.live.find? fun e => e.identity = entry.identity) = some entry := by
    rcases existing_cases card entry.identity with ⟨-, -, hothers⟩ | ⟨found, hmem, hsome, hid, -⟩
    · exact absurd rfl (hothers entry hentry)
    · rwa [List.inj_on_of_nodup_map hlayout.identities hmem hentry hid] at hsome
  have hknown : ((snapshotOf card containerId).entries.any fun value =>
      value.identity = entry.identity ∧ value.canonicalHash = entry.canonicalHash) = true := by
    rw [List.any_eq_true]
    exact ⟨containerEntry entry, List.mem_map.mpr ⟨entry, hentry, rfl⟩, by simp [containerEntry]⟩
  rw [extractEntry, h, ok_bind]
  simp only [hfound, hknown, require, if_true, ok_bind]
  rfl

/-- The saves of the other identities. -/
def othersOf (card : ParsedCard) (identity : String) : List ParsedEntry :=
  card.live.filter fun entry => entry.identity ≠ identity

theorem entries_othersOf (card : ParsedCard) (containerId identity : String) :
    (snapshotOf card containerId).entries.filter (fun entry => entry.identity ≠ identity)
      = (othersOf card identity).map containerEntry := by
  rw [othersOf, snapshotOf, List.filter_map]
  rfl

/-- A plan that expects all saves but one keeps them. -/
theorem kept_eq_othersOf {plan : RebuildPlan} {identity : String}
    (hremovals : ∀ other ∈ plan.removals, other = identity)
    (hreplaced : ∀ other ∈ plan.replaced, other = identity)
    (hexpected : ∀ entry ∈ card.live, entry.identity ≠ identity →
      entry.identity ∈ plan.expected.entries.map (·.identity))
    (hgone : identity ∈ plan.removals ∨ identity ∈ plan.replaced) :
    plan.kept card = othersOf card identity := by
  refine List.filter_congr fun entry hentry => ?_
  rw [decide_eq_decide, RebuildPlan.removed, mem_sortedSet, List.mem_append, List.mem_filter,
    decide_eq_true_eq]
  constructor
  · rintro ⟨hremoved, hnot⟩ heq
    rcases hgone with hgone | hgone
    · exact hremoved (Or.inl (heq ▸ hgone))
    · exact hnot (heq ▸ hgone)
  · intro hne
    refine ⟨?_, fun hin => hne (hreplaced _ hin)⟩
    rintro (hin | ⟨-, hin⟩)
    · exact hne (hremovals _ hin)
    · exact hin (hexpected entry hentry hne)

/-- **Removing a save.** It always succeeds, and every other save is where it was. -/
theorem removeEntry_ok (h : parse sha256 raw = .ok card) (identity : String) :
    ∃ raw' card', removeEntry sha256 raw identity = .ok raw' ∧ parse sha256 raw' = .ok card'
      ∧ (card'.live.map containerEntry).Perm ((othersOf card identity).map containerEntry)
      ∧ (∀ entry ∈ othersOf card identity, entry ∈ card'.live)
      ∧ card'.freeBlocks = card.freeBlocks := by
  obtain ⟨plan, hplan⟩ : ∃ plan : RebuildPlan, plan = {
      expected := { snapshotOf card "staged-card" with
        entries := sortedByIdentity ((snapshotOf card "staged-card").entries.filter
          (·.identity ≠ identity)) }
      replacements := []
      removals := [identity] } := ⟨_, rfl⟩
  have hreplaced : plan.replaced = [] := by rw [hplan]; rfl
  have hentries : plan.expected.entries
      = sortedByIdentity ((othersOf card identity).map containerEntry) := by
    rw [hplan, ← entries_othersOf card "staged-card"]
  have hkept : plan.kept card = othersOf card identity := by
    refine kept_eq_othersOf (by rw [hplan]; simp) (by simp [hreplaced]) (fun entry hentry hne => ?_)
      (Or.inl (by rw [hplan]; simp))
    rw [hentries]
    refine List.mem_map.mpr ⟨containerEntry entry, ?_, rfl⟩
    exact (List.mem_insertionSort _).mpr (List.mem_map.mpr
      ⟨entry, List.mem_filter.mpr ⟨hentry, by simpa using hne⟩, rfl⟩)
  have hneeded : plan.needed card = 0 := by rw [RebuildPlan.needed, hreplaced]; rfl
  have hresulting : plan.resulting card
      = sortedByIdentity ((othersOf card identity).map containerEntry) := by
    rw [RebuildPlan.resulting, hkept, RebuildPlan.written, hreplaced, List.filterMap_nil,
      List.append_nil]
  obtain ⟨raw', card', hrebuilt, hrebuild⟩ := @rebuild_outcome sha256 raw card plan h
    (by rw [hplan]; simp)
  rw [if_neg (by simp [hreplaced]), if_neg (by omega), if_pos (hentries.trans hresulting.symm)]
    at hrebuild
  have hdone := hrebuilt (by omega)
  refine ⟨raw', card', ?_, hdone.accepted, ?_, fun entry hentry => hdone.kept entry ?_, ?_⟩
  · rw [removeEntry, snapshot, h, ← hrebuild, hplan]
    rfl
  · rw [hdone.entries, hresulting]
    exact List.perm_insertionSort _ _
  · rw [hkept]
    exact hentry
  · rw [hdone.free, hneeded, List.drop_zero]

/-- The payload that was read of one save is the payload of another. -/
structure SamePayload (payload stored : ExtractedPs1Entry) : Prop where
  filename : stored.filename = payload.filename
  dataBlocks : stored.dataBlocks = payload.dataBlocks
  frames : List.Forall₂ AgreeOutside stored.frames payload.frames

/-- **Replacing a save.** The free blocks have to suffice for what it has grown by; then it is read
from the card as it was read elsewhere, and every other save is where it was. -/
theorem replaceEntry_outcome (h : parse sha256 raw = .ok card) {replacement : EntryReplacement}
    (hextracted : Extracted sha256 replacement) :
    if card.freeBlocks.length < replacement.extracted.payload.dataBlocks.length
        - (oldBlocks card replacement.entry.identity).length then
      replaceEntry sha256 raw replacement = .error noCapacity
    else ∃ raw' card' stored, replaceEntry sha256 raw replacement = .ok raw'
      ∧ parse sha256 raw' = .ok card'
      ∧ (∀ containerId, extractEntry sha256 raw' (snapshotOf card' containerId)
          replacement.entry.identity
        = .ok ⟨replacement.entry.identity, replacement.entry.canonicalHash, stored⟩)
      ∧ SamePayload replacement.extracted.payload stored
      ∧ ∀ entry ∈ othersOf card replacement.entry.identity, entry ∈ card'.live := by
  obtain ⟨identity, hidentity⟩ : ∃ identity, identity = replacement.entry.identity := ⟨_, rfl⟩
  obtain ⟨plan, hplan⟩ : ∃ plan : RebuildPlan, plan = {
      expected := { snapshotOf card "staged-card" with
        entries := sortedByIdentity (replacement.entry ::
          (snapshotOf card "staged-card").entries.filter
            (·.identity ≠ replacement.entry.identity)) }
      replacements := [replacement]
      removals := [] } := ⟨_, rfl⟩
  have hround : replaceEntry sha256 raw replacement = rebuild sha256 raw plan := by
    rw [replaceEntry, snapshot, h, hplan]
    rfl
  have hreplaced : plan.replaced = [identity] := by
    simp [hplan, hidentity, RebuildPlan.replaced, sortedSet]
  have hfound : plan.replacement? identity = some replacement := by
    simp [hplan, hidentity, RebuildPlan.replacement?]
  have hentries : plan.expected.entries = sortedByIdentity
      (replacement.entry :: (othersOf card identity).map containerEntry) := by
    rw [hplan, hidentity, ← entries_othersOf card "staged-card"]
  have hexpected : ∀ entry ∈ replacement.entry :: (othersOf card identity).map containerEntry,
      entry.identity ∈ plan.expected.entries.map (·.identity) := by
    intro entry hentry
    rw [hentries]
    exact List.mem_map.mpr ⟨entry, (List.mem_insertionSort _).mpr hentry, rfl⟩
  have hkept : plan.kept card = othersOf card identity := by
    refine kept_eq_othersOf (by rw [hplan]; simp) (by simp [hreplaced]) (fun entry hentry hne => ?_)
      (Or.inr (by simp [hreplaced]))
    exact hexpected (containerEntry entry) (List.mem_cons_of_mem _ (List.mem_map.mpr
      ⟨entry, List.mem_filter.mpr ⟨hentry, by simpa using hne⟩, rfl⟩))
  have hneeded : plan.needed card = replacement.extracted.payload.dataBlocks.length
      - (oldBlocks card identity).length := by
    simp [RebuildPlan.needed, hreplaced, RebuildPlan.neededFor, hfound]
  have hall : ¬ ∃ other ∈ plan.replaced, other ∉ plan.expected.entries.map (·.identity) := by
    rintro ⟨other, hother, hnot⟩
    rw [hreplaced, List.mem_singleton] at hother
    rw [hother, hidentity] at hnot
    exact hnot (hexpected _ List.mem_cons_self)
  obtain ⟨raw', card', hrebuilt, hrebuild⟩ := @rebuild_outcome sha256 raw card plan h
    (by rw [hplan]; simpa using hextracted)
  have hresulting : plan.expected.entries = plan.resulting card := by
    obtain ⟨-, deleted, hlayout⟩ := layout_of_parse h
    have hperm := List.perm_insertionSort (fun a b : ContainerEntry => a.identity ≤ b.identity)
      (replacement.entry :: (othersOf card identity).map containerEntry)
    rw [RebuildPlan.resulting, hkept, RebuildPlan.written, hreplaced,
      List.filterMap_cons_some (by rw [hfound]; rfl), List.filterMap_nil, hentries]
    refine sortedByIdentity_eq (hperm.trans (List.perm_append_singleton _ _).symm) ?_
      (List.pairwise_insertionSort (fun a b : ContainerEntry => a.identity ≤ b.identity) _)
    refine (hperm.map _).nodup_iff.mpr (List.nodup_cons.mpr ⟨fun hin => ?_, ?_⟩)
    · obtain ⟨other, hother, hid⟩ := List.mem_map.mp hin
      obtain ⟨parsed, hparsed, rfl⟩ := List.mem_map.mp hother
      exact of_decide_eq_true (List.mem_filter.mp hparsed).2 (hid.trans hidentity.symm)
    · rw [List.map_map]
      exact hlayout.identities.sublist (List.filter_sublist.map _)
  rw [if_neg hall, if_pos hresulting, hneeded] at hrebuild
  rw [hround, ← hidentity]
  split
  · next hshort => rw [hrebuild, if_pos hshort]
  · next henough =>
    have hdone := hrebuilt (by omega)
    obtain ⟨stored, hstored, same, hsame, hholding⟩ := hdone.stored identity (by simp [hreplaced])
    rw [hfound] at hsame
    cases hsame
    rw [if_neg henough] at hrebuild
    refine ⟨raw', card', ⟨stored.filename, stored.frames, stored.dataBlocks⟩, hrebuild,
      hdone.accepted, fun containerId => ?_, ⟨hholding.filename, hholding.dataBlocks,
        hholding.frames⟩, fun entry hentry => hdone.kept entry (hkept ▸ hentry)⟩
    have hread := extractEntry_of_mem hdone.accepted hstored containerId
    have hid : stored.identity = identity :=
      (congrArg ContainerEntry.identity hholding.same).trans hidentity.symm
    have hhash : stored.canonicalHash = replacement.entry.canonicalHash :=
      congrArg ContainerEntry.canonicalHash hholding.same
    rw [hid] at hread
    rw [hread, extracted, hid, hhash]

/-- The save of another card is put on an empty one. -/
theorem movedSave_replaced : ∃ (card : ParsedCard) (replacement : EntryReplacement),
    parse spell (cardImage blankHeader noSave emptyData) = .ok card
      ∧ Extracted spell replacement ∧ ∃ raw' card' stored,
        replaceEntry spell (cardImage blankHeader noSave emptyData) replacement = .ok raw'
        ∧ extractEntry spell raw' (snapshotOf card' "card") replacement.entry.identity
          = .ok ⟨replacement.entry.identity, replacement.entry.canonicalHash, stored⟩
        ∧ stored.filename = saveName := by
  obtain ⟨source, entry, hsource, hentry, hblocks, hname⟩ := @parse_oneSave 0 (Or.inl rfl)
  obtain ⟨card, hcard, hlive, hfree⟩ := parse_noSave
  have hextracted : Extracted spell ⟨containerEntry entry, extracted entry⟩ :=
    ⟨_, source, entry, hsource, hentry, rfl, rfl⟩
  have houtcome := replaceEntry_outcome hcard hextracted
  have hlength : entry.dataBlocks.length = 1 := by
    rw [(stored_of_parse hsource hentry).length_dataBlocks, hblocks]
    rfl
  have hroom : ¬ card.freeBlocks.length < (extracted entry).payload.dataBlocks.length
      - (oldBlocks card (containerEntry entry).identity).length := by
    have hfifteen : card.freeBlocks.length = 15 := by rw [hfree]; rfl
    have hone : (extracted entry).payload.dataBlocks.length = 1 := hlength
    omega
  rw [if_neg hroom] at houtcome
  obtain ⟨raw', card', stored, hreplaced, -, hread, hpayload, -⟩ := houtcome
  exact ⟨card, _, hcard, hextracted, raw', card', stored, hreplaced, hread "card",
    hpayload.filename.trans hname⟩

end RomCloud.Containers.Ps1
