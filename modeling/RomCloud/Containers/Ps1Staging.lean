import RomCloud.Containers.FolderVerified
import RomCloud.Containers.Ps1Entries
import RomCloud.SaveSync.ContainerMerge

namespace RomCloud.Containers.Ps1

open Lib
open SaveSync (ContainerEntry ContainerSnapshot ContainerBaseline ContainerReconcilePlan Realizable
  planContainerReconcile planContainerReconcile_spec realizable_of_observed snapshotToDomains
  sortedByIdentity targetSnapshot)

/-!
# Reconciling two memory cards

The cards of both sides are merged game by game.  For each side that has not its target already a
candidate is staged, with the saves that it lacks taken from either card.

* `CardSide`, `stageContainerTarget` — the candidate of a side;
* `growth` — the free blocks that a target takes;
* `Staged` — what staging does for a side;
* `staged_of_observed`, `cards_reconciled` — it does so for every target of entries that were read,
  and for both targets of every plan.
-/

/-! ### Staging -/

/-- A side of a reconciliation: its card, and what the adapter has read of it. -/
structure CardSide where
  raw : Bytes
  snapshot : ContainerSnapshot

def CardSide.has (side : CardSide) (entry : ContainerEntry) : Bool :=
  side.snapshot.entries.any fun value => sameEntry value entry

section Staging

variable (sha256 : Bytes → String)

/-- A side, as it is read. -/
def CardSide.extract (side : CardSide) (entry : ContainerEntry) : Except Raised EntryReplacement :=
  (extractEntry sha256 side.raw side.snapshot entry.identity).map (EntryReplacement.mk entry)

/-- Where an entry of a target is taken from. -/
def replacementFor (localSide remoteSide : CardSide) (entry : ContainerEntry) :
    Except Raised EntryReplacement :=
  if localSide.has entry then localSide.extract sha256 entry
  else if remoteSide.has entry then remoteSide.extract sha256 entry
  else .error (.verification "No verified logical source exists for a container entry")

/-- `_stage_container_target`: the candidate for a side that has not its target already.
No two entries of a snapshot have one identity. -/
def stageContainerTarget (localSide remoteSide destination : CardSide)
    (target : ContainerSnapshot) : Except Raised (Option Bytes) :=
  if destination.snapshot.entries = target.entries then .ok none
  else do
    let replacements ← mapEach (replacementFor sha256 localSide remoteSide)
      (target.entries.filter fun entry => !destination.has entry)
    let removals := (destination.snapshot.entries.map (·.identity)).filter fun identity =>
      identity ∉ target.entries.map (·.identity)
    let candidate ← rebuild sha256 destination.raw ⟨target, replacements, sortedSet removals⟩
    return some candidate

end Staging

/-! ### Entries that were read -/

/-- An entry was read from an accepted card. -/
def ReadFrom (sha256 : Bytes → String) (entry : ContainerEntry) : Prop :=
  ∃ raw card parsed, parse sha256 raw = .ok card ∧ parsed ∈ card.live
    ∧ entry = containerEntry parsed

variable {sha256 : Bytes → String} {raw : Bytes} {card : ParsedCard} {entry other : ContainerEntry}

/-- The hash of a save determines its size. -/
theorem sizeBytes_eq_of_hash (hsha256 : Function.Injective sha256) (h : ReadFrom sha256 entry)
    (hother : ReadFrom sha256 other) (hhash : entry.canonicalHash = other.canonicalHash) :
    entry.sizeBytes = other.sizeBytes := by
  obtain ⟨raw, card, parsed, hparse, hmem, rfl⟩ := h
  obtain ⟨otherRaw, otherCard, otherParsed, hotherParse, hotherMem, rfl⟩ := hother
  obtain ⟨hdigest, hname, hcount⟩ := canonicalHash_of_mem hparse hmem
  obtain ⟨hotherDigest, hotherName, hotherCount⟩ := canonicalHash_of_mem hotherParse hotherMem
  have hframes : ∀ {raw : Bytes} {card : ParsedCard} (blocks : List Block),
      parse sha256 raw = .ok card → ∀ frame ∈ blocks.map (directoryFrame raw), IsFrame frame := by
    intro raw card blocks hparse frame hframe
    obtain ⟨block, -, rfl⟩ := List.mem_map.mp hframe
    exact isFrame_directoryFrame (parse_ok hparse).1 block
  have hdata : ∀ {raw : Bytes} {card : ParsedCard} (blocks : List Block),
      parse sha256 raw = .ok card → ∀ data ∈ blocks.map (blockData raw),
        data.length = blockSize := by
    intro raw card blocks hparse data hdata
    obtain ⟨block, -, rfl⟩ := List.mem_map.mp hdata
    exact length_blockData (parse_ok hparse).1 block
  have hencoded : encode parsed.filename (parsed.blocks.map (directoryFrame raw))
      (parsed.blocks.map (blockData raw)) = encode otherParsed.filename
        (otherParsed.blocks.map (directoryFrame otherRaw))
        (otherParsed.blocks.map (blockData otherRaw)) :=
    hsha256 (hdigest.symm.trans (hhash.trans hotherDigest))
  rw [encode_eq_iff (by omega) (by omega) (hframes _ hparse) (hframes _ hotherParse)
    (by rw [List.length_map]; omega) (by rw [List.length_map]; omega) (hdata _ hparse)
    (hdata _ hotherParse) (by simp) (by simp)] at hencoded
  have hlengths := hencoded.2.1.length_eq
  rw [List.length_map, List.length_map] at hlengths
  show parsed.blocks.length * blockSize = otherParsed.blocks.length * blockSize
  rw [hlengths]

/-- An entry is another one that was read, once it has its identity, its hash and its domain. -/
theorem eq_of_sameEntry (hsha256 : Function.Injective sha256) (h : ReadFrom sha256 entry)
    (hother : ReadFrom sha256 other) (hsame : sameEntry entry other = true) : entry = other := by
  simp only [sameEntry, Bool.and_eq_true, decide_eq_true_eq] at hsame
  obtain ⟨⟨hidentity, hhash⟩, hdomain⟩ := hsame
  have hsize := sizeBytes_eq_of_hash hsha256 h hother hhash
  obtain ⟨identity, domain, hash, size⟩ := entry
  obtain ⟨_, _, _, _⟩ := other
  simp only at hidentity hhash hdomain hsize
  rw [hidentity, hhash, hdomain, hsize]

theorem readFrom_of_mem {containerId : String} (h : parse sha256 raw = .ok card)
    (hentry : entry ∈ (snapshotOf card containerId).entries) : ReadFrom sha256 entry := by
  obtain ⟨parsed, hparsed, rfl⟩ := List.mem_map.mp hentry
  exact ⟨raw, card, parsed, h, hparsed, rfl⟩

theorem sameEntry_refl (entry : ContainerEntry) : sameEntry entry entry = true := by
  simp [sameEntry]

/-- A side that has been read has an entry exactly if it is among those that were read. -/
theorem has_iff (hsha256 : Function.Injective sha256) {containerId : String}
    (h : parse sha256 raw = .ok card) (hentry : ReadFrom sha256 entry) :
    CardSide.has ⟨raw, snapshotOf card containerId⟩ entry = true
      ↔ entry ∈ (snapshotOf card containerId).entries := by
  rw [CardSide.has, List.any_eq_true]
  constructor
  · rintro ⟨value, hvalue, hsame⟩
    rw [← eq_of_sameEntry hsha256 (readFrom_of_mem h hvalue) hentry hsame]
    exact hvalue
  · exact fun hmem => ⟨entry, hmem, sameEntry_refl entry⟩

/-- What is extracted of an entry that was read. -/
theorem extract_ok {containerId : String} (h : parse sha256 raw = .ok card)
    (hentry : entry ∈ (snapshotOf card containerId).entries) :
    ∃ replacement, CardSide.extract sha256 ⟨raw, snapshotOf card containerId⟩ entry
        = .ok replacement ∧ replacement.entry = entry ∧ Extracted sha256 replacement := by
  obtain ⟨parsed, hparsed, rfl⟩ := List.mem_map.mp hentry
  refine ⟨⟨containerEntry parsed, extracted parsed⟩, ?_, rfl, raw, card, parsed, h, hparsed, rfl,
    rfl⟩
  show (extractEntry sha256 raw (snapshotOf card containerId) parsed.identity).map _ = _
  rw [extractEntry_of_mem h hparsed]
  rfl

/-! ### The plan of a target -/

/-- The free blocks that a target takes: what its saves have grown by. -/
def growth (card : ParsedCard) (target : ContainerSnapshot) : ℕ :=
  (target.entries.map fun entry =>
    entry.sizeBytes / blockSize - (oldBlocks card entry.identity).length).sum

/-- What staging does for a side. -/
def Staged (sha256 : Bytes → String) (card : ParsedCard) (target : ContainerSnapshot)
    (result : Except Raised (Option Bytes)) : Prop :=
  if card.live.map containerEntry = target.entries then result = .ok none
  else if card.freeBlocks.length < growth card target then result = .error noCapacity
  else ∃ raw' card', result = .ok (some raw') ∧ parse sha256 raw' = .ok card'
    ∧ card'.live.map containerEntry = target.entries
    -- what the side has already stays in its blocks
    ∧ (∀ entry ∈ card.live, containerEntry entry ∈ target.entries → entry ∈ card'.live)
    ∧ card'.freeBlocks = card.freeBlocks.drop (growth card target)

/-- A sum needs no members that add nothing. -/
theorem sum_map_filter {α : Type} {f : α → ℕ} {p : α → Bool} {l : List α}
    (h : ∀ x ∈ l, p x = false → f x = 0) : (l.map f).sum = ((l.filter p).map f).sum := by
  induction l with
  | nil => rfl
  | cons x rest ih =>
    have ih := ih fun y hy => h y (List.mem_cons_of_mem _ hy)
    cases hp : p x with
    | true => rw [List.filter_cons_of_pos hp, List.map_cons, List.map_cons, List.sum_cons,
        List.sum_cons, ih]
    | false =>
      rw [List.filter_cons_of_neg (by simp [hp]), List.map_cons, List.sum_cons,
        h x List.mem_cons_self hp, Nat.zero_add, ih]

section Target

variable {target : ContainerSnapshot} {replacements : List EntryReplacement}

/-- A plan for a target: the entries that the card lacks are replaced, and what is not in the target
goes. -/
structure PlanOf (sha256 : Bytes → String) (card : ParsedCard) (target : ContainerSnapshot)
    (plan : RebuildPlan) : Prop where
  expected : plan.expected = target
  extracted : ∀ replacement ∈ plan.replacements, Extracted sha256 replacement
  replaced : plan.replacements.map (·.entry)
    = target.entries.filter fun entry => entry ∉ card.live.map containerEntry
  removals : ∀ identity ∈ plan.removals, identity ∉ target.entries.map (·.identity)

variable {plan : RebuildPlan}

namespace PlanOf

theorem mem_replaced_iff (h : PlanOf sha256 card target plan) {identity : String} :
    identity ∈ plan.replaced ↔ ∃ entry ∈ target.entries, entry ∉ card.live.map containerEntry
      ∧ entry.identity = identity := by
  have hmap : plan.replacements.map (·.entry.identity)
      = (target.entries.filter fun entry => entry ∉ card.live.map containerEntry).map
        (·.identity) := by
    rw [← h.replaced, List.map_map]
    rfl
  rw [RebuildPlan.replaced, mem_sortedSet, hmap]
  simp only [List.mem_map, List.mem_filter, decide_eq_true_eq, and_assoc]

/-- The replacement of an entry that the card lacks. -/
theorem replacement_of (h : PlanOf sha256 card target plan)
    (htarget : (target.entries.map (·.identity)).Nodup) (hentry : entry ∈ target.entries)
    (hlacks : entry ∉ card.live.map containerEntry) :
    ∃ replacement, plan.replacement? entry.identity = some replacement
      ∧ replacement.entry = entry ∧ Extracted sha256 replacement := by
  obtain ⟨replacement, hmem, hfound, hid⟩ :=
    exists_replacement (h.mem_replaced_iff.mpr ⟨entry, hentry, hlacks, rfl⟩)
  have hin : replacement.entry ∈ plan.replacements.map (·.entry) :=
    List.mem_map.mpr ⟨replacement, hmem, rfl⟩
  rw [h.replaced] at hin
  exact ⟨replacement, hfound,
    List.inj_on_of_nodup_map htarget (List.mem_filter.mp hin).1 hentry hid,
    h.extracted replacement hmem⟩

/-- What is written are the entries that the card lacks. -/
theorem mem_written_iff (h : PlanOf sha256 card target plan)
    (htarget : (target.entries.map (·.identity)).Nodup) :
    entry ∈ plan.written plan.replaced
      ↔ entry ∈ target.entries ∧ entry ∉ card.live.map containerEntry := by
  rw [RebuildPlan.written, List.mem_filterMap]
  constructor
  · rintro ⟨identity, hidentity, hfound⟩
    obtain ⟨wanted, hwanted, hlacks, rfl⟩ := h.mem_replaced_iff.mp hidentity
    obtain ⟨replacement, hreplacement, rfl, -⟩ := h.replacement_of htarget hwanted hlacks
    rw [hreplacement] at hfound
    cases hfound
    exact ⟨hwanted, hlacks⟩
  · rintro ⟨hentry, hlacks⟩
    obtain ⟨replacement, hreplacement, hsame, -⟩ := h.replacement_of htarget hentry hlacks
    refine ⟨entry.identity, h.mem_replaced_iff.mpr ⟨entry, hentry, hlacks, rfl⟩, ?_⟩
    rw [hreplacement, Option.map_some, hsame]

/-- What is kept are the entries of the target that the card has. -/
theorem mem_kept_iff (h : PlanOf sha256 card target plan)
    (hcard : (card.live.map (·.identity)).Nodup)
    (htarget : (target.entries.map (·.identity)).Nodup) {parsed : ParsedEntry} :
    parsed ∈ plan.kept card ↔ parsed ∈ card.live ∧ containerEntry parsed ∈ target.entries := by
  have hremoved : ∀ e ∈ card.live, e.identity ∈ plan.removed card
      ↔ e.identity ∉ target.entries.map (·.identity) := by
    intro e he
    rw [RebuildPlan.removed, mem_sortedSet, List.mem_append, List.mem_filter, h.expected,
      decide_eq_true_eq]
    exact ⟨fun hin => hin.elim (h.removals _) And.right,
      fun hnot => Or.inr ⟨List.mem_map.mpr ⟨e, he, rfl⟩, hnot⟩⟩
  rw [RebuildPlan.kept, List.mem_filter, decide_eq_true_eq]
  refine and_congr_right fun hlive => ?_
  rw [hremoved parsed hlive, not_not, h.mem_replaced_iff]
  constructor
  · rintro ⟨hexpected, hkept⟩
    obtain ⟨wanted, hwanted, hid⟩ := List.mem_map.mp hexpected
    by_cases hhas : wanted ∈ card.live.map containerEntry
    · obtain ⟨e, he, rfl⟩ := List.mem_map.mp hhas
      rwa [← List.inj_on_of_nodup_map hcard he hlive hid]
    · exact absurd ⟨wanted, hwanted, hhas, hid⟩ hkept
  · intro hwanted
    refine ⟨List.mem_map.mpr ⟨_, hwanted, rfl⟩, ?_⟩
    rintro ⟨other, hother, hlacks, hid⟩
    rw [List.inj_on_of_nodup_map htarget hother hwanted hid] at hlacks
    exact hlacks (List.mem_map.mpr ⟨parsed, hlive, rfl⟩)

/-- **The plan makes the target.** -/
theorem resulting_eq (h : PlanOf sha256 card target plan)
    (hcard : (card.live.map (·.identity)).Nodup)
    (htarget : (target.entries.map (·.identity)).Nodup)
    (hsorted : target.entries.Pairwise fun a b => a.identity ≤ b.identity) :
    plan.resulting card = target.entries := by
  refine (sortedByIdentity_eq ?_ htarget hsorted).symm
  have hentries : (card.live.map containerEntry).Nodup := by
    refine List.Nodup.of_map (·.identity) ?_
    rw [List.map_map]
    exact hcard
  have hkept : ((plan.kept card).map containerEntry).Nodup :=
    hentries.sublist (List.filter_sublist.map containerEntry)
  have hwritten : (plan.written plan.replaced).Nodup := by
    refine (sortedSet_nodup _).filterMap fun one two e hone htwo => ?_
    obtain ⟨replacement, hreplacement, rfl⟩ := Option.map_eq_some_iff.mp hone
    obtain ⟨other, hother, heq⟩ := Option.map_eq_some_iff.mp htwo
    have hid : replacement.entry.identity = one := by simpa using List.find?_some hreplacement
    have hid' : other.entry.identity = two := by simpa using List.find?_some hother
    rw [← hid, ← hid', heq]
  refine (List.perm_ext_iff_of_nodup (List.Nodup.of_map _ htarget) ?_).mpr fun e => ?_
  · refine List.nodup_append.mpr ⟨hkept, hwritten, ?_⟩
    rintro a ha b hb rfl
    obtain ⟨parsed, hparsed, rfl⟩ := List.mem_map.mp ha
    exact ((h.mem_written_iff htarget).mp hb).2
      (List.mem_map.mpr ⟨parsed, ((h.mem_kept_iff hcard htarget).mp hparsed).1, rfl⟩)
  · rw [List.mem_append, h.mem_written_iff htarget, List.mem_map]
    constructor
    · intro hin
      by_cases hhas : e ∈ card.live.map containerEntry
      · obtain ⟨parsed, hparsed, rfl⟩ := List.mem_map.mp hhas
        exact Or.inl ⟨parsed, (h.mem_kept_iff hcard htarget).mpr ⟨hparsed, hin⟩, rfl⟩
      · exact Or.inr ⟨hin, hhas⟩
    · rintro (⟨parsed, hparsed, rfl⟩ | ⟨hin, -⟩)
      · exact ((h.mem_kept_iff hcard htarget).mp hparsed).2
      · exact hin

/-- A save that is written takes the free blocks that it has grown by. -/
theorem neededFor_eq (h : PlanOf sha256 card target plan)
    (htarget : (target.entries.map (·.identity)).Nodup) (hentry : entry ∈ target.entries)
    (hlacks : entry ∉ card.live.map containerEntry) : plan.neededFor card entry.identity
      = entry.sizeBytes / blockSize - (oldBlocks card entry.identity).length := by
  obtain ⟨replacement, hfound, rfl, source, sourceCard, parsed, hparse, hmem, hread, hpayload⟩ :=
    h.replacement_of htarget hentry hlacks
  have hlength : replacement.extracted.payload.dataBlocks.length = parsed.blocks.length := by
    rw [hpayload]
    exact (stored_of_parse hparse hmem).length_dataBlocks
  have hsize : replacement.entry.sizeBytes / blockSize = parsed.blocks.length := by
    rw [hread]
    exact Nat.mul_div_cancel _ (by decide)
  rw [RebuildPlan.neededFor, hfound, Option.elim_some, hlength, hsize]

/-- The free blocks that the plan takes are what the saves have grown by. -/
theorem needed_eq (h : PlanOf sha256 card target plan)
    (hcard : (card.live.map (·.identity)).Nodup)
    (htarget : (target.entries.map (·.identity)).Nodup) :
    plan.needed card = growth card target := by
  obtain ⟨lacking, hlacking⟩ : ∃ lacking, lacking
      = target.entries.filter fun e => e ∉ card.live.map containerEntry := ⟨_, rfl⟩
  have hperm : plan.replaced.Perm (lacking.map (·.identity)) := by
    refine (List.perm_ext_iff_of_nodup (sortedSet_nodup _) ?_).mpr fun identity => ?_
    · rw [hlacking]
      exact htarget.sublist (List.filter_sublist.map _)
    · refine h.mem_replaced_iff.trans ?_
      rw [hlacking]
      simp only [List.mem_map, List.mem_filter, decide_eq_true_eq, and_assoc]
  rw [growth, sum_map_filter (p := fun e => decide (e ∉ card.live.map containerEntry)), ← hlacking,
    RebuildPlan.needed, (hperm.map _).sum_eq, List.map_map]
  · refine congrArg List.sum (List.map_congr_left fun e he => ?_)
    rw [hlacking, List.mem_filter, decide_eq_true_eq] at he
    exact h.neededFor_eq htarget he.1 he.2
  · intro e _ hhas
    rw [decide_eq_false_iff_not, not_not] at hhas
    obtain ⟨parsed, hparsed, rfl⟩ := List.mem_map.mp hhas
    have hold : oldBlocks card (containerEntry parsed).identity = parsed.blocks := by
      rcases existing_cases card parsed.identity with ⟨-, -, hothers⟩ | ⟨e, hmem, -, hid, hblocks⟩
      · exact absurd rfl (hothers parsed hparsed)
      · exact hblocks.trans
          (congrArg ParsedEntry.blocks (List.inj_on_of_nodup_map hcard hmem hparsed hid))
    have hsize : (containerEntry parsed).sizeBytes / blockSize = parsed.blocks.length :=
      Nat.mul_div_cancel _ (by decide)
    rw [hsize, hold, Nat.sub_self]

end PlanOf

end Target

/-! ### Staging a target -/

/-- The results for members that each have one. -/
theorem mapEach_total {ε α β : Type} {f : α → Except ε β} {R : α → β → Prop} {l : List α}
    (h : ∀ x ∈ l, ∃ y, f x = .ok y ∧ R x y) :
    ∃ ys, mapEach f l = .ok ys ∧ List.Forall₂ R l ys := by
  induction l with
  | nil => exact ⟨[], rfl, .nil⟩
  | cons x rest ih =>
    obtain ⟨y, hy, hgood⟩ := h x List.mem_cons_self
    obtain ⟨ys, hys, hall⟩ := ih fun z hz => h z (List.mem_cons_of_mem _ hz)
    exact ⟨y :: ys, by rw [mapEach, hy, hys], .cons hgood hall⟩

section Cards

variable {containerId : String} {localRaw remoteRaw : Bytes} {localCard remoteCard : ParsedCard}
  {target : ContainerSnapshot}

/-- **Staging.** It does what it has to for every target of entries that were read. -/
theorem staged_of_observed (hsha256 : Function.Injective sha256)
    (hlocal : parse sha256 localRaw = .ok localCard)
    (hremote : parse sha256 remoteRaw = .ok remoteCard) (hdest : parse sha256 raw = .ok card)
    (hobserved : ∀ entry ∈ target.entries, entry ∈ (snapshotOf localCard containerId).entries
      ∨ entry ∈ (snapshotOf remoteCard containerId).entries)
    (htarget : (target.entries.map (·.identity)).Nodup)
    (hsorted : target.entries.Pairwise fun a b => a.identity ≤ b.identity) :
    Staged sha256 card target (stageContainerTarget sha256
      ⟨localRaw, snapshotOf localCard containerId⟩ ⟨remoteRaw, snapshotOf remoteCard containerId⟩
      ⟨raw, snapshotOf card containerId⟩ target) := by
  obtain ⟨-, deleted, hlayout⟩ := layout_of_parse hdest
  have hread : ∀ entry ∈ target.entries, ReadFrom sha256 entry := fun entry hentry =>
    (hobserved entry hentry).elim (readFrom_of_mem hlocal) (readFrom_of_mem hremote)
  have hlacking : (target.entries.filter fun entry =>
        !CardSide.has ⟨raw, snapshotOf card containerId⟩ entry)
      = target.entries.filter fun entry => entry ∉ card.live.map containerEntry := by
    refine List.filter_congr fun entry hentry => ?_
    rw [Bool.eq_iff_iff, Bool.not_eq_true', ← Bool.not_eq_true,
      has_iff hsha256 hdest (hread entry hentry), decide_eq_true_eq]
    rfl
  obtain ⟨replacements, hmapped, hall⟩ := mapEach_total (l := target.entries.filter fun entry =>
      entry ∉ card.live.map containerEntry)
    (f := replacementFor sha256 ⟨localRaw, snapshotOf localCard containerId⟩
      ⟨remoteRaw, snapshotOf remoteCard containerId⟩)
    (R := fun entry replacement => replacement.entry = entry ∧ Extracted sha256 replacement) (by
      intro entry hentry
      have hmem := (List.mem_filter.mp hentry).1
      rw [replacementFor]
      by_cases hhas : entry ∈ (snapshotOf localCard containerId).entries
      · rw [if_pos ((has_iff hsha256 hlocal (hread entry hmem)).mpr hhas)]
        exact extract_ok hlocal hhas
      · have hother := (hobserved entry hmem).resolve_left hhas
        rw [if_neg fun hin => hhas ((has_iff hsha256 hlocal (hread entry hmem)).mp hin),
          if_pos ((has_iff hsha256 hremote (hread entry hmem)).mpr hother)]
        exact extract_ok hremote hother)
  obtain ⟨plan, hplan⟩ : ∃ plan : RebuildPlan, plan = ⟨target, replacements, sortedSet
      (((snapshotOf card containerId).entries.map (·.identity)).filter fun identity =>
        identity ∉ target.entries.map (·.identity))⟩ := ⟨_, rfl⟩
  have hplanOf : PlanOf sha256 card target plan := by
    subst hplan
    refine ⟨rfl, fun replacement hmem => ?_, ?_, fun identity hin => ?_⟩
    · obtain ⟨i, hi, rfl⟩ := List.getElem_of_mem hmem
      exact (hall.get (hall.length_eq ▸ hi) hi).2
    · have hentries := List.forall₂_map_right_iff.mpr (hall.imp fun _ _ h => h.1.symm)
      exact (List.forall₂_eq_eq_eq ▸ hentries).symm
    · exact of_decide_eq_true (List.mem_filter.mp ((mem_sortedSet _ _).mp hin)).2
  have hresulting := hplanOf.resulting_eq hlayout.identities htarget hsorted
  have hneeded := hplanOf.needed_eq hlayout.identities htarget
  have hexpected : ¬ ∃ identity ∈ plan.replaced,
      identity ∉ plan.expected.entries.map (·.identity) := by
    rintro ⟨identity, hin, hnot⟩
    obtain ⟨entry, hentry, -, rfl⟩ := hplanOf.mem_replaced_iff.mp hin
    rw [hplanOf.expected] at hnot
    exact hnot (List.mem_map.mpr ⟨entry, hentry, rfl⟩)
  obtain ⟨raw', card', hrebuilt, hrebuild⟩ := rebuild_outcome hdest hplanOf.extracted
  rw [if_neg hexpected, hneeded, hplanOf.expected, if_pos hresulting.symm] at hrebuild
  rw [Staged, stageContainerTarget]
  by_cases hsame : card.live.map containerEntry = target.entries
  · rw [if_pos hsame]
    exact if_pos hsame
  rw [if_neg hsame, if_neg (show (snapshotOf card containerId).entries ≠ target.entries from hsame),
    hlacking, hmapped, ok_bind]
  simp only [← hplan, hrebuild]
  by_cases hshort : card.freeBlocks.length < growth card target
  · rw [if_pos hshort, if_pos hshort]
    rfl
  · rw [if_neg hshort, if_neg hshort]
    have hdone := hrebuilt (by rw [hneeded]; omega)
    refine ⟨raw', card', rfl, hdone.accepted, hdone.entries.trans hresulting,
      fun entry hentry hin => hdone.kept entry ?_, hneeded ▸ hdone.free⟩
    exact (hplanOf.mem_kept_iff hlayout.identities htarget).mpr ⟨hentry, hin⟩

theorem domain_of_identity {entry other : ContainerEntry} (h : ReadFrom sha256 entry)
    (hother : ReadFrom sha256 other) (hid : entry.identity = other.identity) :
    entry.mergeDomainId = other.mergeDomainId := by
  obtain ⟨raw, card, parsed, hparse, hmem, rfl⟩ := h
  obtain ⟨otherRaw, otherCard, otherParsed, hotherParse, hotherMem, rfl⟩ := hother
  have hof := (stored_of_parse hparse hmem).entryOf
  have hotherOf := (stored_of_parse hotherParse hotherMem).entryOf
  have hname : parsed.filename = otherParsed.filename :=
    hex_inj (hof.identity.symm.trans (hid.trans hotherOf.identity))
  obtain ⟨game, hgame, hdomain⟩ := hof.domain
  obtain ⟨otherGame, hotherGame, hotherDomain⟩ := hotherOf.domain
  rw [hname, hotherGame] at hgame
  cases hgame
  exact hdomain.trans hotherDomain.symm

theorem sorted_of_targetSnapshot {desired : SaveSync.LogicalDomains}
    {localSnapshot remoteSnapshot : ContainerSnapshot}
    (h : targetSnapshot desired localSnapshot remoteSnapshot = .ok target) :
    target.entries.Pairwise fun a b => a.identity ≤ b.identity := by
  unfold targetSnapshot at h
  split at h
  · cases h
  · cases h
    exact SaveSync.sortedByIdentity_pairwise _

/-- **Reconciling two cards.** Whatever was agreed on before, both sides have targets with the
merged domains, and each is staged a candidate that reads back as its target, unless it has its
target already or lacks the free blocks. -/
theorem cards_reconciled (hsha256 : Function.Injective sha256)
    (hlocal : parse sha256 localRaw = .ok localCard)
    (hremote : parse sha256 remoteRaw = .ok remoteCard) {baseline : Option ContainerBaseline}
    {plan : ContainerReconcilePlan} (hplan : planContainerReconcile
      (snapshotOf localCard containerId) (snapshotOf remoteCard containerId) baseline = .ok plan)
    (side : Side) :
    ∃ target, targetSnapshot (side.pick plan.desiredLocal plan.desiredRemote)
        (snapshotOf localCard containerId) (snapshotOf remoteCard containerId) = .ok target
      ∧ snapshotToDomains target = side.pick plan.desiredLocal plan.desiredRemote
      ∧ Staged sha256 (side.pick localCard remoteCard) target (stageContainerTarget sha256
        ⟨localRaw, snapshotOf localCard containerId⟩ ⟨remoteRaw, snapshotOf remoteCard containerId⟩
        (side.pick ⟨localRaw, snapshotOf localCard containerId⟩
          ⟨remoteRaw, snapshotOf remoteCard containerId⟩) target) := by
  have hidentities : ∀ {raw : Bytes} {card : ParsedCard}, parse sha256 raw = .ok card →
      ((snapshotOf card containerId).entries.map (·.identity)).Nodup := by
    intro raw card hparse
    obtain ⟨-, deleted, hlayout⟩ := layout_of_parse hparse
    show ((card.live.map containerEntry).map (·.identity)).Nodup
    rw [List.map_map]
    exact hlayout.identities
  have hmerged := planContainerReconcile_spec hplan
  have hdesired : ∀ domain entries,
      (side.pick plan.desiredLocal plan.desiredRemote).get? domain = some entries →
      (snapshotToDomains (snapshotOf localCard containerId)).get? domain = some entries
        ∨ (snapshotToDomains (snapshotOf remoteCard containerId)).get? domain = some entries := by
    intro domain entries hget
    cases side with
    | onLocal =>
      rw [Side.pick, hmerged.localDomain, SaveSync.mergedLocal] at hget
      split at hget
      · exact Or.inr hget
      · exact Or.inl hget
    | onRemote =>
      rw [Side.pick, hmerged.remoteDomain, SaveSync.mergedRemote] at hget
      split at hget
      · exact Or.inl hget
      · exact Or.inr hget
  obtain ⟨target, htarget, hnodup, hobserved, hdomains⟩ := realizable_of_observed
    (hidentities hlocal) (hidentities hremote)
    (fun a ha b hb => domain_of_identity (readFrom_of_mem hlocal ha) (readFrom_of_mem hremote hb))
    hdesired
  refine ⟨target, htarget, hdomains, ?_⟩
  cases side with
  | onLocal =>
    exact staged_of_observed hsha256 hlocal hremote hlocal hobserved hnodup
      (sorted_of_targetSnapshot htarget)
  | onRemote =>
    exact staged_of_observed hsha256 hlocal hremote hremote hobserved hnodup
      (sorted_of_targetSnapshot htarget)

end Cards

/-- A card with a save and a card without one, for the first time. -/
theorem savedCard_reconciled : ∃ localCard remoteCard plan target,
    parse spell (cardImage blankHeader (oneSave 0) emptyData) = .ok localCard
      ∧ parse spell (cardImage blankHeader noSave emptyData) = .ok remoteCard
      ∧ planContainerReconcile (snapshotOf localCard "card") (snapshotOf remoteCard "card") none
        = .ok plan
      ∧ snapshotToDomains target = plan.desiredRemote
      ∧ Staged spell remoteCard target (stageContainerTarget spell
        ⟨cardImage blankHeader (oneSave 0) emptyData, snapshotOf localCard "card"⟩
        ⟨cardImage blankHeader noSave emptyData, snapshotOf remoteCard "card"⟩
        ⟨cardImage blankHeader noSave emptyData, snapshotOf remoteCard "card"⟩ target) := by
  obtain ⟨localCard, entry, hlocal, -⟩ := @parse_oneSave 0 (Or.inl rfl)
  obtain ⟨remoteCard, hremote, -⟩ := parse_noSave
  obtain ⟨plan, hplan⟩ := SaveSync.exists_plan (show SaveSync.compatible
    (snapshotOf localCard "card") (snapshotOf remoteCard "card") none = true by
      simp [SaveSync.compatible, snapshotOf])
  obtain ⟨target, -, hdomains, hstaged⟩ :=
    cards_reconciled spell_injective hlocal hremote hplan .onRemote
  exact ⟨localCard, remoteCard, plan, target, hlocal, hremote, hplan, hdomains, hstaged⟩

end RomCloud.Containers.Ps1
