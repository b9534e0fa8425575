import RomCloud.Containers.FolderTransport
import RomCloud.Containers.Ps1Hash

namespace RomCloud.Containers

open Lib
open SaveSync (ContainerBaseline ContainerEntry ContainerReconcilePlan ContainerSnapshot
  planContainerReconcile targetSnapshot)

/-!
# Folder cards after a transaction

* `candidate_of_stage` — what the candidate for a side is made of;
* `sound_of_carried`, `verify_iff` — when the check accepts what a transaction has made of a side;
* `converged_of_entries` — equal snapshots plan nothing;
* `folder_transport` — the files determine what is planned and verified exactly if the directories
  agree in which there is no file.
-/

/-! ### The candidate for a side -/

section Staging

variable {policy : GroupingPolicy} {sha256 : Bytes → String}
  {localSide remoteSide destination : CardSide} {target : ContainerSnapshot}
  {candidate : FolderCard} {side : Side}

/-- The side that is changed. -/
inductive Side
  | onLocal
  | onRemote

/-- What belongs to the side. -/
def Side.pick {α : Type} : Side → α → α → α
  | onLocal, ofLocal, _ => ofLocal
  | onRemote, _, ofRemote => ofRemote

/-- The save of the target is not the one of the side. -/
def Taken (destination : CardSide) (target : ContainerSnapshot) (top : Bytes) : Prop :=
  ∃ entry ∈ target.entries, entry.identity = hex top ∧ destination.has entry = false

theorem extractEntry_spec {card source : FolderCard} {expected : ContainerSnapshot}
    {identity : String} (h : extractEntry policy sha256 card expected identity = .ok source) :
    source = card := by
  unfold extractEntry at h
  obtain ⟨_, -, h⟩ := bind_eq_ok h
  obtain ⟨_, -, h⟩ := bind_eq_ok h
  dsimp only at h
  obtain ⟨-, hsource⟩ := (check_bind_eq_ok_iff _ _ _).mp h
  exact (Except.ok.inj hsource).symm

/-- What the side has not is taken from the other one. -/
theorem replacementFor_spec {entry : ContainerEntry} {replacement : EntryReplacement}
    (hnot : (side.pick localSide remoteSide).has entry = false)
    (h : replacementFor policy sha256 localSide remoteSide entry = .ok replacement) :
    replacement.entry = entry ∧ replacement.source = (side.pick remoteSide localSide).card := by
  have hextracted : ∀ {side : CardSide},
      (extractEntry policy sha256 side.card side.snapshot entry.identity).map
        (EntryReplacement.mk entry) = .ok replacement →
      replacement.entry = entry ∧ replacement.source = side.card := by
    intro side h
    obtain ⟨source, hsource, rfl⟩ := map_eq_ok h
    exact ⟨rfl, extractEntry_spec hsource⟩
  unfold replacementFor at h
  cases side with
  | onLocal =>
    have hnot : localSide.has entry = false := hnot
    rw [if_neg (by simp [hnot])] at h
    split at h
    · exact hextracted h
    · exact absurd h (by simp)
  | onRemote =>
    have hnot : remoteSide.has entry = false := hnot
    split at h
    · exact hextracted h
    · rw [if_neg (by simp [hnot])] at h
      exact absurd h (by simp)

theorem replacements_of_forall₂ {entries : List ContainerEntry}
    {replacements : List EntryReplacement} {source : FolderCard}
    (h : List.Forall₂ (fun entry r => r.entry = entry ∧ r.source = source) entries replacements) :
    replacements.map (·.entry) = entries ∧ ∀ r ∈ replacements, r.source = source := by
  induction h with
  | nil => exact ⟨rfl, fun r hr => absurd hr List.not_mem_nil⟩
  | cons hfirst _ ih =>
    refine ⟨?_, List.forall_mem_cons.mpr ⟨hfirst.2, ih.2⟩⟩
    rw [List.map_cons, hfirst.1, ih.1]

theorem candidate_of_stage (h : stageContainerTarget policy sha256 localSide remoteSide
    (side.pick localSide remoteSide) target = .ok (some candidate)) :
    Candidate policy sha256 (side.pick localSide remoteSide).card
      (side.pick remoteSide localSide).card target (Taken (side.pick localSide remoteSide) target)
      candidate := by
  unfold stageContainerTarget at h
  split at h
  · exact absurd h (by simp)
  obtain ⟨replacements, hreplacements, h⟩ := bind_eq_ok h
  obtain ⟨built, hbuilt, h⟩ := bind_eq_ok h
  obtain rfl := Option.some.inj (Except.ok.inj h)
  obtain ⟨hentries, hsource⟩ := replacements_of_forall₂
    ((forall₂_of_mapEach hreplacements).imp fun entry r found =>
      replacementFor_spec (by simpa using (List.mem_filter.mp found.1).2) found.2)
  have htaken : ∀ top, Taken (side.pick localSide remoteSide) target top
      ↔ hex top ∈ replacements.map (·.entry.identity) := by
    intro top
    have hmap : replacements.map (·.entry.identity)
        = (replacements.map (·.entry)).map (·.identity) := by
      rw [List.map_map]
      rfl
    rw [hmap, hentries, List.mem_map]
    constructor
    · rintro ⟨entry, hentry, hidentity, hnot⟩
      exact ⟨entry, List.mem_filter.mpr ⟨hentry, by simp [hnot]⟩, hidentity⟩
    · rintro ⟨entry, hentry, hidentity⟩
      obtain ⟨hmem, hnot⟩ := List.mem_filter.mp hentry
      exact ⟨entry, hmem, hidentity, by simpa using hnot⟩
  obtain ⟨hreads, hreplaced, hkept⟩ := candidate_of_rebuild hsource hbuilt
  exact ⟨hreads, fun top htop => hreplaced top ((htaken top).mp htop),
    fun top htop => hkept top fun hmem => htop ((htaken top).mpr hmem)⟩

/-- A side that has its target already is left alone. -/
theorem entries_of_stage_none (h : stageContainerTarget policy sha256 localSide remoteSide
    destination target = .ok none) : destination.snapshot.entries = target.entries := by
  unfold stageContainerTarget at h
  split at h
  · assumption
  · obtain ⟨replacements, -, h⟩ := bind_eq_ok h
    obtain ⟨built, -, h⟩ := bind_eq_ok h
    exact absurd (Except.ok.inj h) (by simp)

end Staging

/-! ### Verification -/

section Verification

variable {policy : GroupingPolicy} {sha256 : Bytes → String}
  {before candidate after other : FolderCard} {paths : List CardPath} {top : Bytes}
  {relative : CardPath}

/-- The paths of a transaction that puts a candidate in place: all that a file stands at. -/
def Covers (candidate before : FolderCard) (paths : List CardPath) : Prop :=
  ∀ path, candidate.isFile path = true ∨ before.isFile path = true → path ∈ paths

theorem Carried.file_iff (h : Carried candidate before after paths)
    (hcovers : Covers candidate before paths) {path : CardPath} {content : Bytes} :
    after.nodes.get? path = some (.file content)
      ↔ candidate.nodes.get? path = some (.file content) := by
  rw [h.files]
  by_cases hpath : path ∈ paths
  · rw [if_pos hpath]
  · rw [if_neg hpath]
    refine iff_of_false (fun hfile => hpath (hcovers path (Or.inr ?_)))
      fun hfile => hpath (hcovers path (Or.inl ?_))
    · exact isFile_iff.mpr ⟨content, hfile⟩
    · exact isFile_iff.mpr ⟨content, hfile⟩

theorem Carried.directory_iff (h : Carried candidate before after paths)
    (hcovers : Covers candidate before paths) {path : CardPath} :
    after.nodes.get? path = some .directory ↔ before.nodes.get? path = some .directory
      ∨ ∃ below, candidate.isFile below = true ∧ Above path below := by
  rw [h.directories]
  refine or_congr_right ⟨?_, ?_⟩
  · rintro ⟨below, -, hfile, habove⟩
    exact ⟨below, hfile, habove⟩
  · rintro ⟨below, hfile, habove⟩
    exact ⟨below, hcovers below (Or.inl hfile), hfile, habove⟩

/-- What a transaction leaves is legible. -/
theorem legible_of_carried (hbefore : Legible before) (hcandidate : Legible candidate)
    (h : Carried candidate before after paths) (hcovers : Covers candidate before paths) :
    Legible after := by
  have hmarked : after.Marked := by
    obtain ⟨content, hmarker⟩ := isFile_iff.mp hcandidate.marked.marker
    refine ⟨?_, isFile_iff.mpr ⟨content, ?_⟩, fun name node hnode => ?_⟩
    · exact (h.directory_iff hcovers).mpr (Or.inl hbefore.marked.root)
    · exact (h.file_iff hcovers).mpr hmarker
    · rcases h.others [name] node hnode with (rfl | ⟨content, rfl⟩) | hkept
      · exact ⟨by simp, by simp⟩
      · exact ⟨by simp, by simp⟩
      · exact hbefore.marked.plain name node hkept
  refine ⟨hmarked, fun top htop relative name node hnode => ?_⟩
  have hsafe : ∀ {card : FolderCard} {found : CardNode}, Legible card →
      card.nodes.get? (top :: relative ++ [name]) = some found → safeName name = true := by
    intro card found hlegible hfound
    have hexists : card.nodes.get? (top :: (relative ++ [name])) ≠ none := by
      rw [← List.cons_append, hfound]
      exact Option.some_ne_none _
    exact FolderCard.safe_of_below hlegible hexists name (by simp)
  have hplain : node = .directory ∨ ∃ content, node = .file content := by
    rcases h.others _ node hnode with hplain | hkept
    · exact hplain
    · exact FolderCard.plain_of_below hbefore (List.concat_ne_nil name relative) hkept
  rcases hplain with rfl | ⟨content, rfl⟩
  · refine ⟨⟨by simp, by simp⟩, ?_⟩
    rcases (h.directory_iff hcovers).mp hnode with hkept | ⟨below, hfile, habove⟩
    · exact hsafe hbefore hkept
    · obtain ⟨content, hcontent⟩ := isFile_iff.mp hfile
      exact hsafe hcandidate (FolderCard.directory_of_above habove
        (by rw [hcontent]; exact Option.some_ne_none _))
  · exact ⟨⟨by simp, by simp⟩, hsafe hcandidate ((h.file_iff hcovers).mp hnode)⟩

/-- **Verification.** The check accepts what a transaction leaves exactly if the directories below
    the saves are those of the candidate. -/
theorem verify_iff (hsha256 : Function.Injective sha256) {containerId : String}
    {taken target : ContainerSnapshot} (hbefore : Legible before)
    (hcandidate : snapshot policy sha256 candidate containerId = .ok taken)
    (hentries : taken.entries = target.entries) (h : Carried candidate before after paths)
    (hcovers : Covers candidate before paths) :
    verifyContainerTarget policy sha256 after target = .ok ()
      ↔ candidate.SameDirectories after := by
  have hfiles : candidate.SameFiles after :=
    fun top relative content _ => (h.file_iff hcovers).symm
  have hverify : verifyContainerTarget policy sha256 after target = .ok ()
      ↔ ∃ actual, snapshot policy sha256 after target.containerId = .ok actual
        ∧ actual.entries = target.entries := by
    rw [verifyContainerTarget, bind_eq_ok_iff]
    simp only [require_eq_ok_iff]
  rw [hverify]
  constructor
  · rintro ⟨actual, hactual, hsame⟩
    exact ((entries_eq_iff hsha256 hcandidate hactual).mp (hentries.trans hsame.symm)).2
  · intro hdirectories
    obtain ⟨hsound, groups, hgroups, -⟩ := snapshot_eq_ok_iff.mp hcandidate
    have hlegible := legible_of_carried hbefore hsound.toLegible h hcovers
    obtain ⟨hsaves, hrecords⟩ := (FolderCard.records_eq_iff_same hsound.toLegible hlegible).mpr
      ⟨hfiles, hdirectories⟩
    have hafter : Sound after := by
      refine ⟨hlegible, fun top htop => ?_⟩
      rw [← hsaves] at htop
      rw [← hrecords top htop]
      exact hsound.encodable top htop
    have hactual : snapshot policy sha256 after target.containerId
        = .ok (snapshotOf policy sha256 groups after target.containerId) :=
      snapshot_eq_ok_iff.mpr ⟨hafter, groups, hsaves ▸ hgroups, rfl⟩
    refine ⟨_, hactual, ?_⟩
    rw [← hentries]
    exact ((entries_eq_iff hsha256 hcandidate hactual).mpr ⟨hfiles, hdirectories⟩).symm

/-- There is a file below a path. -/
def FolderCard.FileBelow (card : FolderCard) (path : CardPath) : Prop :=
  ∃ below, card.isFile below = true ∧ Above path below

/-- Below a top directory two cards have the same directories, where the second has no file. -/
def SameResidue (card other : FolderCard) (top : Bytes) : Prop :=
  ∀ relative, ¬ other.FileBelow (top :: relative) →
    (card.nodes.get? (top :: relative) = some .directory
      ↔ other.nodes.get? (top :: relative) = some .directory)

theorem FolderCard.FileBelow.directory {card : FolderCard} {path : CardPath}
    (h : card.FileBelow path) : card.nodes.get? path = some .directory := by
  obtain ⟨below, hfile, habove⟩ := h
  obtain ⟨content, hcontent⟩ := isFile_iff.mp hfile
  exact FolderCard.directory_of_above habove (by rw [hcontent]; exact Option.some_ne_none _)

theorem SameTree.fileBelow (h : SameTree top candidate other)
    (hbelow : candidate.FileBelow (top :: relative)) : other.FileBelow (top :: relative) := by
  obtain ⟨below, hfile, habove⟩ := hbelow
  obtain ⟨more, -, rfl⟩ := habove.exists_append
  obtain ⟨content, hcontent⟩ := isFile_iff.mp hfile
  exact ⟨_, isFile_iff.mpr ⟨content, (h (relative ++ more)).symm.trans hcontent⟩, habove⟩

theorem SameTree.symm (h : SameTree top candidate other) : SameTree top other candidate :=
  fun relative => (h relative).symm

/-- The directories of a candidate are those that a transaction leaves exactly if, below each tree
    that was taken from another card, the directories without files are the same as before. -/
theorem sameDirectories_iff {policy : GroupingPolicy} {sha256 : Bytes → String}
    {target : ContainerSnapshot} {Chosen : Bytes → Prop}
    (hcandidate : Candidate policy sha256 before other target Chosen candidate)
    (hchosen : ∀ top, Chosen top → candidate.HasFile top)
    (h : Carried candidate before after paths) (hcovers : Covers candidate before paths) :
    candidate.SameDirectories after ↔ ∀ top, Chosen top → SameResidue before other top := by
  constructor
  · intro hdirectories top htop relative hnone
    have htree := hcandidate.replaced top htop
    have hafter := (hdirectories top relative (hchosen top htop)).trans (h.directory_iff hcovers)
    rw [htree relative] at hafter
    rw [hafter]
    refine (or_iff_left ?_).symm
    rintro ⟨below, hfile, habove⟩
    exact hnone (htree.fileBelow ⟨below, hfile, habove⟩)
  · intro hresidue top relative hfile
    have hbelow : ∀ {p}, (∃ below, candidate.isFile below = true ∧ Above p below)
        ↔ candidate.FileBelow p := Iff.rfl
    rw [h.directory_iff hcovers, hbelow]
    by_cases hfiles : candidate.FileBelow (top :: relative)
    · exact iff_of_true hfiles.directory (Or.inr hfiles)
    rw [or_iff_left hfiles]
    by_cases htop : Chosen top
    · have htree := hcandidate.replaced top htop
      rw [htree relative, hresidue top htop relative fun hother =>
        hfiles (htree.symm.fileBelow hother)]
    · rcases hcandidate.kept top htop with htree | hnone
      · rw [htree relative]
      · obtain ⟨more, -, content, hcontent⟩ := hfile
        exact absurd ((hnone more).symm.trans hcontent) (by simp)

end Verification

/-! ### Reconciliations -/

section Reconciliations

variable {policy : GroupingPolicy} {sha256 : Bytes → String} {containerId : String}
  {localSide remoteSide : CardSide} {baseline : Option ContainerBaseline}
  {plan : ContainerReconcilePlan} {side : Side} {target : ContainerSnapshot}
  {staged : Option FolderCard} {after : FolderCard}

/-- Every decision of a plan is that there is nothing to do. -/
def PlansNothing (plan : ContainerReconcilePlan) : Prop :=
  ∀ decision ∈ plan.decisions, decision.2 = .converged

/-- Equal snapshots plan nothing. -/
theorem converged_of_entries {taken other : ContainerSnapshot}
    (h : planContainerReconcile taken other baseline = .ok plan)
    (hentries : taken.entries = other.entries) : PlansNothing plan := by
  have hdomains : SaveSync.snapshotToDomains taken = SaveSync.snapshotToDomains other := by
    rw [SaveSync.snapshotToDomains, hentries]
    rfl
  unfold planContainerReconcile at h
  split at h
  · exact absurd h (by simp)
  cases baseline with
  | none =>
    obtain rfl := Except.ok.inj h
    intro decision hdecision
    obtain ⟨domain, -, rfl⟩ := List.mem_map.mp hdecision
    exact if_pos (by rw [hdomains])
  | some baseline =>
    obtain rfl := Except.ok.inj h
    intro decision hdecision
    obtain ⟨domain, -, rfl⟩ := List.mem_map.mp hdecision
    exact if_pos (by rw [hdomains])

/-- The reconciliation of two cards up to the candidate for a side. -/
structure Reconciled (policy : GroupingPolicy) (sha256 : Bytes → String) (containerId : String)
    (localSide remoteSide : CardSide) (baseline : Option ContainerBaseline)
    (plan : ContainerReconcilePlan) (side : Side) (target : ContainerSnapshot)
    (staged : Option FolderCard) : Prop where
  ofLocal : snapshot policy sha256 localSide.card containerId = .ok localSide.snapshot
  ofRemote : snapshot policy sha256 remoteSide.card containerId = .ok remoteSide.snapshot
  planned : planContainerReconcile localSide.snapshot remoteSide.snapshot baseline = .ok plan
  targeted : targetSnapshot (side.pick plan.desiredLocal plan.desiredRemote) localSide.snapshot
    remoteSide.snapshot = .ok target
  staged : stageContainerTarget policy sha256 localSide remoteSide (side.pick localSide remoteSide)
    target = .ok staged

/-- The files of a candidate are put in place; without a candidate nothing is done. -/
def PutInPlace (staged : Option FolderCard) (before after : FolderCard) : Prop :=
  match staged with
  | none => after = before
  | some candidate => ∃ paths, Covers candidate before paths
      ∧ transact candidate paths before = some after

theorem Reconciled.ofSide (h : Reconciled policy sha256 containerId localSide remoteSide baseline
    plan side target staged) : snapshot policy sha256 (side.pick localSide remoteSide).card
      containerId = .ok (side.pick localSide remoteSide).snapshot := by
  cases side with
  | onLocal => exact h.ofLocal
  | onRemote => exact h.ofRemote

/-- What the side has is not taken from the other one. -/
theorem not_taken_of_entries {destination : CardSide} {top : Bytes}
    (h : destination.snapshot.entries = target.entries) : ¬ Taken destination target top := by
  rintro ⟨entry, hentry, -, hnot⟩
  have hhas : destination.has entry = true :=
    List.any_eq_true.mpr ⟨entry, h ▸ hentry, by simp [sameEntry]⟩
  exact absurd (hhas.symm.trans hnot) (by simp)

/-- The check, after a transaction. -/
theorem verify_of_reconciled (hsha256 : Function.Injective sha256)
    (h : Reconciled policy sha256 containerId localSide remoteSide baseline plan side target staged)
    (hafter : PutInPlace staged (side.pick localSide remoteSide).card after) :
    verifyContainerTarget policy sha256 after target = .ok ()
      ↔ ∀ top, Taken (side.pick localSide remoteSide) target top →
        SameResidue (side.pick localSide remoteSide).card (side.pick remoteSide localSide).card
          top := by
  have hbefore := h.ofSide
  obtain ⟨hsound, groups, hgroups, hsnapshot⟩ := snapshot_eq_ok_iff.mp hbefore
  cases staged with
  | none =>
    obtain rfl := hafter
    have hentries := entries_of_stage_none h.staged
    refine iff_of_true ?_ fun top htop => absurd htop (not_taken_of_entries hentries)
    have hactual : snapshot policy sha256 (side.pick localSide remoteSide).card target.containerId
        = .ok (snapshotOf policy sha256 groups (side.pick localSide remoteSide).card
          target.containerId) := snapshot_eq_ok_iff.mpr ⟨hsound, groups, hgroups, rfl⟩
    rw [verifyContainerTarget, hactual, ok_bind, require_eq_ok_iff, ← hentries, hsnapshot]
    rfl
  | some candidate =>
    obtain ⟨paths, hcovers, htransact⟩ := hafter
    have hcandidate := candidate_of_stage h.staged
    obtain ⟨taken, htaken, hentries⟩ := hcandidate.reads
    have hcarried := carried_transact htransact
    rw [verify_iff hsha256 hsound.toLegible htaken hentries hcarried hcovers]
    refine sameDirectories_iff hcandidate (fun top htop => ?_) hcarried hcovers
    -- a save of the target is a save of the candidate
    obtain ⟨hread, candidateGroups, -, rfl⟩ := snapshot_eq_ok_iff.mp htaken
    obtain ⟨entry, hentry, hidentity, -⟩ := htop
    obtain ⟨found, hfound, rfl⟩ := mem_snapshotOf.mp (hentries ▸ hentry)
    obtain rfl := hex_inj hidentity
    exact (FolderCard.mem_saves hread.marked).mp hfound

/-- **Transport of folder cards.** For a digest without collisions: the files of two cards decide
    whether their snapshots are equal, the same files plan nothing, and the check accepts what the
    transaction has made of a side, exactly if cards with the same files have the same directories
    below the saves, and the directories without files agree below each tree that the side takes
    from the other card. -/
theorem folder_transport (hsha256 : Function.Injective sha256)
    (h : Reconciled policy sha256 containerId localSide remoteSide baseline plan side target staged)
    (hafter : PutInPlace staged (side.pick localSide remoteSide).card after) :
    ((localSide.snapshot.entries = remoteSide.snapshot.entries
          ↔ localSide.card.SameFiles remoteSide.card)
        ∧ (localSide.card.SameFiles remoteSide.card → PlansNothing plan)
        ∧ verifyContainerTarget policy sha256 after target = .ok ())
      ↔ (localSide.card.SameFiles remoteSide.card → localSide.card.SameDirectories remoteSide.card)
        ∧ ∀ top, Taken (side.pick localSide remoteSide) target top →
          SameResidue (side.pick localSide remoteSide).card (side.pick remoteSide localSide).card
            top := by
  have hentries := entries_eq_iff hsha256 h.ofLocal h.ofRemote
  rw [verify_of_reconciled hsha256 h hafter]
  constructor
  · rintro ⟨hsame, -, hresidue⟩
    exact ⟨fun hfiles => (hentries.mp (hsame.mpr hfiles)).2, hresidue⟩
  · rintro ⟨hdirectories, hresidue⟩
    refine ⟨hentries.trans ⟨fun hboth => hboth.1, fun hfiles => ⟨hfiles, hdirectories hfiles⟩⟩,
      fun hfiles => ?_, hresidue⟩
    exact converged_of_entries h.planned (hentries.mpr ⟨hfiles, hdirectories hfiles⟩)

/-! ### Cards that are written file by file -/

/-- The paths at which a file stands. -/
def filePaths (candidate before : FolderCard) : List CardPath :=
  (candidate.nodes.keys ++ before.nodes.keys).filter fun path =>
    candidate.isFile path || before.isFile path

theorem covers_filePaths (candidate before : FolderCard) :
    Covers candidate before (filePaths candidate before) := by
  have hkey : ∀ {card : FolderCard} {path : CardPath}, card.isFile path = true →
      path ∈ card.nodes.keys := by
    intro card path hfile
    obtain ⟨content, hcontent⟩ := isFile_iff.mp hfile
    exact card.mem_keys (by rw [hcontent]; exact Option.some_ne_none _)
  rintro path (hfile | hfile)
  · exact List.mem_filter.mpr ⟨List.mem_append_left _ (hkey hfile), by simp [hfile]⟩
  · exact List.mem_filter.mpr ⟨List.mem_append_right _ (hkey hfile), by simp [hfile]⟩

/-- A card of files that are written one after the other. -/
def cardOf (files : List (CardPath × Bytes)) : Option FolderCard :=
  files.foldlM (fun card file => card.putFile file.1 file.2)
    (.ofLookup [] (fun _ => none) (fun _ h => absurd rfl h) fun _ _ h => absurd rfl h)

/-- A card with a save of one file. -/
def savedCard (content : Bytes) : Option FolderCard :=
  cardOf [([marker], []), ([[0x41], [0x78]], content)]

theorem changedSave_transport : ∃ localSide remoteSide : CardSide, ∃ plan target candidate after,
    savedCard [1] = some localSide.card ∧ savedCard [2] = some remoteSide.card
      ∧ transact candidate (filePaths candidate localSide.card) localSide.card = some after
      ∧ (((localSide.snapshot.entries = remoteSide.snapshot.entries
            ↔ localSide.card.SameFiles remoteSide.card)
          ∧ (localSide.card.SameFiles remoteSide.card → PlansNothing plan)
          ∧ verifyContainerTarget conservativePolicy spell after target = .ok ())
        ↔ (localSide.card.SameFiles remoteSide.card →
            localSide.card.SameDirectories remoteSide.card)
          ∧ ∀ top, Taken localSide target top →
            SameResidue localSide.card remoteSide.card top) := by
  have hrun : (do
      let card ← savedCard [1]
      let other ← savedCard [2]
      let taken ← (snapshot conservativePolicy spell card "card").toOption
      let otherTaken ← (snapshot conservativePolicy spell other "card").toOption
      let plan ← (planContainerReconcile taken otherTaken
        (some (SaveSync.baselineFromSnapshot taken))).toOption
      let target ← (targetSnapshot plan.desiredLocal taken otherTaken).toOption
      let staged ← (stageContainerTarget conservativePolicy spell ⟨card, taken⟩ ⟨other, otherTaken⟩
        ⟨card, taken⟩ target).toOption
      let candidate ← staged
      let after ← transact candidate (filePaths candidate card) card
      return after.nodes.keys.length) = some 4 := by decide +kernel
  obtain ⟨card, hcard, hrun⟩ := Option.bind_eq_some_iff.mp hrun
  obtain ⟨other, hother, hrun⟩ := Option.bind_eq_some_iff.mp hrun
  obtain ⟨taken, htaken, hrun⟩ := Option.bind_eq_some_iff.mp hrun
  obtain ⟨otherTaken, hotherTaken, hrun⟩ := Option.bind_eq_some_iff.mp hrun
  obtain ⟨plan, hplan, hrun⟩ := Option.bind_eq_some_iff.mp hrun
  obtain ⟨target, htarget, hrun⟩ := Option.bind_eq_some_iff.mp hrun
  obtain ⟨staged, hstaged, hrun⟩ := Option.bind_eq_some_iff.mp hrun
  obtain ⟨candidate, hcandidate, hrun⟩ := Option.bind_eq_some_iff.mp hrun
  obtain ⟨after, hafter, -⟩ := Option.bind_eq_some_iff.mp hrun
  subst hcandidate
  have hreconciled : Reconciled conservativePolicy spell "card" ⟨card, taken⟩ ⟨other, otherTaken⟩
      (some (SaveSync.baselineFromSnapshot taken)) plan .onLocal target (some candidate) :=
    ⟨toOption_eq_some_iff.mp htaken, toOption_eq_some_iff.mp hotherTaken,
      toOption_eq_some_iff.mp hplan, toOption_eq_some_iff.mp htarget,
      toOption_eq_some_iff.mp hstaged⟩
  exact ⟨⟨card, taken⟩, ⟨other, otherTaken⟩, plan, target, candidate, after, hcard, hother, hafter,
    folder_transport spell_injective hreconciled ⟨_, covers_filePaths candidate card, hafter⟩⟩

/-- A file that is written and deleted again leaves the files as they were. -/
theorem sameFiles_of_deleted {card written other : FolderCard} {path : CardPath} {content : Bytes}
    (hnew : card.isFile path = false) (hput : card.putFile path content = some written)
    (hdelete : written.deleteFile path = some other) : card.SameFiles other := by
  obtain ⟨hwritable, hwritten⟩ := putFile_spec hput
  obtain ⟨-, hother⟩ := deleteFile_spec hdelete
  intro top relative bytes _
  rw [hother, hwritten]
  by_cases hpath : top :: relative = path
  · rw [if_pos hpath, hpath]
    refine iff_of_false (fun hfile => ?_) (by simp)
    exact absurd (isFile_iff.mpr ⟨bytes, hfile⟩) (by simp [hnew])
  rw [if_neg hpath, if_neg hpath]
  by_cases habove : Above (top :: relative) path
  · rw [if_pos habove]
    refine iff_of_false (fun hfile => ?_) (by simp)
    rcases hwritable.1 _ ((List.mem_inits _ _).mpr habove.1) habove.2 with hnone | hdirectory
    · exact absurd (hnone.symm.trans hfile) (by simp)
    · exact absurd (hdirectory.symm.trans hfile) (by simp)
  · rw [if_neg habove]

/-- A directory that is left of a deleted file makes a conflict of two cards with the same files. -/
theorem residue_conflicts : ∃ card written other, savedCard [1] = some card
    ∧ card.putFile [[0x41], [0x64], [0x79]] [2] = some written
    ∧ written.deleteFile [[0x41], [0x64], [0x79]] = some other
    ∧ card.SameFiles other
    ∧ ∃ taken otherTaken plan, snapshot conservativePolicy spell card "card" = .ok taken
      ∧ snapshot conservativePolicy spell other "card" = .ok otherTaken
      ∧ planContainerReconcile taken otherTaken none = .ok plan
      ∧ plan.decisions = [("pcsx2-save:card", .conflict)] := by
  have hrun : (do
      let card ← savedCard [1]
      let written ← card.putFile [[0x41], [0x64], [0x79]] [2]
      let other ← written.deleteFile [[0x41], [0x64], [0x79]]
      let taken ← (snapshot conservativePolicy spell card "card").toOption
      let otherTaken ← (snapshot conservativePolicy spell other "card").toOption
      let plan ← (planContainerReconcile taken otherTaken none).toOption
      return (card.isFile [[0x41], [0x64], [0x79]], plan.decisions))
        = some (false, [("pcsx2-save:card", SaveSync.DomainAction.conflict)]) := by decide +kernel
  obtain ⟨card, hcard, hrun⟩ := Option.bind_eq_some_iff.mp hrun
  obtain ⟨written, hwritten, hrun⟩ := Option.bind_eq_some_iff.mp hrun
  obtain ⟨other, hother, hrun⟩ := Option.bind_eq_some_iff.mp hrun
  obtain ⟨taken, htaken, hrun⟩ := Option.bind_eq_some_iff.mp hrun
  obtain ⟨otherTaken, hotherTaken, hrun⟩ := Option.bind_eq_some_iff.mp hrun
  obtain ⟨plan, hplan, hrun⟩ := Option.bind_eq_some_iff.mp hrun
  obtain ⟨hnew, hdecisions⟩ := Prod.mk.inj (Option.some.inj hrun)
  exact ⟨card, written, other, hcard, hwritten, hother, sameFiles_of_deleted hnew hwritten hother,
    taken, otherTaken, plan, toOption_eq_some_iff.mp htaken, toOption_eq_some_iff.mp hotherTaken,
    toOption_eq_some_iff.mp hplan, hdecisions⟩

end Reconciliations

end RomCloud.Containers
