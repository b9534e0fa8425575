import RomCloud.Containers.FolderIdentity
import RomCloud.Containers.FolderStaging

namespace RomCloud.Containers

open Lib
open SaveSync (ContainerEntry ContainerSnapshot)

/-!
# What a transaction carries of a folder card

* `carried_applyPath`, `carried_transact` — one path of a transaction, and a whole one;
* `candidate_of_rebuild`, `candidate_of_stage` — the candidate for a side: each tree is the one of
  the side, the one of the other side, or removed.
-/

/-! ### Transactions -/

section Transactions

variable {card after candidate before : FolderCard} {path p : CardPath} {content : Bytes}

theorem Above.exists_append (h : Above p path) : ∃ more ≠ [], path = p ++ more := by
  obtain ⟨⟨more, rfl⟩, hne⟩ := h
  exact ⟨more, fun heq => hne (by rw [heq, List.append_nil]), rfl⟩

theorem above_append {more : CardPath} (h : more ≠ []) : Above p (p ++ more) :=
  ⟨List.prefix_append p more, by simpa using h⟩

/-- Whatever is above a node is a directory. -/
theorem FolderCard.directory_of_above (h : Above p path) (hpath : card.nodes.get? path ≠ none) :
    card.nodes.get? p = some .directory := by
  obtain ⟨more, hmore, rfl⟩ := h.exists_append
  exact FolderCard.directory_of_append hmore hpath

/-- What one path of a transaction, or all of them, make of a card. -/
structure Carried (candidate before after : FolderCard) (paths : List CardPath) : Prop where
  files : ∀ p content, after.nodes.get? p = some (.file content)
    ↔ if p ∈ paths then candidate.nodes.get? p = some (.file content)
      else before.nodes.get? p = some (.file content)
  directories : ∀ p, after.nodes.get? p = some .directory
    ↔ before.nodes.get? p = some .directory
      ∨ ∃ path ∈ paths, candidate.isFile path = true ∧ Above p path
  /-- Nothing else is created. -/
  others : ∀ p node, after.nodes.get? p = some node →
    (node = .directory ∨ ∃ content, node = .file content) ∨ before.nodes.get? p = some node

theorem isFile_iff : card.isFile path = true
    ↔ ∃ content, card.nodes.get? path = some (.file content) := by
  rw [FolderCard.isFile]
  split
  · next content h => simp [h]
  · next h =>
    constructor
    · intro hfalse
      exact absurd hfalse (by simp)
    · rintro ⟨content, hfile⟩
      exact absurd hfile (h content)

theorem putFile_spec (h : card.putFile path content = some after) :
    card.Writable path ∧ ∀ p, after.nodes.get? p
      = if p = path then some (.file content) else if Above p path then some .directory
        else card.nodes.get? p := by
  unfold FolderCard.putFile at h
  split at h
  · next hwritable =>
    obtain rfl := Option.some.inj h
    exact ⟨hwritable, fun p => FolderCard.get?_ofLookup _ _ p⟩
  · exact absurd h (by simp)

theorem deleteFile_spec (h : card.deleteFile path = some after) :
    (card.nodes.get? path = none ∨ card.isFile path = true)
      ∧ ∀ p, after.nodes.get? p = if p = path then none else card.nodes.get? p := by
  unfold FolderCard.deleteFile at h
  split at h
  · next hfile =>
    obtain rfl := Option.some.inj h
    exact ⟨hfile, fun p => FolderCard.get?_ofLookup _ _ p⟩
  · exact absurd h (by simp)

/-- A file that is written: it stands there, and its directories were made. -/
theorem carried_putFile (hfile : candidate.nodes.get? path = some (.file content))
    (h : card.putFile path content = some after) : Carried candidate card after [path] := by
  obtain ⟨hwritable, hget⟩ := putFile_spec h
  have habove : ∀ {p}, Above p path →
      card.nodes.get? p = none ∨ card.nodes.get? p = some .directory :=
    fun h => hwritable.1 _ ((List.mem_inits _ _).mpr h.1) h.2
  have hisFile : candidate.isFile path = true := isFile_iff.mpr ⟨content, hfile⟩
  refine ⟨fun p bytes => ?_, fun p => ?_, fun p node hnode => ?_⟩
  · rw [hget]
    by_cases hp : p = path
    · rw [if_pos hp, if_pos (List.mem_singleton.mpr hp), hp, hfile]
    · rw [if_neg hp, if_neg fun hmem => hp (List.mem_singleton.mp hmem)]
      by_cases ha : Above p path
      · rw [if_pos ha]
        rcases habove ha with hnone | hdirectory
        · simp [hnone]
        · simp [hdirectory]
      · rw [if_neg ha]
  · rw [hget]
    by_cases hp : p = path
    · rw [if_pos hp, hp]
      constructor
      · intro hfalse
        exact absurd hfalse (by simp)
      · rintro (hdirectory | ⟨q, hq, -, hself⟩)
        · exact absurd hdirectory hwritable.not_directory
        · exact absurd (List.mem_singleton.mp hq).symm hself.2
    · rw [if_neg hp]
      by_cases ha : Above p path
      · rw [if_pos ha]
        exact iff_of_true rfl (Or.inr ⟨path, List.mem_singleton.mpr rfl, hisFile, ha⟩)
      · rw [if_neg ha]
        refine (or_iff_left ?_).symm
        rintro ⟨q, hq, -, hq'⟩
        exact ha (List.mem_singleton.mp hq ▸ hq')
  · rw [hget] at hnode
    split at hnode
    · exact Or.inl (Or.inr ⟨content, (Option.some.inj hnode).symm⟩)
    · split at hnode
      · exact Or.inl (Or.inl (Option.some.inj hnode).symm)
      · exact Or.inr hnode

/-- A file that is deleted: its directories stay. -/
theorem carried_deleteFile (hfile : candidate.isFile path = false)
    (h : card.deleteFile path = some after) : Carried candidate card after [path] := by
  obtain ⟨hcard, hget⟩ := deleteFile_spec h
  have hnotFile : ∀ content, candidate.nodes.get? path ≠ some (.file content) := by
    intro content hcontent
    exact absurd (isFile_iff.mpr ⟨content, hcontent⟩) (by simp [hfile])
  have hnotDirectory : card.nodes.get? path ≠ some .directory := by
    intro hdirectory
    rcases hcard with hnone | hisFile
    · exact absurd (hnone.symm.trans hdirectory) (by simp)
    · obtain ⟨content, hcontent⟩ := isFile_iff.mp hisFile
      exact absurd (hcontent.symm.trans hdirectory) (by simp)
  refine ⟨fun p bytes => ?_, fun p => ?_, fun p node hnode => ?_⟩
  · rw [hget]
    by_cases hp : p = path
    · rw [if_pos hp, if_pos (List.mem_singleton.mpr hp), hp]
      exact iff_of_false (by simp) (hnotFile bytes)
    · rw [if_neg hp, if_neg fun hmem => hp (List.mem_singleton.mp hmem)]
  · have hnone : ¬ ∃ q ∈ [path], candidate.isFile q = true ∧ Above p q := by
      rintro ⟨q, hq, hisFile, -⟩
      rw [List.mem_singleton.mp hq, hfile] at hisFile
      exact absurd hisFile (by simp)
    rw [hget, or_iff_left hnone]
    by_cases hp : p = path
    · rw [if_pos hp, hp]
      exact iff_of_false (by simp) hnotDirectory
    · rw [if_neg hp]
  · rw [hget] at hnode
    split at hnode
    · exact absurd hnode (by simp)
    · exact Or.inr hnode

/-- One path of a transaction. -/
theorem carried_applyPath (h : applyPath candidate card path = some after) :
    Carried candidate card after [path] := by
  unfold applyPath at h
  split at h
  · next content hfile => exact carried_putFile hfile h
  · next hfile =>
    refine carried_deleteFile ?_ h
    rw [Bool.eq_false_iff]
    intro hisFile
    obtain ⟨content, hcontent⟩ := isFile_iff.mp hisFile
    exact hfile content hcontent

/-- One path after others. -/
theorem Carried.cons {paths : List CardPath} (hfirst : Carried candidate before card [path])
    (hrest : Carried candidate card after paths) :
    Carried candidate before after (path :: paths) := by
  refine ⟨fun p content => ?_, fun p => ?_, fun p node hnode => ?_⟩
  · rw [hrest.files, hfirst.files]
    by_cases hp : p ∈ paths
    · rw [if_pos hp, if_pos (List.mem_cons_of_mem path hp)]
    · rw [if_neg hp]
      by_cases heq : p = path
      · rw [if_pos (List.mem_singleton.mpr heq), if_pos (heq ▸ List.mem_cons_self)]
      · rw [if_neg fun hmem => heq (List.mem_singleton.mp hmem),
          if_neg fun hmem => (List.mem_cons.mp hmem).elim heq hp]
  · rw [hrest.directories, hfirst.directories]
    simp only [List.mem_cons, List.not_mem_nil, or_false, exists_eq_or_imp, exists_eq_left]
    exact or_assoc
  · rcases hrest.others p node hnode with hplain | hcard
    · exact Or.inl hplain
    · exact hfirst.others p node hcard

/-- **Transactions.** Their paths get the files of the candidate; directories are made above these,
    and none is removed. -/
theorem carried_transact {paths : List CardPath}
    (h : transact candidate paths before = some after) :
    Carried candidate before after paths := by
  unfold transact at h
  induction paths generalizing before with
  | nil =>
    obtain rfl := Option.some.inj h
    exact ⟨fun p content => by simp, fun p => by simp, fun p node hnode => Or.inr hnode⟩
  | cons path rest ih =>
    rw [List.foldlM_cons] at h
    obtain ⟨card, hfirst, hrest⟩ := Option.bind_eq_some_iff.mp h
    exact (carried_applyPath hfirst).cons (ih hrest)

end Transactions

/-! ### Candidates -/

section Candidates

variable {card source next : FolderCard} {identity : String}

/-- Two cards have the same nodes at and below a top directory. -/
def SameTree (top : Bytes) (card other : FolderCard) : Prop :=
  ∀ relative, card.nodes.get? (top :: relative) = other.nodes.get? (top :: relative)

/-- A removal takes the tree of the identity, and no other. -/
theorem removeEntry_spec (top : Bytes) (h : removeEntry card identity = .ok next) :
    (hex top ≠ identity → SameTree top next card)
      ∧ (SameTree top next card ∨ ∀ relative, next.nodes.get? (top :: relative) = none) := by
  unfold removeEntry at h
  obtain ⟨tops, -, h⟩ := bind_eq_ok h
  split at h
  · next found hfound =>
    obtain rfl := Except.ok.inj h
    have hget : ∀ relative, (card.removeTree found).nodes.get? (top :: relative)
        = if top = found then none else card.nodes.get? (top :: relative) := by
      intro relative
      rw [FolderCard.removeTree, FolderCard.get?_ofLookup, List.head?_cons]
      simp only [Option.some.injEq]
    by_cases htop : top = found
    · have hidentity : hex found = identity := by simpa using List.find?_some hfound
      refine ⟨fun hne => absurd (htop ▸ hidentity) hne, Or.inr fun relative => ?_⟩
      rw [hget, if_pos htop]
    · have hsame : SameTree top (card.removeTree found) card := by
        intro relative
        rw [hget, if_neg htop]
      exact ⟨fun _ => hsame, Or.inl hsame⟩
  · obtain rfl := Except.ok.inj h
    exact ⟨fun _ _ => rfl, Or.inl fun _ => rfl⟩

/-- Removals leave a tree alone, or take all of it. -/
theorem removals_spec (top : Bytes) {identities : List String}
    (h : identities.foldlM removeEntry card = .ok next) :
    SameTree top next card ∨ ∀ relative, next.nodes.get? (top :: relative) = none := by
  induction identities generalizing card with
  | nil =>
    obtain rfl := Except.ok.inj h
    exact Or.inl fun _ => rfl
  | cons identity rest ih =>
    rw [List.foldlM_cons] at h
    obtain ⟨middle, hfirst, hrest⟩ := bind_eq_ok h
    rcases ih hrest with hsame | hnone
    · rcases (removeEntry_spec top hfirst).2 with hmiddle | hmiddle
      · exact Or.inl fun relative => (hsame relative).trans (hmiddle relative)
      · exact Or.inr fun relative => (hsame relative).trans (hmiddle relative)
    · exact Or.inr hnone

theorem findTop_spec {top : Bytes} (h : findTop source identity = .ok top) :
    hex top = identity := by
  unfold findTop at h
  obtain ⟨tops, -, h⟩ := bind_eq_ok h
  split at h
  · next found hfound =>
    obtain rfl := Except.ok.inj h
    simpa using List.find?_some hfound
  · exact absurd h (by simp)

/-- A replacement puts the tree of its source in place, and leaves the others alone. -/
theorem replaceEntry_spec (top : Bytes) {replacement : EntryReplacement}
    (h : replaceEntry card replacement = .ok next) :
    (hex top = replacement.entry.identity → SameTree top next replacement.source)
      ∧ (hex top ≠ replacement.entry.identity → SameTree top next card) := by
  unfold replaceEntry at h
  obtain ⟨cleared, hcleared, h⟩ := bind_eq_ok h
  obtain ⟨found, hfound, h⟩ := bind_eq_ok h
  obtain ⟨-, h⟩ := (check_bind_eq_ok_iff _ _ _).mp h
  obtain ⟨-, -, h⟩ := bind_eq_ok h
  have hidentity := findTop_spec hfound
  split at h
  · next hroot =>
    obtain rfl := Except.ok.inj h
    have hget : ∀ relative, (cleared.copyTree replacement.source found hroot).nodes.get?
        (top :: relative) = if top = found then replacement.source.nodes.get? (top :: relative)
          else cleared.nodes.get? (top :: relative) := by
      intro relative
      rw [FolderCard.copyTree, FolderCard.get?_ofLookup, List.head?_cons]
      simp only [Option.some.injEq]
    refine ⟨fun heq relative => ?_, fun hne relative => ?_⟩
    · rw [hget, if_pos (hex_inj (heq.trans hidentity.symm))]
    · rw [hget, if_neg fun htop : top = found => hne (htop ▸ hidentity)]
      exact (removeEntry_spec top hcleared).1 hne relative
  · exact absurd h (by simp)

/-- Replacements that are all taken from one card. -/
theorem replacements_spec (top : Bytes) {replacements : List EntryReplacement}
    (hsource : ∀ replacement ∈ replacements, replacement.source = source)
    (h : replacements.foldlM replaceEntry card = .ok next) :
    (hex top ∈ replacements.map (·.entry.identity) → SameTree top next source)
      ∧ (hex top ∉ replacements.map (·.entry.identity) → SameTree top next card) := by
  induction replacements generalizing card with
  | nil =>
    obtain rfl := Except.ok.inj h
    exact ⟨fun hmem => absurd hmem List.not_mem_nil, fun _ _ => rfl⟩
  | cons replacement rest ih =>
    rw [List.foldlM_cons] at h
    obtain ⟨middle, hfirst, hrest⟩ := bind_eq_ok h
    obtain ⟨hin, hout⟩ := ih (fun r hr => hsource r (List.mem_cons_of_mem _ hr)) hrest
    obtain ⟨hput, hkept⟩ := replaceEntry_spec top hfirst
    rw [hsource replacement List.mem_cons_self] at hput
    rw [List.map_cons, List.mem_cons, not_or]
    refine ⟨fun hmem => ?_, fun hnot => ?_⟩
    · by_cases hlater : hex top ∈ rest.map (·.entry.identity)
      · exact hin hlater
      · have hput := hput (hmem.resolve_right hlater)
        exact fun relative => (hout hlater relative).trans (hput relative)
    · exact fun relative => (hout hnot.2 relative).trans (hkept hnot.1 relative)

variable {policy : GroupingPolicy} {sha256 : Bytes → String}

/-- What a candidate is made of, where the replacements are all taken from one card. -/
structure Candidate (policy : GroupingPolicy) (sha256 : Bytes → String)
    (destination source : FolderCard) (target : ContainerSnapshot) (Taken : Bytes → Prop)
    (candidate : FolderCard) : Prop where
  reads : ∃ taken, snapshot policy sha256 candidate target.containerId = .ok taken
    ∧ taken.entries = target.entries
  replaced : ∀ top, Taken top → SameTree top candidate source
  kept : ∀ top, ¬ Taken top → SameTree top candidate destination
    ∨ ∀ relative, candidate.nodes.get? (top :: relative) = none

theorem candidate_of_rebuild {destination candidate : FolderCard} {target : ContainerSnapshot}
    {replacements : List EntryReplacement} {removals : List String}
    (hsource : ∀ replacement ∈ replacements, replacement.source = source)
    (h : rebuild policy sha256 destination target replacements removals = .ok candidate) :
    Candidate policy sha256 destination source target
      (fun top => hex top ∈ replacements.map (·.entry.identity)) candidate := by
  unfold rebuild at h
  obtain ⟨-, -, h⟩ := bind_eq_ok h
  obtain ⟨removed, hremoved, h⟩ := bind_eq_ok h
  obtain ⟨built, hbuilt, h⟩ := bind_eq_ok h
  obtain ⟨hvalid, h⟩ := (check_bind_eq_ok_iff _ _ _).mp h
  obtain rfl := Except.ok.inj h
  have hperm := List.perm_insertionSort (fun a b : EntryReplacement =>
    a.entry.identity ≤ b.entry.identity) replacements
  have hspec := fun top => replacements_spec top
    (fun r hr => hsource r (hperm.mem_iff.mp hr)) hbuilt
  have hmem : ∀ top, hex top ∈ (replacements.insertionSort fun a b =>
      a.entry.identity ≤ b.entry.identity).map (·.entry.identity)
      ↔ hex top ∈ replacements.map (·.entry.identity) :=
    fun top => (hperm.map _).mem_iff
  refine ⟨?_, fun top htop => (hspec top).1 ((hmem top).mpr htop), fun top htop => ?_⟩
  · unfold validate at hvalid
    obtain ⟨taken, htaken, hentries⟩ := bind_eq_ok hvalid
    exact ⟨taken, htaken, (require_eq_ok_iff _ _).mp hentries⟩
  · have hkept := (hspec top).2 fun h => htop ((hmem top).mp h)
    rcases removals_spec top hremoved with hsame | hnone
    · exact Or.inl fun relative => (hkept relative).trans (hsame relative)
    · exact Or.inr fun relative => (hkept relative).trans (hnone relative)

end Candidates

end RomCloud.Containers
