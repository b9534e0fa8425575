import RomCloud.Containers.FolderCard

namespace RomCloud.Containers

open Lib
open SaveSync (ContainerEntry ContainerSnapshot)

/-!
# Candidates of folder cards

* `rebuild` — the copy of a card, in which saves are removed and replaced;
* `stageContainerTarget` — the candidate for a side of a reconciliation;
* `transact` — a transaction that puts the files of a candidate in place: it writes files in
  directories that it makes, and deletes files;
* `verifyContainerTarget` — the check of what the transaction has made of the side.
-/

/-! ### Nodes -/

section Nodes

variable (card source : FolderCard) (top : Bytes)

/-- `shutil.rmtree` of a top directory. -/
def FolderCard.removeTree : FolderCard :=
  .ofLookup card.nodes.keys
    (fun path => if path.head? = some top then none else card.nodes.get? path)
    (fun path h => by
      by_cases hhead : path.head? = some top
      · exact absurd (if_pos hhead) h
      · rw [if_neg hhead] at h
        exact card.mem_keys h)
    (fun path name h => by
      by_cases hhead : (path ++ [name]).head? = some top
      · exact absurd (if_pos hhead) h
      · rw [if_neg hhead] at h
        have hpath : path.head? ≠ some top := by
          intro heq
          cases path with
          | nil => exact absurd heq (by simp)
          | cons first rest => exact hhead heq
        rw [if_neg hpath]
        exact card.parents path name h)

/-- `_copy_tree` of a top directory of another card. -/
def FolderCard.copyTree (h : card.nodes.get? [] = some .directory) : FolderCard :=
  .ofLookup (card.nodes.keys ++ source.nodes.keys)
    (fun path => if path.head? = some top then source.nodes.get? path else card.nodes.get? path)
    (fun path hpath => by
      by_cases hhead : path.head? = some top
      · rw [if_pos hhead] at hpath
        exact List.mem_append_right _ (source.mem_keys hpath)
      · rw [if_neg hhead] at hpath
        exact List.mem_append_left _ (card.mem_keys hpath))
    (fun path name hpath => by
      cases path with
      | nil => exact h
      | cons first rest =>
        by_cases hfirst : first = top
        · rw [if_pos (by rw [hfirst]; rfl)] at hpath ⊢
          exact source.parents (first :: rest) name hpath
        · have hhead : ∀ more, (first :: more : CardPath).head? ≠ some top := by
            intro more heq
            exact hfirst (Option.some.inj heq)
          rw [List.cons_append, if_neg (hhead _)] at hpath
          rw [if_neg (hhead _)]
          exact card.parents (first :: rest) name hpath)


/-- A path that leads to another one, and is not that one. -/
def Above (above path : CardPath) : Prop := above <+: path ∧ above ≠ path

instance : DecidableRel Above := fun above path =>
  inferInstanceAs (Decidable (above <+: path ∧ above ≠ path))

/-- Nothing but directories is above a path, and nothing but a file stands there. -/
def FolderCard.Writable (path : CardPath) : Prop :=
  (∀ above ∈ path.inits, above ≠ path →
    card.nodes.get? above = none ∨ card.nodes.get? above = some .directory)
  ∧ (card.nodes.get? path = none ∨ card.isFile path = true)

instance (path : CardPath) : Decidable (card.Writable path) :=
  inferInstanceAs (Decidable (_ ∧ _))

variable {card} in
theorem FolderCard.Writable.not_directory {path : CardPath} (h : card.Writable path) :
    card.nodes.get? path ≠ some .directory := by
  intro hpath
  rcases h.2 with hnone | hfile
  · exact absurd (hnone.symm.trans hpath) (by simp)
  · exact absurd hfile (by simp [FolderCard.isFile, hpath])

/-- `os.replace` onto a path, whose directories were made before. -/
def FolderCard.putFile (path : CardPath) (content : Bytes) : Option FolderCard :=
  if h : card.Writable path then
    some (.ofLookup (path.inits ++ card.nodes.keys)
      (fun p => if p = path then some (.file content) else if Above p path then some .directory
        else card.nodes.get? p)
      (fun p hp => by
        by_cases heq : p = path
        · exact List.mem_append_left _ ((List.mem_inits p path).mpr (heq ▸ List.prefix_refl path))
        rw [if_neg heq] at hp
        by_cases habove : Above p path
        · exact List.mem_append_left _ ((List.mem_inits p path).mpr habove.1)
        · rw [if_neg habove] at hp
          exact List.mem_append_right _ (card.mem_keys hp))
      (fun p name hp => by
        -- what is above the new path was made a directory, or was one
        have hself : Above p (p ++ [name]) := ⟨List.prefix_append p [name], by simp⟩
        by_cases hinside : p ++ [name] <+: path
        · have habove : Above p path := by
            refine ⟨hself.1.trans hinside, fun heq => ?_⟩
            have hlength := hinside.length_le
            rw [← heq, List.length_append, List.length_singleton] at hlength
            omega
          rw [if_neg habove.2, if_pos habove]
        · have hout : p ++ [name] ≠ path := fun heq => hinside (heq ▸ List.prefix_refl path)
          rw [if_neg hout, if_neg fun habove => hinside habove.1] at hp
          have hdirectory := card.parents p name hp
          have hne : p ≠ path := fun heq => h.not_directory (heq ▸ hdirectory)
          rw [if_neg hne]
          split
          · rfl
          · exact hdirectory))
  else none

/-- `unlink(missing_ok=True)` of a file. -/
def FolderCard.deleteFile (path : CardPath) : Option FolderCard :=
  if h : card.nodes.get? path = none ∨ card.isFile path = true then
    some (.ofLookup card.nodes.keys
      (fun p => if p = path then none else card.nodes.get? p)
      (fun p hp => by
        by_cases heq : p = path
        · exact absurd (if_pos heq) hp
        · rw [if_neg heq] at hp
          exact card.mem_keys hp)
      (fun p name hp => by
        by_cases heq : p ++ [name] = path
        · exact absurd (if_pos heq) hp
        rw [if_neg heq] at hp
        have hdirectory := card.parents p name hp
        have hne : p ≠ path := by
          rintro rfl
          rcases h with hnone | hfile
          · exact absurd (hnone.symm.trans hdirectory) (by simp)
          · exact absurd hfile (by simp [FolderCard.isFile, hdirectory])
        rw [if_neg hne]
        exact hdirectory))
  else none

end Nodes

/-! ### Candidates -/

/-- `EntryReplacement`: the payload is the card that the entry is taken from. -/
structure EntryReplacement where
  entry : ContainerEntry
  source : FolderCard

/-- `remove_entry`. -/
def removeEntry (candidate : FolderCard) (identity : String) : Except Raised FolderCard := do
  let tops ← candidate.topDirectories
  match tops.find? fun name => hex name = identity with
  | some top => return candidate.removeTree top
  | none => return candidate

/-- `replace_entry`: the copy has the name that the tree has in its source. -/
def replaceEntry (candidate : FolderCard) (replacement : EntryReplacement) :
    Except Raised FolderCard := do
  let cleared ← removeEntry candidate replacement.entry.identity
  let top ← findTop replacement.source replacement.entry.identity
  require (cleared.nodes.get? [top] = none) substituted
  let _ ← mapEach (fun relative => replacement.source.safeChildren (top :: relative))
    (replacement.source.directoriesBelow top)
  if h : cleared.nodes.get? [] = some .directory then
    return cleared.copyTree replacement.source top h
  else .error unsupported

section Staging

variable (policy : GroupingPolicy) (sha256 : Bytes → String)

/-- `validate`. -/
def validate (candidate : FolderCard) (expected : ContainerSnapshot) : Except Raised Unit := do
  let actual ← snapshot policy sha256 candidate expected.containerId
  require (actual.entries = expected.entries)
    (.opaqueContainer .validationFailure "candidate logical snapshot differs from plan")

/-- `rebuild`. -/
def rebuild (destination : FolderCard) (expected : ContainerSnapshot)
    (replacements : List EntryReplacement) (removals : List String) :
    Except Raised FolderCard := do
  let _ ← snapshot policy sha256 destination expected.containerId
  let removed ← (removals.insertionSort (· ≤ ·)).foldlM removeEntry destination
  let candidate ← (replacements.insertionSort fun a b =>
    a.entry.identity ≤ b.entry.identity).foldlM replaceEntry removed
  validate policy sha256 candidate expected
  return candidate

/-- An entry is another one, wherever it is kept. -/
def sameEntry (entry other : ContainerEntry) : Bool :=
  entry.identity = other.identity && entry.canonicalHash = other.canonicalHash
    && entry.mergeDomainId = other.mergeDomainId

/-- A side of a reconciliation: its card, and what the adapter has read of it. -/
structure CardSide where
  card : FolderCard
  snapshot : ContainerSnapshot

def CardSide.has (side : CardSide) (entry : ContainerEntry) : Bool :=
  side.snapshot.entries.any fun value => sameEntry value entry

/-- Where an entry of a target is taken from. -/
def replacementFor (localSide remoteSide : CardSide) (entry : ContainerEntry) :
    Except Raised EntryReplacement :=
  if localSide.has entry then
    (extractEntry policy sha256 localSide.card localSide.snapshot entry.identity).map
      (EntryReplacement.mk entry)
  else if remoteSide.has entry then
    (extractEntry policy sha256 remoteSide.card remoteSide.snapshot entry.identity).map
      (EntryReplacement.mk entry)
  else .error (.verification "No verified logical source exists for a container entry")

/-- `_stage_container_target`: the candidate for a side that has not its target already.
    No two entries of a snapshot have one identity. -/
def stageContainerTarget (localSide remoteSide destination : CardSide)
    (target : ContainerSnapshot) : Except Raised (Option FolderCard) :=
  if destination.snapshot.entries = target.entries then .ok none
  else do
    let changed := target.entries.filter fun entry => !destination.has entry
    let replacements ← mapEach (replacementFor policy sha256 localSide remoteSide) changed
    let removals := (destination.snapshot.entries.map (·.identity)).filter fun identity =>
      identity ∉ target.entries.map (·.identity)
    let candidate ← rebuild policy sha256 destination.card target replacements removals
    return some candidate

/-- `_verify_container_targets`, for one side. -/
def verifyContainerTarget (card : FolderCard) (expected : ContainerSnapshot) :
    Except Raised Unit := do
  let actual ← snapshot policy sha256 card expected.containerId
  require (actual.entries = expected.entries)
    (.verification "Promoted container does not match its expected logical snapshot")

end Staging

/-! ### Transactions -/

/-- A path of a transaction: it gets the file of the candidate, or loses its own. -/
def applyPath (candidate card : FolderCard) (path : CardPath) : Option FolderCard :=
  match candidate.nodes.get? path with
  | some (.file content) => card.putFile path content
  | _ => card.deleteFile path

/-- The files of a candidate are put in place, one path after the other. -/
def transact (candidate : FolderCard) (paths : List CardPath) (before : FolderCard) :
    Option FolderCard :=
  paths.foldlM (applyPath candidate) before

end RomCloud.Containers
