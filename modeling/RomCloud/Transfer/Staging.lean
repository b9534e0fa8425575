import Mathlib
import RomCloud.Cache.CacheState
import RomCloud.Lib.FileTree
import RomCloud.Lib.Text

namespace RomCloud.Transfer

open RomCloud.Lib RomCloud.Cache

/-!
# Staged assets

What `TransferService` keeps of an asset between runs, and what it plans from the source.

* `Source`, `planAsset` — the provider as it is during one run, and the files of an asset there;
* `AssetStore` — the staged copy, its `.part` files, the final copy and the parked old one, with the
  rows of `StagingRepository`;
* `replacePlan`, `checkpoint`, `complete` — the writes of `StagingRepository`;
* `validatedSize`, `promotedSize` — the two checks of a copy, by sizes and by recorded hashes.

The paths of different assets do not meet.
-/

/-- The bytes of a file. -/
abbrev Content := List UInt8

/-- What `TransferService` raises. -/
inductive TransferError
  | noAssets
  | invalidSourcePath (relativePath : String)
  | missingSource (relativePath : String)
  | symlinkAsset (relativePath : String)
  | invalidPackagePath (relativePath : String)
  | packageSymlink (relativePath : String)
  | wrongSize (bytesDone expected : ℕ) (relativePath : String)
  | incomplete (filename : String)
  | os
  | integrity
deriving DecidableEq

/-! ### The source -/

structure RemoteEntry where
  name : String
  relativePath : String
  isDirectory : Bool
  sizeBytes : Option ℕ
  isSymlink : Bool
  objectId : Option String
  revision : Option String
  checksum : Option String

/-- A provider during one run: its listings, the bytes of its files, and how a handle of
    `open_binary` cuts what is left of a file into chunks. -/
structure Source where
  listEntries : String → List RemoteEntry
  walk : String → List RemoteEntry
  content : String → Content
  seekable : Bool
  reads : Content → List Content
  flatten_reads : ∀ bytes, (reads bytes).flatten = bytes
  nonempty_reads : ∀ bytes, ∀ chunk ∈ reads bytes, chunk ≠ []

structure PlannedFile where
  relativePath : String
  packageRelativePath : String
  sizeBytes : Option ℕ
  objectId : Option String
  revision : Option String
  checksum : Option String

structure AssetPlan where
  asset : GameAsset
  isDirectory : Bool
  directories : List String
  files : List PlannedFile
  recoveryEvidence : Bool

/-- `path.replace("\\", "/")`. -/
def slashes (path : String) : String :=
  String.ofList (path.toList.map fun c => if c = '\\' then '/' else c)

/-- A relative path, as `PurePosixPath` writes it. -/
def posix (path : String) : String := "/".intercalate (posixParts (slashes path))

/-- `_PlannedFile`, of an entry of the source. -/
def RemoteEntry.planned (entry : RemoteEntry) (relativePath packageRelativePath : String)
    (sizeBytes : Option ℕ) : PlannedFile :=
  ⟨relativePath, packageRelativePath, sizeBytes, entry.objectId, entry.revision, entry.checksum⟩

@[simp] theorem RemoteEntry.planned_relativePath (entry : RemoteEntry)
    (relativePath packageRelativePath : String) (sizeBytes : Option ℕ) :
    (entry.planned relativePath packageRelativePath sizeBytes).relativePath = relativePath := rfl

@[simp] theorem RemoteEntry.planned_packageRelativePath (entry : RemoteEntry)
    (relativePath packageRelativePath : String) (sizeBytes : Option ℕ) :
    (entry.planned relativePath packageRelativePath sizeBytes).packageRelativePath
      = packageRelativePath := rfl

section Plan

variable (source : Source)

/-- `_source_entry`. -/
def sourceEntry (relativePath : String) : Except TransferError RemoteEntry :=
  let parts := posixParts (slashes relativePath)
  if parts.length < 2 then .error (.invalidSourcePath relativePath)
  else
    match (source.listEntries ("/".intercalate parts.dropLast)).find? (fun entry =>
      slashes entry.relativePath = "/".intercalate parts) with
    | some entry => .ok entry
    | none => .error (.missingSource relativePath)

/-- The plan of a package so far. -/
abbrev Package := List String × List PlannedFile

/-- One turn of the loop of `_plan_directory`. -/
def planEntry (root : String) (package : Package) (entry : RemoteEntry) :
    Except TransferError Package :=
  let parts := posixParts (slashes entry.relativePath)
  let packageRelative := "/".intercalate parts
  let relative := root ++ "/" ++ packageRelative
  if (slashes entry.relativePath).toList.head? = some '/' ∨ parts = []
      ∨ parts.any (fun part => part = "" ∨ part = "." ∨ part = "..")
      ∨ entry.name ≠ parts.getLastD "" then
    .error (.invalidPackagePath entry.relativePath)
  else if entry.isSymlink then .error (.packageSymlink relative)
  else if entry.isDirectory then .ok (package.1 ++ [packageRelative], package.2)
  else .ok (package.1,
    package.2 ++ [entry.planned relative packageRelative entry.sizeBytes])

/-- The order of the files of a plan. -/
def PlannedFile.before (f g : PlannedFile) : Prop := f.relativePath ≤ g.relativePath

instance : DecidableRel PlannedFile.before := fun f g =>
  inferInstanceAs (Decidable (f.relativePath ≤ g.relativePath))

instance : Std.Total PlannedFile.before := ⟨fun f g => le_total f.relativePath g.relativePath⟩

instance : IsTrans PlannedFile PlannedFile.before := ⟨fun _ _ _ => le_trans⟩

/-- `_plan_directory`. -/
def planDirectory (asset : GameAsset) : Except TransferError AssetPlan := do
  let package ← (source.walk asset.relativePath).foldlM (planEntry (posix asset.relativePath))
    ([], [])
  pure
    { asset := asset
      isDirectory := true
      directories := package.1.insertionSort (· ≤ ·)
      files := package.2.insertionSort PlannedFile.before
      recoveryEvidence := false }

/-- `_plan_asset`. -/
def planAsset (asset : GameAsset) : Except TransferError AssetPlan := do
  let entry ← sourceEntry source asset.relativePath
  if entry.isSymlink then .error (.symlinkAsset asset.relativePath)
  else if entry.isDirectory then planDirectory source asset
  else
    pure
      { asset := asset
        isDirectory := false
        directories := []
        files := [entry.planned asset.relativePath "" (asset.sizeBytes.or entry.sizeBytes)]
        recoveryEvidence := false }

end Plan

/-! ### The places of an asset -/

/-- Where the copies of an asset lie: the staged one, the `.part` file beside a staged file, the
    final one, and the old one that a promotion parks. -/
inductive Place
  | staged
  | part
  | final
  | backup
deriving DecidableEq

/-- A path at or below a place; the place itself has the empty name. -/
abbrev Spot := Place × String

/-- Where a member of an asset is staged. -/
def destination (member : String) : Spot := (.staged, member)

/-- `destination.with_name(destination.name + ".part")`. -/
def partOf (member : String) : Spot :=
  if member = "" then (.part, "") else (.staged, member ++ ".part")

inductive FileState
  | pending
  | transferring
  /-- `partial`. -/
  | partway
  | complete
deriving DecidableEq

/-- A row of `cache_staging_files`. -/
structure FileRow (δ : Type) where
  expectedSize : Option ℕ
  state : FileState
  checkpointBytes : ℕ
  checkpointSha256 : Option δ
  contentSha256 : Option δ
deriving DecidableEq

/-- A row of `cache_staging_assets`. -/
structure AssetRow (μ : Type) where
  isDirectory : Bool
  sourceManifestSha256 : μ
deriving DecidableEq

/-- What is kept of an asset between runs. -/
structure AssetStore (δ μ : Type) where
  tree : Place → FileTree Content
  asset : Option (AssetRow μ)
  files : Dict String (FileRow δ)

namespace AssetStore

variable {δ μ : Type} (s : AssetStore δ μ)

/-- What stands at a path. -/
def node (spot : Spot) : Option (Node Content) := (s.tree spot.1).get? spot.2

/-- Replace what stands at and below a place. -/
def setTree (place : Place) (tree : FileTree Content) : AssetStore δ μ :=
  { s with tree := Function.update s.tree place tree }

/-- `path.exists()`, of the place itself. -/
def present (place : Place) : Bool := (s.node (place, "")).isSome

/-- `path.unlink()`. -/
def unlink (spot : Spot) : Option (AssetStore δ μ) :=
  ((s.tree spot.1).unlink spot.2).map (s.setTree spot.1)

/-- `path.open("wb")`, and what is then written. -/
def write (spot : Spot) (bytes : Content) : Option (AssetStore δ μ) :=
  if s.node spot = some .other then none
  else ((s.tree spot.1).place spot.2 bytes).map (s.setTree spot.1)

/-- `output.write(chunk)`, at the end of a file. -/
def append (spot : Spot) (chunk : Content) : Option (AssetStore δ μ) :=
  match s.node spot with
  | some (.file bytes) => s.write spot (bytes ++ chunk)
  | _ => none

/-- `handle.truncate(length)`. -/
def truncate (spot : Spot) (length : ℕ) : Option (AssetStore δ μ) :=
  match s.node spot with
  | some (.file bytes) => s.write spot (bytes.take length)
  | _ => none

/-- `os.replace(part, destination)`. -/
def replaceFile (part destination : Spot) : Option (AssetStore δ μ) :=
  match s.node part with
  | some (.file bytes) =>
    (((s.tree destination.1).place destination.2 bytes).map (s.setTree destination.1)).bind
      (fun t => t.unlink part)
  | _ => none

/-- `path.mkdir(exist_ok=True)`. -/
def mkdir (spot : Spot) : Option (AssetStore δ μ) :=
  ((s.tree spot.1).mkdir spot.2).map (s.setTree spot.1)

/-- `shutil.rmtree(path)`, of a directory below a place. -/
def rmtree (spot : Spot) : AssetStore δ μ :=
  s.setTree spot.1 ((s.tree spot.1).restrict (fun name =>
    !(name = spot.2 || (spot.2 ++ "/").toList.isPrefixOf name.toList)))

/-- `os.replace(path, other)` of a whole place: a directory replaces nothing but an empty one, and
    a file no directory. -/
def rename (place other : Place) : Option (AssetStore δ μ) :=
  match s.node (place, ""), s.node (other, "") with
  | some _, none => some ((s.setTree other (s.tree place)).setTree place ∅)
  | some .directory, some .directory =>
    if (s.tree other).keys = [""] then
      some ((s.setTree other (s.tree place)).setTree place ∅)
    else none
  | some .directory, some _ => none
  | some _, some .directory => none
  | some _, some _ => some ((s.setTree other (s.tree place)).setTree place ∅)
  | none, _ => none

end AssetStore

/-! ### The rows -/

/-- What `_manifest_sha256` hashes of a plan. -/
inductive ManifestItem
  | file (path : String) (size : Option ℕ) (objectId revision checksum : Option String)
  | directory (path : String)
deriving DecidableEq

def AssetPlan.manifest (plan : AssetPlan) : List ManifestItem :=
  plan.files.map (fun file => .file file.packageRelativePath file.sizeBytes file.objectId
    file.revision file.checksum) ++ plan.directories.map .directory

/-- `replace_plan`, of one file: a row that was left `transferring` is taken over as `partial`. -/
def plannedRow {δ : Type} (old : Option (FileRow δ)) (sizeBytes : Option ℕ) : FileRow δ :=
  match old with
  | none => ⟨sizeBytes, .pending, 0, none, none⟩
  | some row =>
    { row with
      expectedSize := sizeBytes
      state := if row.state = .transferring then .partway else row.state }

namespace AssetStore

variable {δ μ : Type}

/-- `replace_plan`: the kind of an asset that has a row is not written again. -/
def replacePlan (manifestSha256 : List ManifestItem → μ) (plan : AssetPlan)
    (s : AssetStore δ μ) : AssetStore δ μ :=
  { s with
    asset := some ⟨(s.asset.map AssetRow.isDirectory).getD plan.isDirectory,
      manifestSha256 plan.manifest⟩
    files := Dict.insertEach ∅ PlannedFile.packageRelativePath
      (fun file => plannedRow (s.files.get? file.packageRelativePath) file.sizeBytes) plan.files }

/-- `delete_asset`, with the rows of its files. -/
def deleteAsset (s : AssetStore δ μ) : AssetStore δ μ := { s with asset := none, files := ∅ }

/-- Change the row of one file, if there is one. -/
def update (member : String) (change : FileRow δ → FileRow δ) (s : AssetStore δ μ) :
    AssetStore δ μ :=
  { s with files := s.files.assign member ((s.files.get? member).map change) }

/-- Whether another file of the asset is `transferring`, which an index allows only one to be. -/
def othersTransferring (s : AssetStore δ μ) (member : String) : Bool :=
  s.files.entries.any (fun entry => entry.1 ≠ member && entry.2.state = .transferring)

/-- `checkpoint`. -/
def checkpoint (member : String) (size : ℕ) (digest : δ) (state : FileState)
    (s : AssetStore δ μ) : Option (AssetStore δ μ) :=
  if state = .transferring ∧ (s.files.get? member).isSome ∧ s.othersTransferring member then none
  else
    some (s.update member fun row =>
      { row with state := state, checkpointBytes := size, checkpointSha256 := some digest })

/-- `complete`. -/
def complete (member : String) (size : ℕ) (digest : δ) (s : AssetStore δ μ) : AssetStore δ μ :=
  s.update member fun row =>
    { row with
      state := .complete
      checkpointBytes := size
      checkpointSha256 := some digest
      contentSha256 := some digest }

end AssetStore

/-! ### What one write changes -/

section Sets

variable {δ μ : Type} {s t : AssetStore δ μ} {spot : Spot} {value : Option (Node Content)}
  {bytes chunk : Content}

/-- One path holds something else, and nothing else of the asset is changed. -/
structure Sets (spot : Spot) (value : Option (Node Content)) (s t : AssetStore δ μ) : Prop where
  node : ∀ x, t.node x = if x = spot then value else s.node x
  tree : ∀ place, place ≠ spot.1 → t.tree place = s.tree place
  asset : t.asset = s.asset
  files : t.files = s.files

theorem tree_setTree_of_ne {place other : Place} (h : other ≠ place) (tree : FileTree Content) :
    (s.setTree place tree).tree other = s.tree other := by
  show Function.update s.tree place tree other = s.tree other
  exact Function.update_of_ne h tree s.tree

theorem sets_setTree {tree : FileTree Content}
    (h : ∀ name, tree.get? name = if name = spot.2 then value else (s.tree spot.1).get? name) :
    Sets spot value s (s.setTree spot.1 tree) := by
  refine ⟨?_, fun place hplace => tree_setTree_of_ne hplace tree, rfl, rfl⟩
  intro x
  show (Function.update s.tree spot.1 tree x.1).get? x.2 = _
  by_cases hplace : x.1 = spot.1
  · rw [hplace, Function.update_self, h]
    refine if_congr ?_ rfl ?_
    · exact ⟨fun hname => Prod.ext hplace hname, congrArg Prod.snd⟩
    · rw [← hplace]
      rfl
  · rw [Function.update_of_ne hplace, if_neg fun heq => hplace (congrArg Prod.fst heq)]
    rfl

theorem sets_unlink (h : s.unlink spot = some t) : Sets spot none s t := by
  obtain ⟨tree, htree, rfl⟩ := Option.map_eq_some_iff.mp h
  exact sets_setTree (FileTree.get?_unlink htree)

theorem sets_write (h : s.write spot bytes = some t) : Sets spot (some (.file bytes)) s t := by
  unfold AssetStore.write at h
  split at h
  · exact absurd h (by simp)
  · obtain ⟨tree, htree, rfl⟩ := Option.map_eq_some_iff.mp h
    exact sets_setTree (FileTree.get?_place htree)

theorem sets_append (hnode : s.node spot = some (.file bytes)) (h : s.append spot chunk = some t) :
    Sets spot (some (.file (bytes ++ chunk))) s t := by
  rw [AssetStore.append, hnode] at h
  exact sets_write h

theorem sets_truncate {length : ℕ} (hnode : s.node spot = some (.file bytes))
    (h : s.truncate spot length = some t) : Sets spot (some (.file (bytes.take length))) s t := by
  rw [AssetStore.truncate, hnode] at h
  exact sets_write h

/-- A rename of a file is a write and a removal. -/
theorem sets_replaceFile {destination : Spot} (hnode : s.node spot = some (.file bytes))
    (h : s.replaceFile spot destination = some t) :
    ∃ mid, Sets destination (some (.file bytes)) s mid ∧ Sets spot none mid t := by
  rw [AssetStore.replaceFile, hnode] at h
  obtain ⟨mid, hmid, ht⟩ := Option.bind_eq_some_iff.mp h
  obtain ⟨tree, htree, rfl⟩ := Option.map_eq_some_iff.mp hmid
  exact ⟨_, sets_setTree (FileTree.get?_place htree), sets_unlink ht⟩

/-- A directory is made where there was one, or nothing. -/
theorem sets_mkdir (h : s.mkdir spot = some t) : Sets spot (some .directory) s t
    ∧ (s.node spot = none ∨ s.node spot = some .directory) := by
  obtain ⟨tree, htree, rfl⟩ := Option.map_eq_some_iff.mp h
  refine ⟨sets_setTree (FileTree.get?_mkdir htree), ?_⟩
  unfold FileTree.mkdir at htree
  split at htree
  · next hnone => exact Or.inl hnone
  · next hdirectory => exact Or.inr hdirectory
  · exact absurd htree (by simp)

/-- The place itself stays where a directory below it is removed. -/
theorem node_rmtree_root {place : Place} {name : String} (hname : name ≠ "") :
    (s.rmtree (place, name)).node (place, "") = s.node (place, "") := by
  have htree : (s.rmtree (place, name)).tree place = (s.tree place).restrict (fun x =>
      !(x = name || (name ++ "/").toList.isPrefixOf x.toList)) :=
    Function.update_self place _ s.tree
  show ((s.rmtree (place, name)).tree place).get? "" = _
  rw [htree, Dict.get?_restrict, if_pos]
  · rfl
  · simp [Ne.symm hname]

theorem partOf_ne_destination (member : String) : partOf member ≠ destination member := by
  unfold partOf destination
  split
  · simp
  · intro h
    have hlength := congrArg String.length (congrArg Prod.snd h)
    simp [String.length_append] at hlength

/-- Neither a staged file nor its `.part` file is one of the final copy, or of a parked one. -/
theorem place_partOf (member : String) :
    (partOf member).1 = .part ∨ (partOf member).1 = .staged := by
  unfold partOf
  split
  · exact Or.inl rfl
  · exact Or.inr rfl

/-- The row of a file is changed, not the size that is expected of it. -/
theorem expectedSize_update {member : String} {change : FileRow δ → FileRow δ}
    (hchange : ∀ row, (change row).expectedSize = row.expectedSize) (name : String) :
    ((s.update member change).files.get? name).map FileRow.expectedSize
      = (s.files.get? name).map FileRow.expectedSize := by
  show ((s.files.assign member ((s.files.get? member).map change)).get? name).map _ = _
  rw [Dict.get?_assign]
  split
  · next hname =>
    rw [hname, Option.map_map]
    refine Option.map_congr fun row _ => hchange row
  · rfl

end Sets

/-! ### Checks of a copy -/

/-- The names below a place. -/
def namesBelow (tree : FileTree Content) : List String := tree.keys.filter (· ≠ "")

def isFile : Option (Node Content) → Bool
  | some (.file _) => true
  | _ => false

/-- The size of a file. -/
def fileSize : Option (Node Content) → ℕ
  | some (.file bytes) => bytes.length
  | _ => 0

def filesBelow (tree : FileTree Content) : List String :=
  (namesBelow tree).filter fun name => isFile (tree.get? name)

def directoriesBelow (tree : FileTree Content) : List String :=
  (namesBelow tree).filter fun name => tree.get? name = some .directory

/-- What `rglob` finds that is neither a file nor a directory. -/
def hasOther (tree : FileTree Content) : Bool :=
  (namesBelow tree).any fun name => tree.get? name = some .other

/-- The bytes of the files below a place. -/
def bytesBelow (tree : FileTree Content) : ℕ :=
  ((filesBelow tree).map fun name => fileSize (tree.get? name)).sum

/-- `_validated_size`: the directories and files of the plan, with the sizes that are known. -/
def validatedSize (tree : FileTree Content) (plan : AssetPlan) : Option ℕ :=
  if plan.isDirectory then
    if tree.get? "" ≠ some .directory ∨ hasOther tree
        ∨ sortedSet (directoriesBelow tree) ≠ sortedSet plan.directories
        ∨ sortedSet (filesBelow tree)
          ≠ sortedSet (plan.files.map PlannedFile.packageRelativePath)
        ∨ plan.files.any (fun file => file.sizeBytes.any
          (· ≠ fileSize (tree.get? file.packageRelativePath))) then none
    else some (bytesBelow tree)
  else
    match tree.get? "", plan.files.head? with
    | some (.file bytes), some file =>
      if file.sizeBytes.any (· ≠ bytes.length) then none else some bytes.length
    | _, _ => none

section Promoted

variable {δ μ : Type} [DecidableEq δ] (sha256 : Content → δ)

/-- Whether a file is as its row says. -/
def asRecorded (record : FileRow δ) (bytes : Content) : Bool :=
  !record.expectedSize.any (· ≠ bytes.length) && record.contentSha256 = some (sha256 bytes)

/-- Whether the file of a name is as its row says. -/
def nodeAsRecorded (record : Option (FileRow δ)) (node : Option (Node Content)) : Bool :=
  match record, node with
  | some record, some (.file bytes) => asRecorded sha256 record bytes
  | _, _ => false

/-- `validated_promoted_size`: the files that the rows say are complete, with their hashes. -/
def AssetStore.promotedSize (s : AssetStore δ μ) : Option ℕ :=
  match s.asset with
  | none => none
  | some asset =>
    let final := s.tree .final
    if s.files.entries = [] ∨ s.files.values.any (fun record =>
        record.state ≠ .complete || record.contentSha256 = none) then none
    else if asset.isDirectory then
      if final.get? "" ≠ some .directory ∨ hasOther final
          ∨ sortedSet (filesBelow final) ≠ sortedSet s.files.keys
          ∨ (filesBelow final).any (fun name =>
            !nodeAsRecorded sha256 (s.files.get? name) (final.get? name)) then none
      else some (bytesBelow final)
    else if nodeAsRecorded sha256 (s.files.get? "") (final.get? "") then
      some (fileSize (final.get? ""))
    else none

end Promoted

end RomCloud.Transfer
