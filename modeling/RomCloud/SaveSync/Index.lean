import Mathlib.Data.Prod.Lex
import RomCloud.Lib.Fault
import RomCloud.Lib.Table
import RomCloud.Lib.Text
import RomCloud.SaveSync.Manifest

namespace RomCloud.SaveSync.Index

open RomCloud.Lib

/-!
# The shared index

The index directory of a remote dataset (`savesync_index.py`): immutable shards, one for each
layout and generation, a HEAD that names the current ones, and the ownership marker.

* `IndexGroup`, `IndexShard`, `IndexHead` — the documents, with the checks they pass when read;
* `loadShard`, `loadHead`, `resolveDatasetState` — reading;
* `writeShard`, `writeHead`, `publishGroupUpdates`, `updateJournalGeneration`,
  `publishAuthoritativeIndex` — writing, as programs every file write of which can fail;
* `readGroupExpectations`, `validateGroupCas`, `verifyIndexMatchesPayload` — compare-and-swap.

A file write replaces the file at once or not at all.  The digest of a shard and the hash of a
manifest stand for what they are taken of: different contents have different digests.  The
schema version is constant, so a document of another version is a damaged one.
-/

/-! ### Documents -/

structure IndexArtifact where
  path : Path
  sizeBytes : ℕ
  sha256 : String
deriving DecidableEq

/-- The verified remote state of one group. -/
structure IndexGroup where
  groupId : GroupId
  layoutId : LayoutId
  system : String
  groupGeneration : ℕ
  artifacts : List IndexArtifact
  tombstoned : Bool
  originDevice : String
  completedTransactionId : Option String
  containerHead : Option String
deriving DecidableEq

/-- The groups of a shard, in the order of their ids. -/
abbrev IndexGroups := Table IndexGroup IndexGroup.groupId

structure IndexShard where
  datasetId : Text
  layoutId : LayoutId
  generation : ℕ
  groups : IndexGroups
deriving DecidableEq

/-- The name of a shard file: its layout and its generation. -/
abbrev ShardName := LayoutId ×ₗ ℕ

structure IndexLayoutHead where
  generation : ℕ
  object : ShardName
  digest : IndexShard
deriving DecidableEq

structure IndexHead where
  datasetId : Text
  indexGeneration : ℕ
  journalGeneration : ℕ
  layouts : Dict LayoutId IndexLayoutHead
deriving DecidableEq

structure OwnershipMarker where
  datasetId : Text
  establishedAt : Text
  establishedByDevice : Text
deriving DecidableEq

/-- A file that may be missing, or that no check accepts. -/
inductive Stored (α : Type)
  | absent
  | damaged
  | valid (document : α)
deriving DecidableEq

/-- The index directory.  A shard file is `none` when it is damaged. -/
structure IndexDir where
  owner : Stored OwnershipMarker
  head : Stored IndexHead
  previousHead : Stored IndexHead
  shards : Dict ShardName (Option IndexShard)
deriving DecidableEq

/-- A directory nothing was ever published to. -/
def IndexDir.empty : IndexDir := ⟨.absent, .absent, .absent, ∅⟩

/-- `compute_manifest_hash`: the artifacts in the order of their paths. -/
def computeManifestHash (artifacts : List IndexArtifact) : List IndexArtifact :=
  artifacts.insertionSort (fun a b => a.path ≤ b.path)

def IndexGroup.manifestHash (group : IndexGroup) : List IndexArtifact :=
  computeManifestHash group.artifacts

/-! ### Checks -/

/-- What a document is refused for, and what a publication raises. -/
inductive IndexError
  | unsafeLayoutId (layoutId : LayoutId)
  | nonPositiveGeneration
  | unsafeObject (layoutId : LayoutId)
  | unsafePath (path : Path)
  | pathOutsideSystem (path : Path)
  | invalidDigest
  | duplicatePath (path : Path)
  | foreignGroup (groupId : GroupId)
  | foreignLayout (groupId : GroupId)
  | blankText (label : String)
  | tombstonedWithArtifacts (groupId : GroupId)
  | shardUnreadable (name : ShardName)
  | shardCorrupt (name : ShardName)
  | shardDigestMismatch (name : ShardName)
  | shardIdentityMismatch (name : ShardName)
  | shardDiffers (name : ShardName)
  | headCorrupt
  | headMissing
  | ownershipCorrupt
deriving DecidableEq

/-- `_SAFE_LAYOUT_ID`: letters, digits, `_` and `-`. -/
def safeLayoutId (layoutId : LayoutId) : Bool :=
  layoutId ≠ "" && layoutId.toList.all (fun c => c.isAlphanum || c = '_' || c = '-')

/-- `_SHA256_HEX`. -/
def sha256Hex (value : String) : Bool :=
  value.length = 64 && value.toList.all (fun c => c.isDigit || ('a' ≤ c && c ≤ 'f'))

/-- `_canonical_artifact_path`: the error it raises. -/
def artifactPathError? (system : String) (path : Path) : Option IndexError :=
  if '\\' ∈ path.toList || path.toList.head? = some '/' || path.toList.getLast? = some '/'
      || (path.toList.splitOn '/').any (fun part => part = [] || part = ['.'] || part = ['.', '.'])
    then some (.unsafePath path)
  else if path ≠ system && !(system ++ "/").toList.isPrefixOf path.toList then
    some (.pathOutsideSystem path)
  else none

/-- `_artifact_from_dict`. -/
def artifactError? (system : String) (artifact : IndexArtifact) : Option IndexError :=
  match artifactPathError? system artifact.path with
  | some error => some error
  | none => if sha256Hex artifact.sha256 then none else some .invalidDigest

/-- The loop of `_group_from_dict` over the artifacts. -/
def artifactsError? (system : String) : List IndexArtifact → List Path → Option IndexError
  | [], _ => none
  | artifact :: rest, seen =>
    match artifactError? system artifact with
    | some error => some error
    | none =>
      if artifact.path ∈ seen then some (.duplicatePath artifact.path)
      else artifactsError? system rest (artifact.path :: seen)

/-- `_nonempty_text` for a field that may be absent. -/
def textError? (label : String) : Option String → Option IndexError
  | none => none
  | some text => if strip text = "" then some (.blankText label) else none

/-- `_group_from_dict`. -/
def groupError? (layoutId : LayoutId) (group : IndexGroup) : Option IndexError :=
  if !(layoutId ++ "/").toList.isPrefixOf group.groupId.toList then
    some (.foreignGroup group.groupId)
  else if group.layoutId ≠ layoutId then some (.foreignLayout group.groupId)
  else if strip group.system = "" then some (.blankText "group.system")
  else match artifactsError? group.system group.artifacts [] with
  | some error => some error
  | none =>
    match textError? "group.completed_transaction_id" group.completedTransactionId with
    | some error => some error
    | none =>
      match textError? "group.container_head" group.containerHead with
      | some error => some error
      | none =>
        if group.tombstoned && !group.artifacts.isEmpty then
          some (.tombstonedWithArtifacts group.groupId)
        else none

/-- `validate_shard_document`. -/
def validateShardDocument (shard : IndexShard) : Option IndexError :=
  if !safeLayoutId shard.layoutId then some (.unsafeLayoutId shard.layoutId)
  else if shard.generation = 0 then some .nonPositiveGeneration
  else shard.groups.toList.findSome? (groupError? shard.layoutId)

/-- `_layout_head_from_dict`, with the check of the layout id. -/
def layoutHeadError? (entry : LayoutId × IndexLayoutHead) : Option IndexError :=
  if !safeLayoutId entry.1 then some (.unsafeLayoutId entry.1)
  else if entry.2.generation = 0 then some .nonPositiveGeneration
  else if (ofLex entry.2.object).1 ≠ entry.1 then some (.unsafeObject entry.1)
  else none

/-- `validate_head_document`. -/
def validateHeadDocument (head : IndexHead) : Option IndexError :=
  head.layouts.entries.findSome? layoutHeadError?

/-! ### Reading -/

/-- `shard_path`. -/
def shardPath (layoutId : LayoutId) (generation : ℕ) : Except IndexError ShardName :=
  if generation = 0 then .error .nonPositiveGeneration
  else if !safeLayoutId layoutId then .error (.unsafeLayoutId layoutId)
  else .ok (toLex (layoutId, generation))

/-- `load_shard`. -/
def loadShard (dir : IndexDir) (layoutId : LayoutId) (layoutHead : IndexLayoutHead) :
    Except IndexError IndexShard :=
  match dir.shards.get? layoutHead.object with
  | none => .error (.shardUnreadable layoutHead.object)
  | some none => .error (.shardCorrupt layoutHead.object)
  | some (some shard) =>
    if shard ≠ layoutHead.digest then .error (.shardDigestMismatch layoutHead.object)
    else match validateShardDocument shard with
    | some error => .error error
    | none =>
      if shard.layoutId ≠ layoutId ∨ shard.generation ≠ layoutHead.generation then
        .error (.shardIdentityMismatch layoutHead.object)
      else .ok shard

/-- `load_head`. -/
def loadHead (dir : IndexDir) : Except IndexError (Option IndexHead) :=
  match dir.head with
  | .absent => .ok none
  | .damaged => .error .headCorrupt
  | .valid head =>
    match validateHeadDocument head with
    | some error => .error error
    | none => .ok (some head)

/-- `load_head_safe`. -/
def loadHeadSafe (dir : IndexDir) : Option IndexHead :=
  match loadHead dir with
  | .error _ => none
  | .ok head => head

/-- `load_head_strict`. -/
def loadHeadStrict (dir : IndexDir) : Except IndexError IndexHead :=
  match loadHead dir with
  | .error error => .error error
  | .ok none => .error .headMissing
  | .ok (some head) => .ok head

/-- `DatasetOwnership`, with what `resolve_dataset_state` found. -/
inductive DatasetState
  | unowned
  | owned (marker : OwnershipMarker) (head : IndexHead)
  | damaged
deriving DecidableEq

/-- `resolve_dataset_state`. -/
def resolveDatasetState (dir : IndexDir) : DatasetState :=
  match dir.owner with
  | .damaged => .damaged
  | .absent => .unowned
  | .valid marker =>
    match loadHeadStrict dir with
    | .error _ => .damaged
    | .ok head => if head.datasetId ≠ marker.datasetId then .damaged else .owned marker head

/-- `journal_diverged`. -/
def journalDiverged (head : IndexHead) (journalGeneration : ℕ) : Bool :=
  journalGeneration ≠ head.journalGeneration

/-- The group a HEAD gives for an id, through the shard of its layout. -/
def groupOf (dir : IndexDir) (head : IndexHead) (layoutId : LayoutId) (groupId : GroupId) :
    Option IndexGroup :=
  match head.layouts.get? layoutId with
  | none => none
  | some layoutHead =>
    match loadShard dir layoutId layoutHead with
    | .error _ => none
    | .ok shard => shard.groups.get? groupId

/-! ### Writing -/

/-- The file writes of a publication. -/
inductive Site
  | shard (layoutId : LayoutId)
  | previousHead
  | head
  | owner
deriving DecidableEq

/-- What a write can raise: an I/O error, which some writes swallow, or an interrupt. -/
inductive Interruption
  | ioError
  | interrupt
deriving DecidableEq

/-- Programs on the index directory. -/
abbrev IndexProg (α : Type) := Prog Site Interruption IndexError IndexDir α

/-- The directory as it is now. -/
def look : IndexProg IndexDir := Prog.silent (fun dir => (dir, dir))

/-- `write_shard`: a shard file is written once; a second write must find the same content. -/
def writeShard (shard : IndexShard) : IndexProg IndexLayoutHead :=
  match shardPath shard.layoutId shard.generation with
  | .error error => Prog.throw (.own error)
  | .ok name =>
    Prog.step (.shard shard.layoutId) (fun dir =>
      match dir.shards.get? name with
      | some existing =>
        if existing = some shard then .ok (⟨shard.generation, name, shard⟩, dir)
        else .error (.shardDiffers name)
      | none =>
        .ok (⟨shard.generation, name, shard⟩,
          { dir with shards := dir.shards.insert name (some shard) }))

/-- `write_head`. -/
def writeHead (head : IndexHead) (keepPrevious : Bool) : IndexProg Unit :=
  look >>= fun dir =>
  (if keepPrevious ∧ dir.head ≠ .absent then
    Prog.tryCatch
      (Prog.step .previousHead (fun dir => .ok ((), { dir with previousHead := dir.head })))
      (fun error =>
        match error with
        | .external .ioError => pure ()
        | error => Prog.throw error)
  else pure ()) >>= fun _ =>
  Prog.step .head (fun dir => .ok ((), { dir with head := .valid head }))

/-- `write_ownership`. -/
def writeOwnership (marker : OwnershipMarker) : IndexProg Unit :=
  Prog.step .owner (fun dir => .ok ((), { dir with owner := .valid marker }))

/-- The layouts of some groups, in the order in which they first appear. -/
def layoutsOf (groups : List IndexGroup) : List LayoutId :=
  groups.foldl (fun found group =>
    if group.layoutId ∈ found then found else found ++ [group.layoutId]) []

/-- The dataset id of a publication: that of the HEAD, or the given one, or a fresh one. -/
def resolvedDatasetId (previousHead : Option IndexHead) (hint : Option Text) (freshId : Text) :
    Text :=
  ((previousHead.map IndexHead.datasetId).or hint).getD freshId

/-- A loop that writes one shard a turn and enters it in the layouts of the next HEAD. -/
def publishEach {ι : Type} (next : IndexDir → Dict LayoutId IndexLayoutHead → ι → IndexShard) :
    List ι → Dict LayoutId IndexLayoutHead → IndexProg (Dict LayoutId IndexLayoutHead)
  | [], published => pure published
  | x :: rest, published =>
    look >>= fun dir =>
    let shard := next dir published x
    writeShard shard >>= fun layoutHead =>
    publishEach next rest (published.insert shard.layoutId layoutHead)

section GroupUpdates

variable (operationId : Text) (originDevice : String)

/-- An updated group as it is committed: its generation is one more than the committed one. -/
def commitGroup (previousGroup : Option IndexGroup) (group : IndexGroup) : IndexGroup :=
  { group with
    groupGeneration :=
      match previousGroup with
      | some previousGroup => previousGroup.groupGeneration + 1
      | none => 1
    originDevice := originDevice
    completedTransactionId := some operationId.val }

/-- One updated group over those of its layout. -/
def overlayGroup (existing : IndexGroups) (group : IndexGroup) : IndexGroups :=
  existing.put (commitGroup operationId originDevice (existing.get? group.groupId) group)

/-- The shard a publication writes for a layout: the updated groups over the committed ones, if
    these can be read. -/
def updatedShard (dir : IndexDir) (published : Dict LayoutId IndexLayoutHead) (datasetId : Text)
    (layoutId : LayoutId) (groups : List IndexGroup) : IndexShard :=
  let existing : IndexGroups :=
    match published.get? layoutId with
    | none => ∅
    | some previousLayoutHead =>
      match loadShard dir layoutId previousLayoutHead with
      | .error _ => ∅
      | .ok shard => shard.groups
  { datasetId := datasetId
    layoutId := layoutId
    generation :=
      match published.get? layoutId with
      | none => 1
      | some previousLayoutHead => previousLayoutHead.generation + 1
    groups := groups.foldl (overlayGroup operationId originDevice) existing }

/-- The loop of `publish_group_updates` over the layouts. -/
def publishLayouts (datasetId : Text) (updatedGroups : List IndexGroup) :
    List LayoutId → Dict LayoutId IndexLayoutHead → IndexProg (Dict LayoutId IndexLayoutHead) :=
  publishEach (fun dir published layoutId =>
    updatedShard operationId originDevice dir published datasetId layoutId
      (updatedGroups.filter (fun group => group.layoutId = layoutId)))

/-- `publish_group_updates`. -/
def publishGroupUpdates (datasetIdHint : Option Text) (freshId : Text) (journalGeneration : ℕ)
    (updatedGroups : List IndexGroup) : IndexProg IndexHead :=
  look >>= fun dir =>
  let previousHead := loadHeadSafe dir
  let datasetId := resolvedDatasetId previousHead datasetIdHint freshId
  publishLayouts operationId originDevice datasetId updatedGroups (layoutsOf updatedGroups)
    ((previousHead.map IndexHead.layouts).getD ∅) >>= fun published =>
  let head : IndexHead :=
    { datasetId := datasetId
      indexGeneration := ((previousHead.map IndexHead.indexGeneration).getD 0) + 1
      journalGeneration := journalGeneration
      layouts := published }
  writeHead head true >>= fun _ => pure head

end GroupUpdates

/-- `update_journal_generation`. -/
def updateJournalGeneration (journalGeneration : ℕ) : IndexProg (Option IndexHead) :=
  look >>= fun dir =>
  match loadHeadSafe dir with
  | none => pure none
  | some head =>
    if head.journalGeneration = journalGeneration then pure (some head)
    else
      let updated := { head with journalGeneration := journalGeneration }
      writeHead updated false >>= fun _ => pure (some updated)

/-! ### The authoritative index -/

/-- The group sets a Full Sync publishes, one for each layout, in the order of a dictionary. -/
abbrev LayoutGroups := { entries : List (LayoutId × IndexGroups) // (entries.map Prod.fst).Nodup }

/-- Whether a layout's committed groups are the given ones. -/
def layoutUnchanged (dir : IndexDir) (previousLayouts : Dict LayoutId IndexLayoutHead)
    (entry : LayoutId × IndexGroups) : Bool :=
  match previousLayouts.get? entry.1 with
  | none => false
  | some previousLayoutHead =>
    match loadShard dir entry.1 previousLayoutHead with
    | .error _ => false
    | .ok previousShard => previousShard.groups = entry.2

/-- The shard `build_index` makes of a layout that changed. -/
def rebuiltShard (previousLayouts : Dict LayoutId IndexLayoutHead) (datasetId : Text)
    (entry : LayoutId × IndexGroups) : IndexShard where
  datasetId := datasetId
  layoutId := entry.1
  generation :=
    match previousLayouts.get? entry.1 with
    | none => 1
    | some previousLayoutHead => previousLayoutHead.generation + 1
  groups := entry.2

/-- `build_index`: the next HEAD, with the layouts of the old one, and the shards to write. -/
def buildIndex (dir : IndexDir) (previousHead : Option IndexHead) (datasetIdHint : Option Text)
    (freshId : Text) (journalGeneration : ℕ) (layoutGroups : LayoutGroups) :
    IndexHead × List IndexShard :=
  let datasetId := resolvedDatasetId previousHead datasetIdHint freshId
  let previousLayouts := (previousHead.map IndexHead.layouts).getD ∅
  let shardsToWrite := (layoutGroups.val.filter (fun entry =>
    !layoutUnchanged dir previousLayouts entry)).map (rebuiltShard previousLayouts datasetId)
  ({ datasetId := datasetId
     indexGeneration := (previousHead.map IndexHead.indexGeneration).getD 0
       + if shardsToWrite = [] then 0 else 1
     journalGeneration := journalGeneration
     layouts := previousLayouts }, shardsToWrite)

/-- The loop of `publish_authoritative_index` over the shards to write. -/
def publishShards :
    List IndexShard → Dict LayoutId IndexLayoutHead → IndexProg (Dict LayoutId IndexLayoutHead) :=
  publishEach (fun _ _ shard => shard)

/-- Why the shard of a layout cannot be read. -/
def loadError? (dir : IndexDir) (entry : LayoutId × IndexLayoutHead) : Option IndexError :=
  match loadShard dir entry.1 entry.2 with
  | .error error => some error
  | .ok _ => none

/-- Why the first unreadable shard of a HEAD cannot be read. -/
def shardError? (dir : IndexDir) (head : IndexHead) : Option IndexError :=
  head.layouts.entries.findSome? (loadError? dir)

/-- `publish_authoritative_index`. -/
def publishAuthoritativeIndex (datasetIdHint : Option Text) (freshId : Text)
    (journalGeneration : ℕ) (layoutGroups : LayoutGroups) (deviceId establishedAt : Text) :
    IndexProg IndexHead :=
  look >>= fun dir =>
  let (head, shardsToWrite) := buildIndex dir (loadHeadSafe dir) datasetIdHint freshId
    journalGeneration layoutGroups
  publishShards shardsToWrite head.layouts >>= fun published =>
  writeHead { head with layouts := published } true >>= fun _ =>
  look >>= fun after =>
  match loadHeadStrict after with
  | .error error => Prog.throw (.own error)
  | .ok verified =>
    match shardError? after verified with
    | some error => Prog.throw (.own error)
    | none =>
      writeOwnership ⟨verified.datasetId, establishedAt, deviceId⟩ >>= fun _ => pure verified

/-! ### Compare-and-swap -/

structure GroupExpectation where
  groupId : GroupId
  layoutId : LayoutId
  generation : ℕ
  manifestHash : List IndexArtifact
deriving DecidableEq

structure CasConflict where
  groupId : GroupId
  layoutId : LayoutId
  expected : GroupExpectation
  actual : GroupExpectation
deriving DecidableEq

/-- What a HEAD has committed for a group of a layout; an unreadable shard is an error. -/
def readGroupExpectation (dir : IndexDir) (head : IndexHead) (groupId : GroupId)
    (layoutId : LayoutId) : Except IndexError GroupExpectation :=
  let expectation (indexed : Option IndexGroup) : GroupExpectation :=
    { groupId := groupId
      layoutId := layoutId
      generation := (indexed.map IndexGroup.groupGeneration).getD 0
      manifestHash := (indexed.map IndexGroup.manifestHash).getD [] }
  match head.layouts.get? layoutId with
  | none => .ok (expectation none)
  | some layoutHead =>
    match loadShard dir layoutId layoutHead with
    | .error error => .error error
    | .ok shard => .ok (expectation (shard.groups.get? groupId))

/-- `read_group_expectations`, for groups given with their layouts. -/
def readGroupExpectations (dir : IndexDir) (head : IndexHead) :
    List (GroupId × LayoutId) → Except IndexError (List GroupExpectation)
  | [] => .ok []
  | (groupId, layoutId) :: rest =>
    match readGroupExpectation dir head groupId layoutId with
    | .error error => .error error
    | .ok expectation =>
      match readGroupExpectations dir head rest with
      | .error error => .error error
      | .ok expectations => .ok (expectation :: expectations)

/-- `validate_group_cas`. -/
def validateGroupCas (dir : IndexDir) (head : IndexHead) (expectations : List GroupExpectation) :
    Except IndexError (List CasConflict) :=
  match readGroupExpectations dir head
      (expectations.map (fun expected => (expected.groupId, expected.layoutId))) with
  | .error error => .error error
  | .ok current =>
    .ok ((expectations.zip current).filterMap (fun pair =>
      if pair.2.generation ≠ pair.1.generation ∨ pair.2.manifestHash ≠ pair.1.manifestHash then
        some ⟨pair.1.groupId, pair.1.layoutId, pair.1, pair.2⟩
      else none))

/-- `verify_index_matches_payload`: the groups whose observed manifest is not the expected one. -/
def verifyIndexMatchesPayload (expectations : List GroupExpectation)
    (observed : Dict GroupId (List IndexArtifact)) : List GroupId :=
  (expectations.filter (fun expected =>
    (observed.get? expected.groupId).getD [] ≠ expected.manifestHash)).map
      GroupExpectation.groupId

end RomCloud.SaveSync.Index
