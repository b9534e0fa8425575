import RomCloud.SaveSync.MalformedMetadata

namespace RomCloud.SaveSync.SharedMetadata

open RomCloud.Lib

/-!
# Writing the shared documents

`json.dumps` sorts the keys of every dictionary, so that the groups of a shard and the layouts of
HEAD come back in the order of their ids.  An intent sorts its groups itself.

* `Index.shardToDict`, `Index.headToDict`, `Index.ownershipToDict`, `Intent.intentToDict` — the
  documents;
* `Index.writeShard`, `Index.writeHead`, `Index.writeOwnership`, `Intent.writeIntent` — the files;
* `sortBy` — a list in the order of its keys.
-/

/-- A list in the order of its keys, as `sorted` leaves it. -/
def sortBy {α : Type} (key : α → PyText) (l : List α) : List α :=
  l.mergeSort fun a b => PyText.notAfter (key a) (key b)

/-- The text of a document whose keys are sorted. -/
def written (I : Interpreter) (document : PyJson) : Except LoadError Content :=
  if I.dumpDepth < document.depth then .error (.raised .recursionError)
  else .ok (.text (.json document))

namespace Index

/-- `_artifact_to_dict`, the keys sorted. -/
def artifactToDict (artifact : Artifact) : PyJson :=
  .dict [(text "path", .str artifact.path), (text "sha256", .str artifact.sha256),
    (text "size_bytes", .int artifact.sizeBytes)]

def optionalJson : Option PyText → PyJson
  | none => .null
  | some t => .str t

/-- `_group_to_dict`, the keys sorted. -/
def groupToDict (I : Interpreter) (group : Group) : Except LoadError PyJson := do
  let manifestHash ← raising (computeManifestHash I group.artifacts)
  .ok (.dict [(text "artifacts", .list (group.artifacts.map artifactToDict)),
    (text "completed_transaction_id", optionalJson group.completedTransactionId),
    (text "container_head", optionalJson group.containerHead),
    (text "group_generation", .int group.groupGeneration),
    (text "layout_id", .str group.layoutId), (text "manifest_hash", .str manifestHash),
    (text "origin_device", .str group.originDevice), (text "system", .str group.system),
    (text "tombstoned", .bool group.tombstoned)])

/-- One item of the dictionary of groups. -/
def groupItem (I : Interpreter) (group : Group) : Except LoadError (PyText × PyJson) := do
  let payload ← groupToDict I group
  .ok (group.groupId, payload)

/-- `shard_to_dict`, the keys sorted, of a shard whose groups have different ids. -/
def shardToDict (I : Interpreter) (shard : Shard) : Except LoadError PyJson := do
  let groups ← mapEach (groupItem I) shard.groups
  .ok (.dict [(text "dataset_id", .str shard.datasetId), (text "generation", .int shard.generation),
    (text "groups", .dict (sortBy Prod.fst groups)), (text "layout_id", .str shard.layoutId),
    (text "schema_version", shard.schemaVersion)])

/-- `shard_path(…).name`. -/
def shardName (I : Interpreter) (layoutId : PyText) (generation : ℤ) : Except LoadError PyText :=
  if generation < 1 then
    fail (text "SaveSync index shard generation must be a positive integer")
  else do
    let layoutId ← safeLayoutId I layoutId
    .ok (layoutId ++ [46] ++ text (toString generation) ++ text ".json")

/-- `write_shard`, where no file of the name is there: the file, and what HEAD says of it. -/
def writeShard (I : Interpreter) (shard : Shard) : Except LoadError (Content × LayoutHead) := do
  let object ← shardName I shard.layoutId shard.generation
  let document ← shardToDict I shard
  let content ← written I document
  .ok (content, ⟨shard.generation, object, I.sha256 (I.canonical document)⟩)

def layoutHeadToDict (layoutHead : LayoutHead) : PyJson :=
  .dict [(text "digest", .str layoutHead.digest), (text "generation", .int layoutHead.generation),
    (text "object", .str layoutHead.object)]

/-- `head_to_dict`, the keys sorted. -/
def headToDict (head : Head) : PyJson :=
  .dict [(text "dataset_id", .str head.datasetId),
    (text "index_generation", .int head.indexGeneration),
    (text "journal_generation", .int head.journalGeneration),
    (text "layouts", .dict ((sortBy Prod.fst head.layouts).map fun entry =>
      (entry.1, layoutHeadToDict entry.2))),
    (text "schema_version", head.schemaVersion)]

def writeHead (I : Interpreter) (head : Head) : Except LoadError Content :=
  written I (headToDict head)

/-- `ownership_to_dict`, the keys sorted. -/
def ownershipToDict (marker : OwnershipMarker) : PyJson :=
  .dict [(text "dataset_id", .str marker.datasetId),
    (text "established_at", .str marker.establishedAt),
    (text "established_by_device", .str marker.establishedByDevice),
    (text "protocol_version", .int marker.protocolVersion),
    (text "schema_version", marker.schemaVersion)]

def writeOwnership (I : Interpreter) (marker : OwnershipMarker) : Except LoadError Content :=
  written I (ownershipToDict marker)

end Index

namespace Intent

open Index (computeManifestHash artifactToDict)

/-- One group of `intent_to_dict`, the keys sorted. -/
def groupToDict (I : Interpreter) (group : Group) : Except LoadError PyJson := do
  let beforeHash ← raising (computeManifestHash I group.before)
  let desiredHash ← raising (computeManifestHash I group.desired)
  .ok (.dict [(text "before", .list (group.before.map artifactToDict)),
    (text "before_manifest_hash", .str beforeHash),
    (text "desired", .list (group.desired.map artifactToDict)),
    (text "desired_manifest_hash", .str desiredHash),
    (text "expected_group_generation", .int group.expectedGroupGeneration),
    (text "group_id", .str group.groupId), (text "layout_id", .str group.layoutId),
    (text "system", .str group.system)])

/-- `intent_to_dict`, the keys sorted. -/
def intentToDict (I : Interpreter) (intent : CommitIntent) : Except LoadError PyJson := do
  let groups ← mapEach (groupToDict I) (sortBy Group.groupId intent.groups)
  .ok (.dict [(text "base_index_generation", .int intent.baseIndexGeneration),
    (text "base_journal_generation", .int intent.baseJournalGeneration),
    (text "dataset_id", .str intent.datasetId), (text "groups", .list groups),
    (text "operation_id", .str intent.operationId),
    (text "origin_device", .str intent.originDevice), (text "phase", .str intent.phase),
    (text "publication_scope", .str intent.publicationScope),
    (text "schema_version", intent.schemaVersion), (text "started_at", .str intent.startedAt)])

def writeIntent (I : Interpreter) (intent : CommitIntent) : Except LoadError Content := do
  let document ← intentToDict I intent
  written I document

end Intent

end RomCloud.SaveSync.SharedMetadata
