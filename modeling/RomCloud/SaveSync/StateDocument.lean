import RomCloud.Lib.Json
import RomCloud.SaveSync.DurableState

namespace RomCloud.SaveSync.Durable

open RomCloud.Lib

/-!
# The state document

`state_to_dict` and `state_from_dict` of `infrastructure/savesync_state.py`: the durable state as a
JSON document of schema version 4, and the documents of versions 1 to 4 as states.

* `readText`, `readCanonicalPath`, `readNonnegativeInt` — values of the expected type;
* `artifactToDict`, `artifactFromDict`, … — the nested records;
* `stateToDict`, `stateFromDict` — the document.

A conflict id is a text in a document, and has to be the digest of the evidence beside it.  Sizes
and counts are natural numbers in a state, so a negative one is refused where it is read.
-/

/-! ### Values of a type -/

abbrev Read := Except StateError

/-- `_mapping`. -/
def readMapping (payload : Json) (label : String) : Read (List (String × Json)) :=
  match payload with
  | .obj fields => .ok fields
  | _ => .error (.notAnObject label)

/-- `_list`. -/
def readList (payload : Json) (label : String) : Read (List Json) :=
  match payload with
  | .arr items => .ok items
  | _ => .error (.notAnArray label)

/-- `_text`. -/
def readText (value : Json) (label : String) : Read String :=
  match value with
  | .str text => .ok text
  | _ => .error (.notText label)

/-- `_nonempty_text`, of a value. -/
def readNonemptyText (value : Json) (label : String) : Read String := do
  let text ← readText value label
  nonemptyText text label
  .ok text

/-- `_optional_text`. -/
def readOptionalText (value : Json) (label : String) : Read (Option String) :=
  match value with
  | .null => .ok none
  | value => (readNonemptyText value label).map some

/-- `_canonical_path`, of a value. -/
def readCanonicalPath (value : Json) (label : String) : Read Path := do
  let path ← readText value label
  canonicalPath path label
  .ok path

/-- An integer that is no boolean. -/
def readInt (value : Json) (label : String) : Read ℤ :=
  match value with
  | .int value => .ok value
  | _ => .error (.notAnInteger label)

/-- A size or a count, which is not negative. -/
def nonnegative (value : ℤ) (error : StateError) : Read ℕ :=
  if 0 ≤ value then .ok value.toNat else .error error

/-- `_nonnegative_int`. -/
def readNonnegativeInt (value : Json) (label : String) : Read ℕ :=
  match value with
  | .int value => nonnegative value (.notNonNegative label)
  | _ => .error (.notNonNegative label)

/-- `_optional_nonnegative_int`. -/
def readOptionalNonnegativeInt (value : Json) (label : String) : Read (Option ℕ) :=
  match value with
  | .null => .ok none
  | value => (readNonnegativeInt value label).map some

/-- A value of an enumeration, by its text. -/
def readChoice {α : Type} (textOf : α → String) (choices : List α) (value : Json)
    (label : String) : Read α :=
  match value with
  | .str text =>
    match choices.find? (fun choice => textOf choice = text) with
    | some choice => .ok choice
    | none => .error (.invalidChoice label)
  | _ => .error (.invalidChoice label)

/-- An optional text, or `None`. -/
def optionalText (value : Option String) : Json :=
  match value with
  | none => .null
  | some text => .str text

/-- An optional record, or `None`. -/
def optionalDict {α : Type} (toDict : α → Json) (value : Option α) : Json :=
  match value with
  | none => .null
  | some a => toDict a

/-- A record that may be missing. -/
def readOptional {α : Type} (fromDict : Json → String → Read α) (payload : Json)
    (label : String) : Read (Option α) :=
  match payload with
  | .null => .ok none
  | payload => (fromDict payload label).map some

/-! ### Artifacts and snapshots -/

/-- `_artifact_to_dict`. -/
def artifactToDict (artifact : SaveArtifact) : Json :=
  .obj [("relative_path", .str artifact.relativePath), ("size_bytes", .int artifact.sizeBytes),
    ("content_hash", .str artifact.contentHash)]

/-- `_artifact_from_dict`. -/
def artifactFromDict (payload : Json) (label : String) : Read SaveArtifact := do
  let data ← readMapping payload label
  let size ← readInt (Json.get data "size_bytes") (label ++ ".size_bytes")
  let path ← readCanonicalPath (Json.get data "relative_path") (label ++ ".relative_path")
  let contentHash ← readNonemptyText (Json.get data "content_hash") (label ++ ".content_hash")
  let sizeBytes ← nonnegative size (.invalidSize path)
  let artifact : SaveArtifact := ⟨path, sizeBytes, contentHash⟩
  validateArtifacts [artifact] label
  .ok artifact

/-- `_artifacts_from_list`. -/
def artifactsFromList (payload : Json) (label : String) : Read (List SaveArtifact) := do
  let values ← readList payload label
  let artifacts ← Json.readEach artifactFromDict label 0 values
  validateArtifacts artifacts label
  .ok (sortedArtifacts artifacts)

/-- `_snapshot_to_dict`, of a snapshot that is there. -/
def snapshotToDict (snapshot : SaveGroupSnapshot) : Json :=
  .obj [("group_id", .str snapshot.groupId), ("layout_id", .str snapshot.layoutId),
    ("artifacts", .arr (snapshot.artifacts.map artifactToDict)),
    ("observed_at", optionalText snapshot.observedAt)]

/-- `_snapshot_from_dict`, of a value that is there. -/
def snapshotFromDict (payload : Json) (label : String) : Read SaveGroupSnapshot := do
  let data ← readMapping payload label
  let groupId ← readNonemptyText (Json.get data "group_id") (label ++ ".group_id")
  let layoutId ← readNonemptyText (Json.get data "layout_id") (label ++ ".layout_id")
  let artifacts ← artifactsFromList (Json.getOr data "artifacts" (.arr [])) (label ++ ".artifacts")
  let observedAt ← readOptionalText (Json.get data "observed_at") (label ++ ".observed_at")
  let snapshot : SaveGroupSnapshot := ⟨groupId, layoutId, artifacts, observedAt⟩
  validateSnapshot label groupId layoutId snapshot
  .ok snapshot

/-! ### Groups -/

/-- The text of a condition. -/
def SaveGroupCondition.text : SaveGroupCondition → String
  | .clean => "clean"
  | .localDirty => "local-dirty"
  | .remoteDirty => "remote-dirty"
  | .conflict => "conflict"

/-- `_group_to_dict`. -/
def groupToDict (group : SaveGroupState) : Json :=
  .obj [("group_id", .str group.groupId), ("layout_id", .str group.layoutId),
    ("condition", .str (SaveGroupCondition.text group.condition)),
    ("baseline", optionalDict snapshotToDict group.baseline),
    ("local_observed", optionalDict snapshotToDict group.localObserved),
    ("remote_observed", optionalDict snapshotToDict group.remoteObserved),
    ("dirty_path_hints", .arr (group.dirtyPathHints.map .str)),
    ("verified_at", optionalText group.verifiedAt)]

/-- The items of an array, all read under the label of the array. -/
def readItems {α : Type} (read : Json → String → Read α) (payload : Json) (label : String) :
    Read (List α) := do
  let values ← readList payload label
  values.mapM (fun value => read value label)

/-- `_group_from_dict`. -/
def groupFromDict (payload : Json) (label : String) : Read SaveGroupState := do
  let data ← readMapping payload label
  let condition ← readChoice SaveGroupCondition.text [.clean, .localDirty, .remoteDirty, .conflict]
    (Json.getOr data "condition" (.str "clean")) (label ++ ".condition")
  let groupId ← readNonemptyText (Json.get data "group_id") (label ++ ".group_id")
  let layoutId ← readNonemptyText (Json.get data "layout_id") (label ++ ".layout_id")
  let baseline ← readOptional snapshotFromDict (Json.get data "baseline") (label ++ ".baseline")
  let localObserved ← readOptional snapshotFromDict (Json.get data "local_observed")
    (label ++ ".local_observed")
  let remoteObserved ← readOptional snapshotFromDict (Json.get data "remote_observed")
    (label ++ ".remote_observed")
  let dirtyPathHints ← readItems readCanonicalPath (Json.getOr data "dirty_path_hints" (.arr []))
    (label ++ ".dirty_path_hints")
  let verifiedAt ← readOptionalText (Json.get data "verified_at") (label ++ ".verified_at")
  let group : SaveGroupState := ⟨groupId, layoutId, condition, baseline, localObserved,
    remoteObserved, dirtyPathHints, verifiedAt⟩
  validateGroup group
  .ok group

/-- `_groups_from_list`. -/
def groupsFromList (payload : Json) : Read (List SaveGroupState) := do
  let values ← readList payload "groups"
  let groups ← Json.readEach groupFromDict "groups" 0 values
  .ok (sortOn SaveGroupState.groupId groups)

/-! ### Conflicts -/

/-- The text of a resolution. -/
def SaveConflictResolution.text : SaveConflictResolution → String
  | .keepLocal => "keep-local"
  | .keepRemote => "keep-remote"
  | .manual => "manual"

section Conflicts

variable (digest : ConflictId → Text)

/-- `_conflict_to_dict`. -/
def conflictToDict (conflict : SaveConflictRecord) : Json :=
  .obj [("conflict_id", .str (digest (fingerprint conflict)).val),
    ("group_id", .str conflict.groupId), ("layout_id", .str conflict.layoutId),
    ("detected_at", .str conflict.detectedAt), ("last_seen_at", .str conflict.lastSeenAt),
    ("baseline", optionalDict snapshotToDict conflict.baseline),
    ("local", snapshotToDict conflict.localSnapshot),
    ("remote", snapshotToDict conflict.remoteSnapshot),
    ("acknowledged_at", optionalText conflict.acknowledgedAt),
    ("resolved_at", optionalText conflict.resolvedAt),
    ("resolution", optionalText (conflict.resolution.map SaveConflictResolution.text)),
    ("resolution_revision", optionalText conflict.resolutionRevision)]

/-- `_conflict_from_dict`. -/
def conflictFromDict (payload : Json) (label : String) : Read SaveConflictRecord := do
  let data ← readMapping payload label
  let resolution ← readOptional
    (readChoice SaveConflictResolution.text [.keepLocal, .keepRemote, .manual])
    (Json.get data "resolution") (label ++ ".resolution")
  let localRead ← readOptional snapshotFromDict (Json.get data "local") (label ++ ".local")
  let remoteRead ← readOptional snapshotFromDict (Json.get data "remote") (label ++ ".remote")
  match localRead, remoteRead with
  | some localSnapshot, some remoteSnapshot => do
    let conflictId ← readNonemptyText (Json.get data "conflict_id") (label ++ ".conflict_id")
    let groupId ← readNonemptyText (Json.get data "group_id") (label ++ ".group_id")
    let layoutId ← readNonemptyText (Json.get data "layout_id") (label ++ ".layout_id")
    let detectedAt ← readNonemptyText (Json.get data "detected_at") (label ++ ".detected_at")
    let lastSeenAt ← readNonemptyText (Json.get data "last_seen_at") (label ++ ".last_seen_at")
    let baseline ← readOptional snapshotFromDict (Json.get data "baseline") (label ++ ".baseline")
    let acknowledgedAt ← readOptionalText (Json.get data "acknowledged_at")
      (label ++ ".acknowledged_at")
    let resolvedAt ← readOptionalText (Json.get data "resolved_at") (label ++ ".resolved_at")
    let resolutionRevision ← readOptionalText (Json.get data "resolution_revision")
      (label ++ ".resolution_revision")
    let conflict : SaveConflictRecord := ⟨groupId, layoutId, detectedAt, lastSeenAt, baseline,
      localSnapshot, remoteSnapshot, acknowledgedAt, resolvedAt, resolution, resolutionRevision⟩
    validateConflict conflict
    require (conflictId = (digest (fingerprint conflict)).val) (.mismatchedConflictId label)
    .ok conflict
  | _, _ => .error (.missingSnapshots label)

/-- `_conflicts_from_list`. -/
def conflictsFromList (payload : Json) : Read (List SaveConflictRecord) := do
  let values ← readList payload "conflicts"
  let conflicts ← Json.readEach (conflictFromDict digest) "conflicts" 0 values
  .ok (sortOn (fun conflict => (digest (fingerprint conflict)).val) conflicts)

end Conflicts

/-! ### Container baselines -/

/-- An entry of a logical domain, as a document has it. -/
def entryToDict (entry : String × String × ℕ) : Json :=
  .obj [("identity", .str entry.1), ("canonical_hash", .str entry.2.1),
    ("size_bytes", .int entry.2.2)]

/-- The entry a document describes. -/
def entryFromDict (payload : Json) (label : String) : Read (String × String × ℕ) := do
  let data ← readMapping payload label
  let size ← readInt (Json.get data "size_bytes") "logical entry size_bytes"
  let identity ← readNonemptyText (Json.get data "identity") "logical entry identity"
  let canonicalHash ← readNonemptyText (Json.get data "canonical_hash") "logical entry hash"
  let sizeBytes ← nonnegative size (.invalidEntrySize identity)
  .ok (identity, canonicalHash, sizeBytes)

/-- A logical domain, as a document has it. -/
def domainToDict (domain : String × List (String × String × ℕ)) : Json :=
  .obj [("merge_domain_id", .str domain.1), ("entries", .arr (domain.2.map entryToDict))]

/-- The logical domain a document describes. -/
def domainFromDict (payload : Json) (label : String) :
    Read (String × List (String × String × ℕ)) := do
  let data ← readMapping payload label
  let values ← readList (Json.getOr data "entries" (.arr [])) (label ++ ".entries")
  let entries ← Json.readEach entryFromDict (label ++ ".entries") 0 values
  let domainId ← readNonemptyText (Json.get data "merge_domain_id") "merge_domain_id"
  .ok (domainId, sortOn Prod.fst entries)

/-- `_container_baseline_to_dict`. -/
def containerBaselineToDict (baseline : ContainerBaseline) : Json :=
  .obj [("container_id", .str baseline.containerId), ("adapter_id", .str baseline.adapterId),
    ("schema_version", .int baseline.schemaVersion),
    ("format_variant", .str baseline.formatVariant),
    ("domains", .arr (baseline.domains.map domainToDict)),
    ("tombstones", .arr (baseline.tombstones.map .str))]

/-- `_container_baseline_from_dict`. -/
def containerBaselineFromDict (payload : Json) (label : String) : Read ContainerBaseline := do
  let data ← readMapping payload label
  let values ← readList (Json.getOr data "domains" (.arr [])) (label ++ ".domains")
  let domains ← Json.readEach domainFromDict (label ++ ".domains") 0 values
  let schema ← readInt (Json.get data "schema_version") (label ++ ".schema_version")
  let containerId ← readCanonicalPath (Json.get data "container_id") (label ++ ".container_id")
  let adapterId ← readNonemptyText (Json.get data "adapter_id") (label ++ ".adapter_id")
  let formatVariant ← readNonemptyText (Json.get data "format_variant")
    (label ++ ".format_variant")
  let tombstones ← readItems readNonemptyText (Json.getOr data "tombstones" (.arr []))
    (label ++ ".tombstones")
  let schemaVersion ← nonnegative schema .nonPositiveSchema
  let baseline : ContainerBaseline := ⟨containerId, adapterId, schemaVersion, formatVariant,
    sortOn Prod.fst domains, sortOn id tombstones⟩
  validateContainerBaseline baseline
  .ok baseline

/-- `_container_baselines_from_list`. -/
def containerBaselinesFromList (payload : Json) : Read (List ContainerBaseline) := do
  let values ← readList payload "container_baselines"
  let baselines ← Json.readEach containerBaselineFromDict "container_baselines" 0 values
  .ok (sortOn ContainerBaseline.containerId baselines)

/-! ### Receipts, reports and observations -/

/-- `_record_to_dict`, of a record that is there. -/
def recordToDict (record : SaveSyncRecord) : Json :=
  .obj [("revision", .str record.revision), ("timestamp", .str record.timestamp),
    ("device_id", .str record.deviceId), ("manifest", .arr (record.manifest.map artifactToDict))]

/-- `_record_from_dict`, of a value that is there. -/
def recordFromDict (payload : Json) (label : String) : Read SaveSyncRecord := do
  let data ← readMapping payload label
  let revision ← readNonemptyText (Json.get data "revision") (label ++ ".revision")
  let timestamp ← readNonemptyText (Json.get data "timestamp") (label ++ ".timestamp")
  let deviceId ← readNonemptyText (Json.get data "device_id") (label ++ ".device_id")
  let manifest ← artifactsFromList (Json.getOr data "manifest" (.arr [])) (label ++ ".manifest")
  let record : SaveSyncRecord := ⟨revision, timestamp, deviceId, manifest⟩
  validateRecord label record
  .ok record

/-- `_report_to_dict`, of a report that is there. -/
def reportToDict (report : SaveReconcileReport) : Json :=
  .obj [("revision", .str report.revision), ("timestamp", .str report.timestamp),
    ("uploaded", .int report.uploaded), ("downloaded", .int report.downloaded),
    ("conflicts", .int report.conflicts), ("unchanged", .int report.unchanged),
    ("upload_bytes", .int report.uploadBytes), ("download_bytes", .int report.downloadBytes),
    ("conflict_paths", .arr (report.conflictPaths.map .str)), ("scope", .str report.scope),
    ("bootstrap", .bool report.bootstrap)]

/-- `_report_from_dict`, of a value that is there. -/
def reportFromDict (payload : Json) (label : String) : Read SaveReconcileReport := do
  let data ← readMapping payload label
  let revision ← readNonemptyText (Json.get data "revision") (label ++ ".revision")
  let timestamp ← readNonemptyText (Json.get data "timestamp") (label ++ ".timestamp")
  let uploaded ← readNonnegativeInt (Json.getOr data "uploaded" (.int 0)) (label ++ ".uploaded")
  let downloaded ← readNonnegativeInt (Json.getOr data "downloaded" (.int 0))
    (label ++ ".downloaded")
  let conflicts ← readNonnegativeInt (Json.getOr data "conflicts" (.int 0)) (label ++ ".conflicts")
  let unchanged ← readNonnegativeInt (Json.getOr data "unchanged" (.int 0)) (label ++ ".unchanged")
  let uploadBytes ← readNonnegativeInt (Json.getOr data "upload_bytes" (.int 0))
    (label ++ ".upload_bytes")
  let downloadBytes ← readNonnegativeInt (Json.getOr data "download_bytes" (.int 0))
    (label ++ ".download_bytes")
  let conflictPaths ← readItems readCanonicalPath (Json.getOr data "conflict_paths" (.arr []))
    (label ++ ".conflict_paths")
  let scope ← readNonemptyText (Json.getOr data "scope" (.str "managed_games"))
    (label ++ ".scope")
  let report : SaveReconcileReport := ⟨revision, timestamp, uploaded, downloaded, conflicts,
    unchanged, uploadBytes, downloadBytes, conflictPaths, scope,
    (Json.getOr data "bootstrap" (.bool false)).truthy⟩
  validateReport report
  .ok report

/-- The text of an availability. -/
def SaveRemoteAvailability.text : SaveRemoteAvailability → String
  | .unknown => "unknown"
  | .available => "available"
  | .unavailable => "unavailable"

/-- `_remote_to_dict`. -/
def remoteToDict (observation : SaveRemoteObservation) : Json :=
  .obj [("availability", .str (SaveRemoteAvailability.text observation.availability)),
    ("checked_at", optionalText observation.checkedAt), ("detail", .str observation.detail)]

/-- `_remote_from_dict`. -/
def remoteFromDict (payload : Json) : Read SaveRemoteObservation := do
  let data ← readMapping payload "remote_observation"
  let availability ← readChoice SaveRemoteAvailability.text [.unknown, .available, .unavailable]
    (Json.getOr data "availability" (.str "unknown")) "remote_observation.availability"
  let checkedAt ← readOptionalText (Json.get data "checked_at") "remote_observation.checked_at"
  let detail ← readText (Json.getOr data "detail" (.str "")) "remote_observation.detail"
  let observation : SaveRemoteObservation := ⟨availability, checkedAt, detail⟩
  validateRemote observation
  .ok observation

/-- `_operation_to_dict`, of an operation that is there. -/
def operationToDict (operation : SaveSyncActiveOperation) : Json :=
  .obj [("operation_id", .str operation.operationId), ("direction", .str operation.direction),
    ("phase", .str operation.phase), ("started_at", .str operation.startedAt),
    ("group_ids", .arr (operation.groupIds.map .str))]

/-- `_operation_from_dict`, of a value that is there. -/
def operationFromDict (payload : Json) (label : String) : Read SaveSyncActiveOperation := do
  let data ← readMapping payload label
  let operationId ← readNonemptyText (Json.get data "operation_id") (label ++ ".operation_id")
  let direction ← readNonemptyText (Json.get data "direction") (label ++ ".direction")
  let phase ← readNonemptyText (Json.get data "phase") (label ++ ".phase")
  let startedAt ← readNonemptyText (Json.get data "started_at") (label ++ ".started_at")
  let groupIds ← readItems readNonemptyText (Json.getOr data "group_ids" (.arr []))
    (label ++ ".group_ids")
  let operation : SaveSyncActiveOperation := ⟨operationId, direction, phase, startedAt, groupIds⟩
  validateOperation operation
  .ok operation

/-- `_error_to_dict`, of an error that is there. -/
def errorToDict (error : SaveSyncLastError) : Json :=
  .obj [("code", .str error.code), ("message", .str error.message),
    ("occurred_at", .str error.occurredAt), ("operation_id", optionalText error.operationId)]

/-- `_error_from_dict`, of a value that is there. -/
def errorFromDict (payload : Json) (label : String) : Read SaveSyncLastError := do
  let data ← readMapping payload label
  let code ← readNonemptyText (Json.get data "code") (label ++ ".code")
  let message ← readNonemptyText (Json.get data "message") (label ++ ".message")
  let occurredAt ← readNonemptyText (Json.get data "occurred_at") (label ++ ".occurred_at")
  let operationId ← readOptionalText (Json.get data "operation_id") (label ++ ".operation_id")
  let error : SaveSyncLastError := ⟨code, message, occurredAt, operationId⟩
  validateError error
  .ok error

/-! ### The document -/

/-- `CURRENT_STATE_VERSION`. -/
def currentStateVersion : ℕ := 4

section Document

variable (digest : ConflictId → Text)

/-- The document of a state. -/
def stateDict (state : DurableState) : Json :=
  .obj [("version", .int currentStateVersion), ("device_id", .str state.deviceId),
    ("last_upload", optionalDict recordToDict state.lastUpload),
    ("last_download", optionalDict recordToDict state.lastDownload),
    ("shared_manifest", .arr (state.sharedManifest.map artifactToDict)),
    ("last_reconcile", optionalDict reportToDict state.lastReconcile),
    ("groups", .arr (state.groups.map groupToDict)),
    ("conflicts", .arr (state.conflicts.map (conflictToDict digest))),
    ("container_baselines", .arr (state.containerBaselines.map containerBaselineToDict)),
    ("remote_observation", remoteToDict state.remoteObservation),
    ("active_operation", optionalDict operationToDict state.activeOperation),
    ("last_error", optionalDict errorToDict state.lastError),
    ("last_completed_operation_id", optionalText state.lastCompletedOperationId),
    ("quick_sync_cursor_generation",
      optionalDict (fun generation : ℕ => .int generation) state.quickSyncCursorGeneration),
    ("quick_sync_ready", .bool state.quickSyncReady)]

/-- `state_to_dict`. -/
def stateToDict (state : DurableState) : Read Json := do
  validateState state
  .ok (stateDict digest state)

/-- `_document_version`. -/
def documentVersion (data : List (String × Json)) : Read ℕ :=
  match Json.get data "version" with
  | .null =>
    if Json.lookup "device_id" data ≠ none
        ∧ ∀ field ∈ data, field.1 ∈ ["device_id", "last_upload", "last_download"] then .ok 1
    else .error .unrecognizedVersion
  | .int raw => if raw < 1 then .error .invalidVersion else .ok raw.toNat
  | _ => .error .invalidVersion

/-- The common manifest a document of version 1 implies: that of its newest receipt. -/
def migratedManifest (version : ℕ) (lastUpload lastDownload : Option SaveSyncRecord)
    (sharedManifest : List SaveArtifact) : List SaveArtifact :=
  if version = 1 ∧ sharedManifest = [] then
    match lastUpload, lastDownload with
    | none, none => sharedManifest
    | some record, none => record.manifest
    | none, some record => record.manifest
    | some upload, some download =>
      if upload.timestamp < download.timestamp then download.manifest else upload.manifest
  else sharedManifest

/-- A field of the versions from `since` on, which earlier versions do not have. -/
def sinceVersion {α : Type} (since version : ℕ) (default : α) (read : Read α) : Read α :=
  if since ≤ version then read else .ok default

/-- `state_from_dict`. -/
def stateFromDict (payload : Json) : Read DurableState := do
  let data ← readMapping payload "SaveSync state"
  let version ← documentVersion data
  require (version ≤ currentStateVersion) (.unsupportedVersion version)
  let deviceId ← readNonemptyText (Json.get data "device_id") "device_id"
  let lastUpload ← readOptional recordFromDict (Json.get data "last_upload") "last_upload"
  let lastDownload ← readOptional recordFromDict (Json.get data "last_download") "last_download"
  let sharedManifest ← artifactsFromList (Json.getOr data "shared_manifest" (.arr []))
    "shared_manifest"
  let lastReconcile ← readOptional reportFromDict (Json.get data "last_reconcile") "last_reconcile"
  let groups ← sinceVersion 3 version [] (groupsFromList (Json.getOr data "groups" (.arr [])))
  let conflicts ← sinceVersion 3 version []
    (conflictsFromList digest (Json.getOr data "conflicts" (.arr [])))
  let containerBaselines ← sinceVersion 4 version []
    (containerBaselinesFromList (Json.getOr data "container_baselines" (.arr [])))
  let remoteObservation ← sinceVersion 3 version ⟨.unknown, none, ""⟩
    (remoteFromDict (Json.getOr data "remote_observation" (.obj [])))
  let activeOperation ← sinceVersion 3 version none
    (readOptional operationFromDict (Json.get data "active_operation") "active_operation")
  let lastError ← sinceVersion 3 version none
    (readOptional errorFromDict (Json.get data "last_error") "last_error")
  let lastCompletedOperationId ← sinceVersion 3 version none
    (readOptionalText (Json.get data "last_completed_operation_id") "last_completed_operation_id")
  let quickSyncCursorGeneration ← sinceVersion 3 version none
    (readOptionalNonnegativeInt (Json.get data "quick_sync_cursor_generation")
      "quick_sync_cursor_generation")
  let quickSyncReady ← sinceVersion 3 version false
    (.ok (Json.getOr data "quick_sync_ready" (.bool false)).truthy)
  let state : DurableState :=
    { deviceId := deviceId
      lastUpload := lastUpload
      lastDownload := lastDownload
      sharedManifest := migratedManifest version lastUpload lastDownload sharedManifest
      lastReconcile := lastReconcile
      groups := groups
      conflicts := conflicts
      containerBaselines := containerBaselines
      remoteObservation := remoteObservation
      activeOperation := activeOperation
      lastError := lastError
      lastCompletedOperationId := lastCompletedOperationId
      quickSyncCursorGeneration := quickSyncCursorGeneration
      quickSyncReady := quickSyncReady }
  validateState state
  .ok state

end Document

end RomCloud.SaveSync.Durable
