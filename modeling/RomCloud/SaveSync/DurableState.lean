import RomCloud.Lib.Check
import RomCloud.Lib.Text
import RomCloud.SaveSync.State

namespace RomCloud.SaveSync.Durable

open RomCloud.Lib

/-!
# The state document, checked

The whole of the durable state, and the checks it passes whenever it is read or written
(`_validate_state` of `infrastructure/savesync_state.py`).

* `DurableState` — every field of the state; groups, conflicts and container baselines are lists
  here, which only the checks keep free of duplicates;
* `fingerprint` — what the id of a conflict is the digest of, whatever the order of its artifacts;
* `validateState` — the checks, in the order of the source.

As elsewhere the digest of a conflict's evidence is represented by the evidence, so an id that does
not match its evidence cannot be written down.  The type checks of the source have no counterpart:
a value of the wrong type cannot be written down either.
-/

/-! ### The fields no reconciliation reads -/

/-- A committed upload or download. -/
structure SaveSyncRecord where
  revision : String
  timestamp : String
  deviceId : String
  manifest : List SaveArtifact
deriving DecidableEq

inductive SaveRemoteAvailability
  | unknown
  | available
  | unavailable
deriving DecidableEq

/-- The last availability result. -/
structure SaveRemoteObservation where
  availability : SaveRemoteAvailability
  checkedAt : Option String
  detail : String
deriving DecidableEq

/-- The receipt of an operation that has not completed. -/
structure SaveSyncActiveOperation where
  operationId : String
  direction : String
  phase : String
  startedAt : String
  groupIds : List GroupId
deriving DecidableEq

/-- The last failure. -/
structure SaveSyncLastError where
  code : String
  message : String
  occurredAt : String
  operationId : Option String
deriving DecidableEq

/-- The durable state of a device, with all its fields. -/
structure DurableState where
  deviceId : String
  lastUpload : Option SaveSyncRecord
  lastDownload : Option SaveSyncRecord
  sharedManifest : List SaveArtifact
  lastReconcile : Option SaveReconcileReport
  groups : List SaveGroupState
  conflicts : List SaveConflictRecord
  containerBaselines : List ContainerBaseline
  remoteObservation : SaveRemoteObservation
  activeOperation : Option SaveSyncActiveOperation
  lastError : Option SaveSyncLastError
  lastCompletedOperationId : Option String
  quickSyncCursorGeneration : Option ℕ
  quickSyncReady : Bool
deriving DecidableEq

/-- `new_state`. -/
def newState (deviceId : String) : DurableState where
  deviceId := deviceId
  lastUpload := none
  lastDownload := none
  sharedManifest := []
  lastReconcile := none
  groups := []
  conflicts := []
  containerBaselines := []
  remoteObservation := ⟨.unknown, none, ""⟩
  activeOperation := none
  lastError := none
  lastCompletedOperationId := none
  quickSyncCursorGeneration := none
  quickSyncReady := false

/-! ### Conflict ids -/

/-- Artifacts in the order of their paths. -/
def sortedArtifacts (artifacts : List SaveArtifact) : List SaveArtifact :=
  artifacts.insertionSort (fun a b => a.relativePath ≤ b.relativePath)

/-- `_snapshot_content_dict`, of a snapshot of a known group: observation times are left out. -/
def snapshotContent (snapshot : SaveGroupSnapshot) : List SaveArtifact :=
  sortedArtifacts snapshot.artifacts

/-- `conflict_id_for`, of snapshots of the group. -/
def fingerprintOf (groupId : GroupId) (layoutId : LayoutId) (baseline : Option SaveGroupSnapshot)
    (localSnapshot remoteSnapshot : SaveGroupSnapshot) : ConflictId :=
  ⟨groupId, layoutId, baseline.map snapshotContent, snapshotContent localSnapshot,
    snapshotContent remoteSnapshot⟩

/-- The id of a recorded conflict. -/
def fingerprint (conflict : SaveConflictRecord) : ConflictId :=
  fingerprintOf conflict.groupId conflict.layoutId conflict.baseline conflict.localSnapshot
    conflict.remoteSnapshot

/-! ### Checks -/

/-- What a state, a document or a transition is refused for.  A label is the field path. -/
inductive StateError
  | emptyText (label : String)
  | notCanonicalPath (label : String)
  | duplicateArtifact (label : String) (path : Path)
  | invalidSize (path : Path)
  | invalidContentHash (path : Path)
  | otherGroup (label : String)
  | otherLayout (label : String)
  | duplicateHint (groupId : GroupId)
  | incompleteResolution (conflictId : ConflictId)
  | duplicateGroup (groupId : GroupId)
  | duplicateConflict (conflictId : ConflictId)
  | unknownGroup (conflictId : ConflictId)
  | conflictLayout (conflictId : ConflictId)
  | conflictCondition (conflictId : ConflictId)
  | nonPositiveSchema
  | duplicateDomain (domainId : String)
  | duplicateEntry (identity : String)
  | invalidEntrySize (identity : String)
  | invalidEntryHash (identity : String)
  | duplicateTombstone
  | tombstonedDomain
  | duplicateContainer (containerId : ContainerId)
  | duplicateOperationGroup
  | completedOperationActive
  | groupOfOtherLayout (groupId : GroupId) (recorded given : LayoutId)
  | unknownConflict (conflictId : ConflictId)
  | alreadyResolved (conflictId : ConflictId)
  | notAnObject (label : String)
  | notAnArray (label : String)
  | notText (label : String)
  | notAnInteger (label : String)
  | notNonNegative (label : String)
  | invalidChoice (label : String)
  | missingSnapshots (label : String)
  | mismatchedConflictId (label : String)
  | unrecognizedVersion
  | invalidVersion
  | unsupportedVersion (version : ℕ)
deriving DecidableEq

/-- A check of a state. -/
abbrev StateCheck := Except StateError Unit

/-- `_nonempty_text`. -/
def nonemptyText (value label : String) : StateCheck :=
  require (strip value ≠ "") (.emptyText label)

@[simp] theorem nonemptyText_eq_ok_iff (value label : String) :
    nonemptyText value label = .ok () ↔ strip value ≠ "" :=
  require_eq_ok_iff _ _

/-- `_canonical_path`. -/
def canonicalPath (path label : String) : StateCheck := do
  nonemptyText path label
  require ('\\' ∉ path.toList ∧ path.toList.head? ≠ some '/') (.notCanonicalPath label)
  require ((∀ part ∈ posixParts path, part ∉ ["", ".", ".."]) ∧ asPosix path = path)
    (.notCanonicalPath label)

/-- Whether a text is a SHA-256 digest in hexadecimal. -/
def isDigest (digest : String) : Bool :=
  digest.toList.length = 64
    && digest.toList.all (fun char => char ∈ "0123456789abcdefABCDEF".toList)

/-- `_validate_artifacts`. -/
def validateArtifacts (artifacts : List SaveArtifact) (label : String) : StateCheck :=
  checkEach SaveArtifact.relativePath
    (fun artifact => canonicalPath artifact.relativePath (label ++ " path"))
    (fun artifact => .duplicateArtifact label artifact.relativePath)
    (fun artifact =>
      require (isDigest artifact.contentHash) (.invalidContentHash artifact.relativePath))
    [] artifacts

/-- `_validate_snapshot`, for a group. -/
def validateSnapshot (label : String) (groupId : GroupId) (layoutId : LayoutId)
    (snapshot : SaveGroupSnapshot) : StateCheck := do
  nonemptyText snapshot.groupId (label ++ ".group_id")
  nonemptyText snapshot.layoutId (label ++ ".layout_id")
  require (snapshot.groupId = groupId) (.otherGroup label)
  require (snapshot.layoutId = layoutId) (.otherLayout label)
  validateArtifacts snapshot.artifacts (label ++ ".artifacts")
  whenSome (fun observedAt => nonemptyText observedAt (label ++ ".observed_at"))
    snapshot.observedAt

/-- `_validate_group`. -/
def validateGroup (group : SaveGroupState) : StateCheck := do
  nonemptyText group.groupId "group_id"
  nonemptyText group.layoutId "layout_id"
  whenSome (validateSnapshot "baseline" group.groupId group.layoutId) group.baseline
  whenSome (validateSnapshot "local_observed" group.groupId group.layoutId) group.localObserved
  whenSome (validateSnapshot "remote_observed" group.groupId group.layoutId) group.remoteObserved
  checkAll (fun path => canonicalPath path ("dirty path for " ++ group.groupId))
    group.dirtyPathHints
  require group.dirtyPathHints.Nodup (.duplicateHint group.groupId)
  whenSome (fun verifiedAt => nonemptyText verifiedAt "verified_at") group.verifiedAt

/-- `_validate_conflict`. -/
def validateConflict (conflict : SaveConflictRecord) : StateCheck := do
  nonemptyText conflict.groupId "conflict group_id"
  nonemptyText conflict.layoutId "conflict layout_id"
  nonemptyText conflict.detectedAt "detected_at"
  nonemptyText conflict.lastSeenAt "last_seen_at"
  whenSome (validateSnapshot "baseline" conflict.groupId conflict.layoutId) conflict.baseline
  validateSnapshot "local" conflict.groupId conflict.layoutId conflict.localSnapshot
  validateSnapshot "remote" conflict.groupId conflict.layoutId conflict.remoteSnapshot
  whenSome (fun acknowledgedAt => nonemptyText acknowledgedAt "acknowledged_at")
    conflict.acknowledgedAt
  require ((conflict.resolvedAt.isSome ↔ conflict.resolution.isSome)
      ∧ (conflict.resolution.isSome ↔ conflict.resolutionRevision.isSome))
    (.incompleteResolution (fingerprint conflict))

/-- What `_validate_state` asks of the group of an active conflict. -/
def checkActive (groups : List SaveGroupState) (conflict : SaveConflictRecord) : StateCheck :=
  if conflict.resolved then .ok ()
  else match groups.find? (fun group => group.groupId = conflict.groupId) with
  | none => .error (.unknownGroup (fingerprint conflict))
  | some group => do
    require (group.layoutId = conflict.layoutId) (.conflictLayout (fingerprint conflict))
    require (group.condition = .conflict) (.conflictCondition (fingerprint conflict))

/-- The entries of a logical domain, with the identities seen in it and in the domains before. -/
def validateEntries (seen : List String) (entries : List (String × String × ℕ)) : StateCheck :=
  checkEach Prod.fst (fun entry => nonemptyText entry.1 "logical entry identity")
    (fun entry => .duplicateEntry entry.1)
    (fun entry => require (isDigest entry.2.1) (.invalidEntryHash entry.1)) seen entries

/-- The loop of `_validate_container_baseline` over the domains. -/
def validateDomains (domainIds entryIds : List String) :
    List (String × List (String × String × ℕ)) → StateCheck
  | [] => .ok ()
  | domain :: rest => do
    nonemptyText domain.1 "merge_domain_id"
    require (domain.1 ∉ domainIds) (.duplicateDomain domain.1)
    validateEntries entryIds domain.2
    validateDomains (domain.1 :: domainIds) (domain.2.map Prod.fst ++ entryIds) rest

/-- `_validate_container_baseline`. -/
def validateContainerBaseline (baseline : ContainerBaseline) : StateCheck := do
  canonicalPath baseline.containerId "container_baseline.container_id"
  nonemptyText baseline.adapterId "container_baseline.adapter_id"
  require (0 < baseline.schemaVersion) .nonPositiveSchema
  nonemptyText baseline.formatVariant "container_baseline.format_variant"
  validateDomains [] [] baseline.domains
  require baseline.tombstones.Nodup .duplicateTombstone
  checkAll (fun domain => nonemptyText domain "logical domain tombstone") baseline.tombstones
  require (∀ domain ∈ baseline.domains, domain.1 ∉ baseline.tombstones) .tombstonedDomain

/-- `_validate_record`. -/
def validateRecord (label : String) (record : SaveSyncRecord) : StateCheck := do
  nonemptyText record.revision (label ++ ".revision")
  nonemptyText record.timestamp (label ++ ".timestamp")
  nonemptyText record.deviceId (label ++ ".device_id")
  validateArtifacts record.manifest (label ++ ".manifest")

/-- `_validate_report`. -/
def validateReport (report : SaveReconcileReport) : StateCheck := do
  nonemptyText report.revision "last_reconcile.revision"
  nonemptyText report.timestamp "last_reconcile.timestamp"
  nonemptyText report.scope "last_reconcile.scope"
  checkAll (fun path => canonicalPath path "last_reconcile conflict path") report.conflictPaths

/-- `_validate_remote`. -/
def validateRemote (observation : SaveRemoteObservation) : StateCheck :=
  whenSome (fun checkedAt => nonemptyText checkedAt "remote_observation.checked_at")
    observation.checkedAt

/-- `_validate_operation`. -/
def validateOperation (operation : SaveSyncActiveOperation) : StateCheck := do
  nonemptyText operation.operationId "active_operation.operation_id"
  nonemptyText operation.direction "active_operation.direction"
  nonemptyText operation.phase "active_operation.phase"
  nonemptyText operation.startedAt "active_operation.started_at"
  require operation.groupIds.Nodup .duplicateOperationGroup
  checkAll (fun groupId => nonemptyText groupId "active_operation.group_id") operation.groupIds

/-- `_validate_error`. -/
def validateError (error : SaveSyncLastError) : StateCheck := do
  nonemptyText error.code "last_error.code"
  nonemptyText error.message "last_error.message"
  nonemptyText error.occurredAt "last_error.occurred_at"
  whenSome (fun operationId => nonemptyText operationId "last_error.operation_id")
    error.operationId

/-- `_validate_state`. -/
def validateState (state : DurableState) : StateCheck := do
  nonemptyText state.deviceId "device_id"
  whenSome (validateRecord "last_upload") state.lastUpload
  whenSome (validateRecord "last_download") state.lastDownload
  validateArtifacts state.sharedManifest "shared_manifest"
  whenSome validateReport state.lastReconcile
  checkEach SaveGroupState.groupId validateGroup (fun group => .duplicateGroup group.groupId)
    (fun _ => .ok ()) [] state.groups
  checkEach fingerprint validateConflict (fun conflict => .duplicateConflict (fingerprint conflict))
    (checkActive state.groups) [] state.conflicts
  checkEach ContainerBaseline.containerId validateContainerBaseline
    (fun baseline => .duplicateContainer baseline.containerId) (fun _ => .ok ()) []
    state.containerBaselines
  validateRemote state.remoteObservation
  whenSome validateOperation state.activeOperation
  whenSome validateError state.lastError
  whenSome (fun operationId => nonemptyText operationId "last_completed_operation_id")
    state.lastCompletedOperationId
  require (∀ operation, state.activeOperation = some operation →
      some operation.operationId ≠ state.lastCompletedOperationId) .completedOperationActive

end RomCloud.SaveSync.Durable
