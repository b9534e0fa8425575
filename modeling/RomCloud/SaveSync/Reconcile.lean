import Mathlib.Algebra.GroupWithZero.Nat
import RomCloud.SaveSync.Service

namespace RomCloud.SaveSync

open RomCloud.Lib

/-!
# One reconciliation

`_reconcile_once` compares what a call selects, promotes the plan on both sides and rewrites the
durable state.

* `ReconcileCall` — the arguments; `effectiveGroups`, `effectiveLayouts`, `covers` — what is left
  of the two selectors and which layouts the call scans;
* `prepareContainers` — `_prepare_container_reconciliation`;
* `Comparison` — the scans, the container work, the plan and the desired manifests of a call;
* `nextState` — the state document the call writes;
* `reconcileOnce` — the call: an error, nothing done, or the sides and the state after it.

The promotion of the selected files is one step here (`promote`); its atomicity is the subject of
the transaction modules.  Nobody else writes the two sides during the call, and no interrupted
transaction is left to recover.  A call that raises changes nothing in this model.
-/

/-- The arguments of `_reconcile_once`. -/
structure ReconcileCall where
  selectedGroupIds : Option (Finset GroupId)
  selectedLayoutIds : Option (Finset LayoutId)
  uploadOnly : Bool
  bootstrap : Bool
  isGroupActive : GroupId → Bool
  isLayoutActive : LayoutId → Bool
  obsoleteConflictIds : List ConflictId
  trustedGroupScope : Bool
  groupLayoutHints : Dict GroupId LayoutId
  indexedRemotePaths : Dict GroupId (Finset Path)

/-- What the surroundings of a call decide: whether the remote answers, whether a step fails,
    which sessions are active when the call looks again, the fresh ids, and the generation the
    shared journal gives the call's own append. -/
structure ReconcileEnv where
  reachable : Bool
  stepError : Option SaveSyncError
  groupActiveLater : GroupId → Bool
  layoutActiveLater : LayoutId → Bool
  operationId : String
  revision : String
  timestamp : String
  appendedGeneration : Option ℕ

/-- The two sides and the durable state of a device. -/
structure Sides where
  localSide : Manifest
  remoteSide : Manifest
  state : SaveSyncState

/-! ### Scope -/

section Scope

variable (service : Service) (call : ReconcileCall) (state : SaveSyncState)

/-- The selected groups without an active session. -/
def effectiveGroups : Option (Finset GroupId) :=
  call.selectedGroupIds.map (fun groups => groups.filter (fun gid => !call.isGroupActive gid))

/-- The selected layouts that are enabled and without an active session. -/
def effectiveLayouts : Option (Finset LayoutId) :=
  call.selectedLayoutIds.map (fun layouts => layouts.filter (fun layoutId =>
    service.layoutEnabled layoutId && !call.isLayoutActive layoutId))

/-- Whether a call is about a group, as far as the group selector says. -/
def selects (gid : GroupId) : Bool := (effectiveGroups call).all (fun groups => gid ∈ groups)

/-- The enabled layouts of the groups of a call without layout selector. -/
def scopedLayouts (groups : Finset GroupId) : Finset LayoutId :=
  groups.biUnion (fun gid =>
    match ((state.groups.get? gid).map SaveGroupState.layoutId).or
        (call.groupLayoutHints.get? gid) with
    | none => ∅
    | some layoutId => if service.layoutEnabled layoutId then {layoutId} else ∅)

/-- The layouts a call scans. -/
def covers (layoutId : LayoutId) : Bool :=
  match effectiveLayouts service call, effectiveGroups call with
  | some layouts, _ => layoutId ∈ layouts
  | none, some groups => layoutId ∈ scopedLayouts service call state groups
  | none, none => service.layoutEnabled layoutId

/-- The paths the remote scan of a call is narrowed to (`verification_remote_scope_paths`). -/
def remoteScopePaths (localReport : ScanReport) : Option (Finset Path) :=
  match effectiveLayouts service call, effectiveGroups call with
  | none, some groups =>
    if call.trustedGroupScope
        && !service.hasContainerLayout (scopedLayouts service call state groups) then
      some (service.trustedGroupRemoteScope groups localReport state call.indexedRemotePaths)
    else none
  | _, _ => none

/-- The name of the scope in plans and reports. -/
def scopeName : String :=
  if (effectiveGroups call).isSome then "pending_dirty"
  else if (effectiveLayouts service call).isSome then "journal-layout"
  else "all_eligible"

end Scope

/-! ### Containers -/

/-- `_ContainerWork`: what the container adapters decided. -/
structure ContainerWork where
  handledPaths : List Path
  desiredLocal : Manifest
  desiredRemote : Manifest
  baselines : ContainerTable
  descriptors : List SaveGroupDescriptor
  conflictedContainerIds : List ContainerId
  conflictPaths : List Path
  invalidatedContainerIds : List ContainerId
  uploaded : ℕ
  downloaded : ℕ
  unchanged : ℕ
  uploadBytes : ℕ
  downloadBytes : ℕ

/-- The work before any container is looked at. -/
def ContainerWork.start (localSide remoteSide : Manifest) : ContainerWork where
  handledPaths := []
  desiredLocal := localSide
  desiredRemote := remoteSide
  baselines := ∅
  descriptors := []
  conflictedContainerIds := []
  conflictPaths := []
  invalidatedContainerIds := []
  uploaded := 0
  downloaded := 0
  unchanged := 0
  uploadBytes := 0
  downloadBytes := 0

/-- `_replace_container_manifest`, for a side that has to be rebuilt. -/
def replaceContainerManifest (manifest : Manifest) (descriptor : SaveGroupDescriptor)
    (replacement : Option Manifest) : Manifest :=
  match replacement with
  | none => manifest
  | some files => (manifest.restrict (fun path => !descriptor.contains path)).update files

/-- The containers of the compared files, each with the descriptor of its first file. -/
def containerDescriptors (registry : SaveRegistry) (localSide remoteSide : Manifest) :
    List SaveGroupDescriptor :=
  (sortedSet (localSide.paths ++ remoteSide.paths)).foldl (fun found path =>
    match registry.groupForPath path with
    | none => found
    | some descriptor =>
      if !descriptor.contained
          || found.any (fun d => d.containerId = descriptor.containerId) then found
      else found ++ [descriptor]) []

section Containers

variable (service : Service) (localSide remoteSide : Manifest) (state : SaveSyncState)
variable (repairLocalGroupIds : Finset GroupId)

/-- One container of `_prepare_container_reconciliation`. -/
def prepareContainer (work : ContainerWork) (descriptor : SaveGroupDescriptor) : ContainerWork :=
  if descriptor.groupId ∈ repairLocalGroupIds then work
  else match service.containerRegistry descriptor.containerAdapterId with
  | none => work
  | some adapter =>
    let localPart := localSide.restrict descriptor.contains
    let remotePart := remoteSide.restrict descriptor.contains
    if localPart.paths.isEmpty || remotePart.paths.isEmpty then work
    else match adapter descriptor localPart remotePart
        (state.containerBaselines.get? descriptor.containerId) with
    | .error .adapterVersionMismatch =>
      { work with
        invalidatedContainerIds := work.invalidatedContainerIds ++ [descriptor.containerId] }
    | .error (.other _) => work
    | .ok verdict =>
      { handledPaths := work.handledPaths ++ localPart.paths ++ remotePart.paths
        desiredLocal :=
          replaceContainerManifest work.desiredLocal descriptor verdict.localFiles
        desiredRemote :=
          replaceContainerManifest work.desiredRemote descriptor verdict.remoteFiles
        baselines := work.baselines.put verdict.nextBaseline
        descriptors := work.descriptors ++ [descriptor]
        conflictedContainerIds :=
          if verdict.conflictPaths.isEmpty then work.conflictedContainerIds
          else work.conflictedContainerIds ++ [descriptor.containerId]
        conflictPaths := work.conflictPaths ++ verdict.conflictPaths
        invalidatedContainerIds := work.invalidatedContainerIds
        uploaded := work.uploaded + verdict.uploaded
        downloaded := work.downloaded + verdict.downloaded
        unchanged := work.unchanged + verdict.unchanged
        uploadBytes := work.uploadBytes + verdict.uploadBytes
        downloadBytes := work.downloadBytes + verdict.downloadBytes }

/-- `_prepare_container_reconciliation`; an upload-only pass leaves containers to the plan. -/
def prepareContainers (uploadOnly : Bool) : ContainerWork :=
  if uploadOnly then ContainerWork.start localSide remoteSide
  else (containerDescriptors service.registry localSide remoteSide).foldl
    (prepareContainer service localSide remoteSide state repairLocalGroupIds)
    (ContainerWork.start localSide remoteSide)

end Containers

/-! ### The comparison -/

/-- A scan without the paths that containers already account for. -/
def withoutPaths (report : ScanReport) (paths : List Path) : ScanReport :=
  { report with artifacts := report.artifacts.restrict (fun path => path ∉ paths) }

/-- The part of a manifest a call with the given selectors compares. -/
def selectedPart (service : Service) (call : ReconcileCall) (manifest : Manifest) : Manifest :=
  match effectiveGroups call with
  | none => manifest
  | some groups => service.manifestForGroups manifest groups

/-- What a call finds before it decides anything. -/
structure Comparison (service : Service) (call : ReconcileCall) where
  completeLocal : Manifest
  completeRemote : Manifest
  remoteScope : Option (Finset Path)
  originalLocal : Manifest
  originalRemote : Manifest
  physicalBaseline : Manifest
  repairLocalGroupIds : Finset GroupId
  work : ContainerWork
  /-- The scans and the baseline without the files of containers. -/
  localReport : ScanReport
  remoteReport : ScanReport
  baseline : Manifest

/-- The scanning half of `_reconcile_once`. -/
def compare (service : Service) (call : ReconcileCall) (sides : Sides) :
    Comparison service call :=
  let state := sides.state
  let repair := ((service.localMaterializationGaps state sides.localSide ∅).map
    SaveGroupState.groupId).toFinset
  let scanned := covers service call state
  let localReport := service.scanLayouts scanned none sides.localSide
  let remoteScope := remoteScopePaths service call state localReport
  let remoteReport := service.scanLayouts scanned remoteScope sides.remoteSide
  let originalLocal := selectedPart service call localReport.artifacts
  let originalRemote := selectedPart service call remoteReport.artifacts
  let physicalBaseline :=
    match effectiveGroups call, effectiveLayouts service call with
    | some groups, _ => service.manifestForGroups (service.automaticBaseline state) groups
    | none, some layouts =>
      (service.automaticBaseline state).restrict
        (service.pathCovered (fun layoutId => layoutId ∈ layouts))
    | none, none => service.automaticBaseline state
  let work := prepareContainers service originalLocal originalRemote state repair call.uploadOnly
  { completeLocal := localReport.artifacts
    completeRemote := remoteReport.artifacts
    remoteScope := remoteScope
    originalLocal := originalLocal
    originalRemote := originalRemote
    physicalBaseline := physicalBaseline
    repairLocalGroupIds := repair
    work := work
    localReport := withoutPaths { localReport with artifacts := originalLocal } work.handledPaths
    remoteReport :=
      withoutPaths { remoteReport with artifacts := originalRemote } work.handledPaths
    baseline := physicalBaseline.restrict (fun path => path ∉ work.handledPaths) }

namespace Comparison

variable {service : Service} {call : ReconcileCall} (c : Comparison service call)

/-- The plan of a call. -/
def plan : SaveReconcilePlan :=
  reconcilePlan c.localReport c.remoteReport c.baseline service.registry.toSaveSelectionPolicy
    (scopeName service call) c.repairLocalGroupIds

/-- What a call wants to find on the local side afterwards, among the files it compares. -/
def desiredLocal : Manifest :=
  (applyPlan c.plan call.uploadOnly (c.work.desiredLocal, c.work.desiredRemote)).1

/-- What a call wants to find on the remote side afterwards, among the files it compares. -/
def desiredRemote : Manifest :=
  (applyPlan c.plan call.uploadOnly (c.work.desiredLocal, c.work.desiredRemote)).2

end Comparison

/-! ### The promotion -/

/-- What a committed selected transaction leaves of a side: its changed paths as desired, every
    other path as it was. -/
def promote (side current desired : Manifest) : Manifest :=
  (side.restrict (fun path => current.get? path = desired.get? path)).update
    (desired.restrict (fun path => current.get? path ≠ desired.get? path))

/-- `_replace_selected_groups`. -/
def replaceSelectedGroups (service : Service) (call : ReconcileCall)
    (complete selected : Manifest) : Manifest :=
  match effectiveGroups call with
  | none => selected
  | some groups =>
    (complete.restrict (fun path =>
      service.groupId path ∉ groups)).update selected

/-! ### The next state -/

section NextState

variable {service : Service} {call : ReconcileCall} (env : ReconcileEnv) (state : SaveSyncState)
variable (c : Comparison service call)

def SaveReconcilePlan.byAction (plan : SaveReconcilePlan) (action : SaveReconcileAction) :
    List SaveReconcileEntry :=
  plan.entries.filter (fun entry => entry.action = action)

/-- The report of the call. -/
def reconcileReport : SaveReconcileReport where
  revision := env.revision
  timestamp := env.timestamp
  uploaded := (c.plan.byAction .upload).length + c.work.uploaded
  downloaded :=
    if call.uploadOnly then 0 else (c.plan.byAction .download).length + c.work.downloaded
  conflicts := (c.plan.byAction .conflict).length + c.work.conflictPaths.length
  unchanged := (c.plan.byAction .unchanged).length + c.work.unchanged
  uploadBytes :=
    ((c.plan.byAction .upload).filterMap (fun entry =>
      entry.localArtifact.map SaveArtifact.sizeBytes)).sum + c.work.uploadBytes
  downloadBytes :=
    if call.uploadOnly then 0
    else ((c.plan.byAction .download).filterMap (fun entry =>
      entry.remoteArtifact.map SaveArtifact.sizeBytes)).sum + c.work.downloadBytes
  conflictPaths :=
    (c.plan.byAction .conflict).map SaveReconcileEntry.relativePath ++ c.work.conflictPaths
  scope := c.plan.scope
  bootstrap := call.bootstrap

/-- The baseline of the compared paths: that of the plan, and what each container now holds. -/
def selectedBaseline : Manifest :=
  c.work.descriptors.foldl (fun baseline descriptor =>
      let paths := fun path => descriptor.contains path && (c.desiredLocal.get? path).isSome
      if descriptor.containerId ∈ c.work.conflictedContainerIds then
        baseline.update (c.physicalBaseline.restrict paths)
      else baseline.update (c.desiredLocal.restrict paths))
    (if call.uploadOnly then uploadOnlyReconciledBaseline c.plan c.baseline
      else reconciledBaseline c.plan c.baseline)

/-- Whether a group has a conflict in the plan or in one of its containers. -/
def conflictedInPlan (gid : GroupId) : Bool :=
  c.work.descriptors.any (fun d =>
      d.groupId = gid && d.containerId ∈ c.work.conflictedContainerIds)
    || c.plan.entries.any (fun entry => entry.action = .conflict
      && (service.registry.groupForPath entry.relativePath).any (fun d => d.groupId = gid))

/-- The state of a container's group after the call. -/
def containerGroupState (descriptor : SaveGroupDescriptor) : SaveGroupState :=
  let snapshot := fun (values : Manifest) =>
    (⟨descriptor.groupId, descriptor.layoutId,
      groupFiles service.registry.toSaveSelectionPolicy values descriptor.groupId,
      some env.timestamp⟩ : SaveGroupSnapshot)
  let conflicted := conflictedInPlan c descriptor.groupId
  { groupId := descriptor.groupId
    layoutId := descriptor.layoutId
    condition := if conflicted then .conflict else .clean
    baseline :=
      match state.groups.get? descriptor.groupId with
      | some previous => if conflicted then previous.baseline else some (snapshot c.desiredLocal)
      | none => some (snapshot c.desiredLocal)
    localObserved := some (snapshot c.desiredLocal)
    remoteObserved := some (snapshot c.desiredRemote)
    dirtyPathHints := []
    verifiedAt := some env.timestamp }

/-- Whether the loop over the stored groups takes a group as affected: it is enabled, selected,
    and one of its dirty hints still belongs to it. -/
def hintedGroup (service : Service) (call : ReconcileCall) (group : SaveGroupState) : Bool :=
  service.layoutEnabled group.layoutId
    && selects call group.groupId
    && group.dirtyPathHints.any (fun hint =>
      (service.registry.groupForPath hint).any (fun descriptor =>
        descriptor.groupId = group.groupId && descriptor.layoutId = group.layoutId))

/-- `affected_layouts`: the groups the call speaks about, with their layouts. -/
def affectedLayouts : Dict GroupId LayoutId :=
  let planned := (∅ : Dict GroupId LayoutId).insertAll c.plan.entries (fun entry =>
    (service.registry.groupForPath entry.relativePath).map (fun d => (d.groupId, d.layoutId)))
  let contained := planned.insertAll c.work.descriptors (fun d => some (d.groupId, d.layoutId))
  contained.insertAll (state.groups.toList.filter (hintedGroup service call)) (fun group =>
    some (group.groupId, group.layoutId))

/-- The state of a group found empty on both sides. -/
def emptyGroupState (timestamp : String) (gid : GroupId) (layoutId : LayoutId) :
    SaveGroupState :=
  let snapshot : SaveGroupSnapshot := ⟨gid, layoutId, [], some timestamp⟩
  { groupId := gid
    layoutId := layoutId
    condition := .clean
    baseline := some snapshot
    localObserved := some snapshot
    remoteObserved := some snapshot
    dirtyPathHints := []
    verifiedAt := some timestamp }

/-- `refreshed_groups`: the group states the call records.  A group the call speaks about that
    has no file left on either side is recorded as empty. -/
def refreshedGroups : GroupTable :=
  let fromManifests := groupStatesFromManifests service.registry.toSaveSelectionPolicy
    (selectedBaseline c) c.desiredLocal c.desiredRemote env.timestamp
  let withContainers :=
    fromManifests.putAll (c.work.descriptors.map (containerGroupState env state c))
  let affected := affectedLayouts state c
  (Table.collect affected.keys
    (fun gid => (affected.get? gid).map (emptyGroupState env.timestamp gid))
    (by
      intro gid group h
      obtain ⟨layoutId, -, rfl⟩ := Option.map_eq_some_iff.mp h
      rfl)).override withContainers

/-- The resolution a verified reconciliation gives to a conflict. -/
def SaveConflictRecord.resolveManually (conflict : SaveConflictRecord)
    (timestamp revision : String) : SaveConflictRecord :=
  { conflict with
    resolvedAt := some timestamp
    resolution := some .manual
    resolutionRevision := some revision }

/-- The state before conflicts are looked at. -/
def committedState : SaveSyncState :=
  let affected := affectedLayouts state c
  { state with
    sharedManifest := (state.sharedManifest.restrict (fun path =>
      (service.registry.groupForPath path).isSome
        && service.groupId path ∉ affected.keys)).update
          (selectedBaseline c)
    lastReconcile := some (reconcileReport env c)
    groups := (state.groups.keep (fun gid => gid ∉ affected.keys)).override
      (refreshedGroups env state c)
    lastCompletedOperationId := some env.operationId
    containerBaselines := (state.containerBaselines.keep (fun id =>
      id ∉ c.work.invalidatedContainerIds)).override c.work.baselines }

/-- Retire the obsolete conflicts, with the states of their groups. -/
def retireObsolete (obsolete : List SaveConflictRecord) (next : SaveSyncState) : SaveSyncState :=
  { next with
    groups := next.groups.keep (fun gid =>
      gid ∉ obsolete.map SaveConflictRecord.groupId)
    conflicts := next.conflicts.map (fun conflict =>
      if conflict.conflictId ∈ obsolete.map SaveConflictRecord.conflictId && !conflict.resolved then
        conflict.resolveManually env.timestamp ("ownership-migration:" ++ env.revision)
      else conflict) }

/-- The refreshed groups left in conflict. -/
def conflictedGroups : List SaveGroupState :=
  (refreshedGroups env state c).toList.filter (fun group =>
    group.condition = .conflict)

/-- Resolve the conflicts of affected groups that are no longer in conflict. -/
def resolveAffected (next : SaveSyncState) : SaveSyncState :=
  { next with
    conflicts := next.conflicts.map (fun conflict =>
      if !conflict.resolved
          && conflict.groupId ∈ (affectedLayouts state c).keys
          && conflict.groupId ∉
            (conflictedGroups env state c).map SaveGroupState.groupId then
        conflict.resolveManually env.timestamp env.revision
      else conflict) }

/-- Record a refreshed group as a conflict, with its observed snapshots as evidence. -/
def recordGroupConflict (timestamp : String) (next : SaveSyncState) (group : SaveGroupState) :
    SaveSyncState :=
  match group.localObserved, group.remoteObserved with
  | some localSnapshot, some remoteSnapshot =>
    recordConflict next group localSnapshot remoteSnapshot timestamp
  | _, _ => next

/-- The state `_reconcile_once` writes. -/
def nextState (obsolete : List SaveConflictRecord) : SaveSyncState :=
  let committed := committedState env state c
  let retired := if obsolete.isEmpty then committed else retireObsolete env obsolete committed
  (conflictedGroups env state c).foldl (recordGroupConflict env.timestamp)
    (resolveAffected env state c retired)

end NextState

/-! ### The call -/

/-- The second half of `_reconcile_once`: promote both sides, prove the result by a scan, and
    write the state. -/
def commitComparison (service : Service) (call : ReconcileCall) (env : ReconcileEnv)
    (sides : Sides) (obsolete : List SaveConflictRecord) :
    Except SaveSyncError (Option (SaveReconcileReport × Sides)) :=
  let c := compare service call sides
  let localSide :=
    if call.uploadOnly then sides.localSide
    else promote sides.localSide c.originalLocal c.desiredLocal
  let remoteSide := promote sides.remoteSide c.originalRemote c.desiredRemote
  let scanned := covers service call sides.state
  if (service.scanLayouts scanned none localSide).artifacts
        ≠ replaceSelectedGroups service call c.completeLocal c.desiredLocal
      ∨ (service.scanLayouts scanned c.remoteScope remoteSide).artifacts
        ≠ replaceSelectedGroups service call c.completeRemote c.desiredRemote then
    .error (.verification "Save/state data changed before reconciliation completed.")
  else
    let next := nextState env sides.state c obsolete
    let cursor :=
      if c.desiredRemote ≠ c.originalRemote ∧ next.quickSyncReady then
        env.appendedGeneration.or next.quickSyncCursorGeneration
      else next.quickSyncCursorGeneration
    .ok (some (reconcileReport env c,
      ⟨localSide, remoteSide, { next with quickSyncCursorGeneration := cursor }⟩))

/-- `_reconcile_once`: `none` when there is nothing the call may look at. -/
def reconcileOnce (service : Service) (call : ReconcileCall) (env : ReconcileEnv)
    (sides : Sides) : Except SaveSyncError (Option (SaveReconcileReport × Sides)) :=
  if (effectiveGroups call).any (fun groups => groups = ∅) then .ok none
  else if (effectiveGroups call).isNone
      && (effectiveLayouts service call).any (fun layouts => layouts = ∅) then .ok none
  else if !env.reachable then
    .error (.connectivity "Remote save location is not reachable")
  else match service.obsoleteWholeLayoutConflicts sides.state ∅
      (fun id => id ∈ call.obsoleteConflictIds) with
  | .error error => .error error
  | .ok obsolete =>
    if !obsolete.isEmpty && (effectiveLayouts service call).all (fun layouts =>
        obsolete.any (fun conflict => conflict.layoutId ∉ layouts)) then
      .error (.verification ("Legacy SaveSync conflict migration requires a complete current "
        ++ "layout scan; the conflict was preserved."))
    else match env.stepError with
    | some error => .error error
    | none =>
      -- the session check is repeated just before anything is promoted
      if (effectiveGroups call).any (fun groups => ∃ gid ∈ groups, env.groupActiveLater gid) then
        .ok none
      else if (effectiveLayouts service call).any (fun layouts =>
          ∃ layoutId ∈ layouts, env.layoutActiveLater layoutId) then .ok none
      else commitComparison service call env sides obsolete

end RomCloud.SaveSync
