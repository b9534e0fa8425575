import RomCloud.SaveSync.Container

namespace RomCloud.SaveSync

open RomCloud.Lib

/-!
# Deliberate operations

What a user asks for, past the three-way plan: a force transfer makes one side the other, and a
conflict is resolved for one of its two snapshots.

* `SaveSyncService` — the service with its container formats;
* `diffEntries`, `commitForce` — the preview of a force transfer, and the transfer;
* `scanConflictSides`, `resolveConflict` — the resolution of a conflict;
* `forcedState`, `conflictResolutionState` — the states they write.

As in `reconcileOnce`, the promotion is one step, and an operation that raises changes nothing.
-/

/-- A registry whose containers do not overlap: a path of a container has its descriptor, which
    its id determines, and the layout of a container has an adapter. -/
structure ContainersApart (registry : SaveRegistry) : Prop where
  own : ∀ p q d e, registry.groupForPath p = some d → d.contained → d.contains q →
    registry.groupForPath q = some e → e = d
  named : ∀ p q d e, registry.groupForPath p = some d → registry.groupForPath q = some e →
    d.contained → e.containerId = d.containerId → e = d
  disjoint : ∀ p q x d e, registry.groupForPath p = some d → registry.groupForPath q = some e →
    d.contained → e.contained → d.contains x → e.contains x → d = e
  adapted : ∀ p d, registry.groupForPath p = some d → d.contained → ∃ layout ∈ registry.layouts,
    layout.layoutId = d.layoutId ∧ layout.containerAdapterId = d.containerAdapterId

/-- The service with the formats its container adapters are for, and the layouts that sessions may
    handle. -/
structure SaveSyncService extends Service where
  formats : String → Option ContainerFormat
  lifecycleEnabled : LayoutId → Bool
  apart : ContainersApart registry
  registry_formats : ∀ id, containerRegistry id = (formats id).map ContainerFormat.adapter

/-! ### Previews -/

inductive TransferDirection
  | upload
  | download
deriving DecidableEq

inductive SaveChangeKind
  | added
  | changed
  | removed
  | unchanged
deriving DecidableEq

/-- One path's status in a preview. -/
structure SaveDiffEntry where
  relativePath : Path
  change : SaveChangeKind
  localArtifact : Option SaveArtifact
  remoteArtifact : Option SaveArtifact
  conflict : Bool
deriving DecidableEq

section Preview

variable (policy : SaveSelectionPolicy) (localSide remoteSide baseline : Manifest)

/-- `_is_conflict`. -/
def isConflict (localArtifact remoteArtifact baselineArtifact : Option SaveArtifact) : Bool :=
  !sameArtifact localArtifact remoteArtifact && !sameArtifact localArtifact baselineArtifact
    && !sameArtifact remoteArtifact baselineArtifact

/-- `_group_conflict_ids`: whether a group differs pairwise on the two sides and the baseline. -/
def groupConflict (gid : GroupId) : Bool :=
  let files := fun (values : Manifest) => groupFiles policy values gid
  files localSide ≠ files remoteSide && files localSide ≠ files baseline
    && files remoteSide ≠ files baseline

/-- `_diff_entries`. -/
def diffEntries (direction : TransferDirection) : List SaveDiffEntry :=
  (sortedSet (localSide.paths ++ remoteSide.paths)).map (fun path =>
    let newArtifact :=
      if direction = .upload then localSide.get? path else remoteSide.get? path
    let oldArtifact :=
      if direction = .upload then remoteSide.get? path else localSide.get? path
    { relativePath := path
      change :=
        if newArtifact.isSome && oldArtifact.isNone then .added
        else if newArtifact.isNone && oldArtifact.isSome then .removed
        else if !sameArtifact newArtifact oldArtifact then .changed
        else .unchanged
      localArtifact := localSide.get? path
      remoteArtifact := remoteSide.get? path
      conflict := groupConflict policy localSide remoteSide baseline (groupId policy path)
        || isConflict (localSide.get? path) (remoteSide.get? path) (baseline.get? path) })

/-- `_manifests_from_diff`. -/
def manifestsFromDiff (entries : List SaveDiffEntry) : Manifest × Manifest :=
  (Manifest.ofArtifacts (entries.filterMap SaveDiffEntry.localArtifact),
    Manifest.ofArtifacts (entries.filterMap SaveDiffEntry.remoteArtifact))

end Preview

/-! ### Force transfers -/

section Force

variable (service : SaveSyncService) (layoutIds : Option (Finset LayoutId))

/-- The layouts a force transfer scans. -/
def forceCovers (layoutId : LayoutId) : Bool :=
  service.layoutEnabled layoutId && layoutIds.all (fun layouts => layoutId ∈ layouts)

/-- A scan of a force transfer. -/
def forceScan (side : Manifest) : Manifest :=
  (service.scanLayouts (forceCovers service layoutIds) none side).artifacts

/-- `_container_baselines_after_force`, for one container that the transfer touched. -/
def containerBaselineAfterForce (manifest : Manifest) (descriptor : SaveGroupDescriptor) :
    Option ContainerBaseline :=
  let part := manifest.restrict descriptor.contains
  if part.paths.isEmpty then none
  else match service.formats descriptor.containerAdapterId with
  | none => none
  | some format =>
    match format.snapshot descriptor part with
    | .error _ => none
    | .ok snapshot => some (baselineFromSnapshot snapshot)

theorem containerId_of_containerBaselineAfterForce {manifest : Manifest}
    {descriptor : SaveGroupDescriptor} {baseline : ContainerBaseline}
    (h : containerBaselineAfterForce service manifest descriptor = some baseline) :
    baseline.containerId = descriptor.containerId := by
  unfold containerBaselineAfterForce at h
  dsimp only at h
  split at h
  · exact absurd h (by simp)
  · split at h
    · exact absurd h (by simp)
    · split at h
      · exact absurd h (by simp)
      · next snapshot hsnapshot =>
        obtain rfl := Option.some.inj h
        exact ContainerFormat.containerId_of_snapshot hsnapshot

/-- The containers of some paths, each with the descriptor of its first path. -/
def touchedContainers (paths : List Path) :
    Table SaveGroupDescriptor SaveGroupDescriptor.containerId :=
  (sortedSet paths).foldl (fun found path =>
    match service.registry.groupForPath path with
    | none => found
    | some descriptor =>
      if descriptor.containerId = "" || (found.get? descriptor.containerId).isSome then found
      else found.put descriptor) ∅

/-- `_container_baselines_after_force`: the baselines of the touched containers are read afresh, or
    dropped. -/
def containerBaselinesAfterForce (state : SaveSyncState) (manifest : Manifest)
    (affectedPaths : List Path) : ContainerTable :=
  let touched := touchedContainers service (affectedPaths ++ manifest.paths)
  (state.containerBaselines.keep (fun id => id ∉ touched.keys)).override
    (Table.collect touched.keys
      (fun id => (touched.get? id).bind (containerBaselineAfterForce service manifest))
      (by
        intro id baseline h
        obtain ⟨descriptor, hget, hbaseline⟩ := Option.bind_eq_some_iff.mp h
        exact (containerId_of_containerBaselineAfterForce service hbaseline).trans
          (Table.key_of_get? hget)))

/-- The resolution a force transfer or a user gives to a conflict. -/
def SaveConflictRecord.resolveWith (conflict : SaveConflictRecord)
    (resolution : SaveConflictResolution) (timestamp revision : String) : SaveConflictRecord :=
  { conflict with
    resolvedAt := some timestamp
    resolution := some resolution
    resolutionRevision := some revision }

/-- The groups of some paths, with their layouts. -/
def touchedGroups (paths : List Path) : Dict GroupId LayoutId :=
  (∅ : Dict GroupId LayoutId).insertAll (sortedSet paths) (fun path =>
    (service.registry.groupForPath path).map (fun d => (d.groupId, d.layoutId)))

/-- The state `_advance_force_state` writes: on the groups of the transfer both sides and the
    baseline are `manifest`. -/
def forcedState (env : ReconcileEnv) (direction : TransferDirection)
    (localSide remoteSide manifest : Manifest) (state : SaveSyncState) : SaveSyncState :=
  let affected := touchedGroups service (localSide.paths ++ remoteSide.paths)
  let emptied : GroupTable := Table.collect affected.keys
    (fun gid => (affected.get? gid).map (emptyGroupState env.timestamp gid))
    (by
      intro gid group h
      obtain ⟨layoutId, -, rfl⟩ := Option.map_eq_some_iff.mp h
      rfl)
  { state with
    sharedManifest := (state.sharedManifest.restrict (fun path =>
      (service.registry.groupForPath path).isSome
        && service.groupId path ∉ affected.keys)).update manifest
    groups := (state.groups.keep (fun gid => gid ∉ affected.keys)).override
      (emptied.override (groupStatesFromManifests service.registry.toSaveSelectionPolicy manifest
        manifest manifest env.timestamp))
    conflicts := state.conflicts.map (fun conflict =>
      if !conflict.resolved && conflict.groupId ∈ affected.keys then
        conflict.resolveWith (if direction = .upload then .keepLocal else .keepRemote)
          env.timestamp env.revision
      else conflict)
    containerBaselines := containerBaselinesAfterForce service state manifest
      (localSide.paths ++ remoteSide.paths)
    lastCompletedOperationId := some env.operationId }

/-- The cursor after an operation that may have appended to the shared journal. -/
def advanceCursor (env : ReconcileEnv) (appends : Bool) (state : SaveSyncState) : SaveSyncState :=
  if appends && state.quickSyncReady then
    { state with
      quickSyncCursorGeneration := env.appendedGeneration.or state.quickSyncCursorGeneration }
  else state

/-- `_commit_force`, for a preview that the user has confirmed. -/
def commitForce (direction : TransferDirection) (confirmed : List SaveDiffEntry)
    (env : ReconcileEnv) (sides : Sides) : Except SaveSyncError Sides :=
  if !env.reachable then .error (.connectivity "The remote save location is not reachable")
  else
    let entries := diffEntries service.registry.toSaveSelectionPolicy
      (forceScan service layoutIds sides.localSide) (forceScan service layoutIds sides.remoteSide)
      sides.state.sharedManifest direction
    if entries ≠ confirmed then .error (.verification
      "Save/state data changed after the preview; review the operation again.")
    else match env.stepError with
    | some error => .error error
    | none =>
      let current := manifestsFromDiff entries
      let source := if direction = .upload then current.1 else current.2
      let localSide :=
        if direction = .upload then sides.localSide
        else promote sides.localSide current.1 source
      let remoteSide :=
        if direction = .upload then promote sides.remoteSide current.2 source
        else sides.remoteSide
      if forceScan service layoutIds (if direction = .upload then localSide else remoteSide)
          ≠ source then .error (.verification
        "Save/state source changed before commit completed; no replacement was kept.")
      else
        let next := forcedState service env direction current.1 current.2 source sides.state
        .ok ⟨localSide, remoteSide,
          advanceCursor env (direction = .upload && current.1 ≠ current.2) next⟩

end Force

/-! ### Conflict resolutions -/

section Resolve

variable (service : SaveSyncService)

/-- `_scan_conflict_sides`, of one side. -/
def scanConflictSide (conflict : SaveConflictRecord) (side : Manifest) : Manifest :=
  service.manifestForGroups
    (service.scanLayouts (fun layoutId =>
      layoutId = conflict.layoutId && service.layoutEnabled layoutId) none side).artifacts
    {conflict.groupId}

/-- The state `_advance_conflict_resolution_state` writes. -/
def conflictResolutionState (env : ReconcileEnv) (conflict : SaveConflictRecord)
    (resolution : SaveConflictResolution) (manifest : Manifest) (state : SaveSyncState) :
    SaveSyncState :=
  let snapshot : SaveGroupSnapshot :=
    ⟨conflict.groupId, conflict.layoutId, manifest.artifacts, some env.timestamp⟩
  { state with
    sharedManifest := (state.sharedManifest.restrict (fun path =>
      service.groupId path ≠ conflict.groupId)).update manifest
    groups := state.groups.put
      { groupId := conflict.groupId
        layoutId := conflict.layoutId
        condition := .clean
        baseline := some snapshot
        localObserved := some snapshot
        remoteObserved := some snapshot
        dirtyPathHints := []
        verifiedAt := some env.timestamp }
    conflicts := state.conflicts.map (fun item =>
      if item.conflictId = conflict.conflictId then
        item.resolveWith resolution env.timestamp env.revision
      else item)
    lastCompletedOperationId := some env.operationId }

/-- `resolve_conflict`. -/
def resolveConflict (conflictId : ConflictId) (resolution : SaveConflictResolution)
    (env : ReconcileEnv) (sides : Sides) : Except SaveSyncError Sides :=
  if resolution = .manual then
    .error (.verification "Conflict resolution must select the local or remote save.")
  else if !env.reachable then
    .error (.connectivity "The remote save location is not reachable")
  else match sides.state.activeConflicts.find? (fun item => item.conflictId = conflictId) with
  | none => .error (.verification "This SaveSync conflict is no longer active.")
  | some conflict =>
    if !service.layoutEnabled conflict.layoutId || !service.lifecycleEnabled conflict.layoutId then
      .error (.verification
        "This save layout is manual-only and cannot be resolved by Auto SaveSync.")
    else
      let localFiles := scanConflictSide service conflict sides.localSide
      let remoteFiles := scanConflictSide service conflict sides.remoteSide
      if localFiles ≠ Manifest.ofArtifacts conflict.localSnapshot.artifacts
          ∨ remoteFiles ≠ Manifest.ofArtifacts conflict.remoteSnapshot.artifacts then
        .error (.verification ("Save data changed after this conflict was detected; leave it "
          ++ "unresolved and run Quick Sync again."))
      else match env.stepError with
      | some error => .error error
      | none =>
        let desired := if resolution = .keepLocal then localFiles else remoteFiles
        let localSide :=
          if resolution = .keepLocal then sides.localSide
          else promote sides.localSide localFiles desired
        let remoteSide :=
          if resolution = .keepLocal then promote sides.remoteSide remoteFiles desired
          else sides.remoteSide
        if scanConflictSide service conflict localSide ≠ desired
            ∨ scanConflictSide service conflict remoteSide ≠ desired then
          .error (.verification "Resolved save group failed post-commit verification.")
        else if sides.state.conflicts.any (fun item =>
            item.conflictId = conflictId && item.resolved) then
          .error (.verification "The SaveSync conflict is already resolved")
        else
          let next := conflictResolutionState service env conflict resolution desired sides.state
          .ok ⟨localSide, remoteSide,
            advanceCursor env (resolution = .keepLocal && localFiles ≠ remoteFiles) next⟩

end Resolve

end RomCloud.SaveSync
