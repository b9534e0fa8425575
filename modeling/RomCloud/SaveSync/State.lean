import RomCloud.Lib.Table
import RomCloud.SaveSync.Plan

namespace RomCloud.SaveSync

open RomCloud.Lib

/-!
# The durable SaveSync state

The state document a device keeps (`core/models/savesync.py`,
`infrastructure/savesync_state.py`), as far as reconciliation reads or writes it.

* `SaveGroupState` — per-group observations and dirty hints;
* `SaveConflictRecord` — conflict evidence, with `recordConflict` and `resolveConflict`;
* `SaveSyncState` — the document; groups and container baselines are filed under their ids.

A conflict's id is the SHA-256 digest of its evidence, and a state whose ids do not match their
evidence is refused (`_validate_conflict`).  The digest is represented by the evidence itself.
-/

abbrev ContainerId := String

/-- Verified content for one conflict unit. -/
structure SaveGroupSnapshot where
  groupId : GroupId
  layoutId : LayoutId
  artifacts : List SaveArtifact
  observedAt : Option String
deriving DecidableEq

inductive SaveGroupCondition
  | clean
  | localDirty
  | remoteDirty
  | conflict
deriving DecidableEq

/-- Durable change state for one save group. -/
structure SaveGroupState where
  groupId : GroupId
  layoutId : LayoutId
  condition : SaveGroupCondition
  baseline : Option SaveGroupSnapshot
  localObserved : Option SaveGroupSnapshot
  remoteObserved : Option SaveGroupSnapshot
  dirtyPathHints : List Path
  verifiedAt : Option String
deriving DecidableEq

abbrev GroupTable := Table SaveGroupState SaveGroupState.groupId

inductive SaveConflictResolution
  | keepLocal
  | keepRemote
  | manual
deriving DecidableEq

/-- Durable conflict evidence. -/
structure SaveConflictRecord where
  groupId : GroupId
  layoutId : LayoutId
  detectedAt : String
  lastSeenAt : String
  baseline : Option SaveGroupSnapshot
  localSnapshot : SaveGroupSnapshot
  remoteSnapshot : SaveGroupSnapshot
  acknowledgedAt : Option String
  resolvedAt : Option String
  resolution : Option SaveConflictResolution
  resolutionRevision : Option String
deriving DecidableEq

def SaveConflictRecord.resolved (conflict : SaveConflictRecord) : Bool :=
  conflict.resolvedAt.isSome

/-- What a conflict id is the digest of; observation times are left out. -/
structure ConflictId where
  groupId : GroupId
  layoutId : LayoutId
  baseline : Option (List SaveArtifact)
  localArtifacts : List SaveArtifact
  remoteArtifacts : List SaveArtifact
deriving DecidableEq

/-- `conflict_id_for`. -/
def conflictIdFor (groupId : GroupId) (layoutId : LayoutId) (baseline : Option SaveGroupSnapshot)
    (localSnapshot remoteSnapshot : SaveGroupSnapshot) : ConflictId :=
  ⟨groupId, layoutId, baseline.map SaveGroupSnapshot.artifacts, localSnapshot.artifacts,
    remoteSnapshot.artifacts⟩

/-- The id of a recorded conflict. -/
def SaveConflictRecord.conflictId (conflict : SaveConflictRecord) : ConflictId :=
  conflictIdFor conflict.groupId conflict.layoutId conflict.baseline conflict.localSnapshot
    conflict.remoteSnapshot

/-- An allocation-independent logical baseline of a container. -/
structure ContainerBaseline where
  containerId : ContainerId
  adapterId : String
  schemaVersion : ℕ
  formatVariant : String
  /-- Merge domains with their entries: identity, canonical hash and size. -/
  domains : List (String × List (String × String × ℕ))
  tombstones : List String
deriving DecidableEq

abbrev ContainerTable := Table ContainerBaseline ContainerBaseline.containerId

structure SaveReconcileReport where
  revision : String
  timestamp : String
  uploaded : ℕ
  downloaded : ℕ
  conflicts : ℕ
  unchanged : ℕ
  uploadBytes : ℕ
  downloadBytes : ℕ
  conflictPaths : List Path
  scope : String
  bootstrap : Bool
deriving DecidableEq

/-- The durable state of a device. -/
structure SaveSyncState where
  deviceId : String
  /-- Last content known to be identical on both sides. -/
  sharedManifest : Manifest
  lastReconcile : Option SaveReconcileReport
  groups : GroupTable
  conflicts : List SaveConflictRecord
  containerBaselines : ContainerTable
  lastCompletedOperationId : Option String
  quickSyncCursorGeneration : Option ℕ
  quickSyncReady : Bool
deriving DecidableEq

def SaveSyncState.activeConflicts (state : SaveSyncState) : List SaveConflictRecord :=
  state.conflicts.filter (fun conflict => !conflict.resolved)

/-! ### Conflicts -/

/-- The resolution `record_conflict` gives to evidence a new conflict of the group replaces. -/
def SaveConflictRecord.supersede (conflict : SaveConflictRecord) (timestamp : String) :
    SaveConflictRecord :=
  { conflict with
    resolvedAt := conflict.resolvedAt.or (some timestamp)
    resolution := conflict.resolution.or (some .manual)
    resolutionRevision := conflict.resolutionRevision.or (some "superseded") }

/-- `record_conflict`: the current conflict of a group, re-observed or new; earlier unresolved
    evidence of the group is superseded. -/
def recordConflict (state : SaveSyncState) (group : SaveGroupState)
    (localSnapshot remoteSnapshot : SaveGroupSnapshot) (timestamp : String) : SaveSyncState :=
  let conflictId :=
    conflictIdFor group.groupId group.layoutId group.baseline localSnapshot remoteSnapshot
  let conflict :=
    match state.conflicts.find? (fun item => item.conflictId = conflictId && !item.resolved) with
    | some existing =>
      { existing with
        lastSeenAt := timestamp
        baseline := group.baseline
        localSnapshot := localSnapshot
        remoteSnapshot := remoteSnapshot }
    | none =>
      { groupId := group.groupId
        layoutId := group.layoutId
        detectedAt := timestamp
        lastSeenAt := timestamp
        baseline := group.baseline
        localSnapshot := localSnapshot
        remoteSnapshot := remoteSnapshot
        acknowledgedAt := none
        resolvedAt := none
        resolution := none
        resolutionRevision := none }
  let superseded := (state.conflicts.filter (fun item => item.conflictId ≠ conflictId)).map
    (fun item => if item.groupId = group.groupId && !item.resolved then item.supersede timestamp
      else item)
  { state with
    groups := state.groups.put
      { groupId := group.groupId
        layoutId := group.layoutId
        condition := .conflict
        baseline := group.baseline
        localObserved := some localSnapshot
        remoteObserved := some remoteSnapshot
        dirtyPathHints := []
        verifiedAt := none }
    conflicts := superseded ++ [conflict] }

/-- **Rewriting a list where nobody looks.** A rewrite that keeps every member `seen` holds of,
    and makes no other member one of these, is not seen. -/
theorem filter_map_of_unseen {α : Type*} {seen : α → Bool} {f : α → α}
    (hkeep : ∀ a, seen a = true → f a = a) (hout : ∀ a, seen a = false → seen (f a) = false)
    (items : List α) : (items.map f).filter seen = items.filter seen := by
  induction items with
  | nil => rfl
  | cons a items ih =>
    rw [List.map_cons, List.filter_cons, List.filter_cons, ih]
    cases ha : seen a with
    | true => rw [hkeep a ha, ha]
    | false =>
      rw [hout a ha]
      rfl

section RecordConflict

variable (state : SaveSyncState) (group : SaveGroupState)
variable (localSnapshot remoteSnapshot : SaveGroupSnapshot) (timestamp : String)

@[simp] theorem recordConflict_sharedManifest :
    (recordConflict state group localSnapshot remoteSnapshot timestamp).sharedManifest
      = state.sharedManifest := rfl

@[simp] theorem recordConflict_containerBaselines :
    (recordConflict state group localSnapshot remoteSnapshot timestamp).containerBaselines
      = state.containerBaselines := rfl

theorem get?_recordConflict (gid : GroupId) :
    (recordConflict state group localSnapshot remoteSnapshot timestamp).groups.get? gid
      = if gid = group.groupId then
          some
            { groupId := group.groupId
              layoutId := group.layoutId
              condition := .conflict
              baseline := group.baseline
              localObserved := some localSnapshot
              remoteObserved := some remoteSnapshot
              dirtyPathHints := []
              verifiedAt := none }
        else state.groups.get? gid :=
  Table.get?_put ..

/-- A recorded conflict is not seen by anyone who looks at other groups. -/
theorem filter_recordConflict {seen : SaveConflictRecord → Bool}
    (hcongr : ∀ a b : SaveConflictRecord, a.groupId = b.groupId → a.conflictId = b.conflictId →
      seen a = seen b)
    (hother : ∀ item : SaveConflictRecord, item.groupId = group.groupId → seen item = false) :
    (recordConflict state group localSnapshot remoteSnapshot timestamp).conflicts.filter seen
      = state.conflicts.filter seen := by
  unfold recordConflict
  dsimp only
  rw [List.filter_append, filter_map_of_unseen, List.filter_filter, List.filter_cons_of_neg,
    List.filter_nil, List.append_nil]
  · -- evidence with the new conflict's id is evidence of its group
    refine List.filter_congr ?_
    intro item _
    cases hseen : seen item with
    | false => rfl
    | true =>
      rw [Bool.true_and, decide_eq_true_iff]
      intro hid
      have hgroup : item.groupId = group.groupId := congrArg ConflictId.groupId hid
      exact absurd hseen (by simp [hother item hgroup])
  · rw [Bool.not_eq_true]
    refine hother _ ?_
    split
    · next existing hfound =>
      have hid := List.find?_some hfound
      rw [Bool.and_eq_true, decide_eq_true_iff] at hid
      exact congrArg ConflictId.groupId hid.1
    · rfl
  · intro item hseen
    refine if_neg ?_
    intro h
    rw [Bool.and_eq_true, decide_eq_true_iff] at h
    exact absurd hseen (by simp [hother item h.1])
  · intro item hseen
    split
    · rw [← hseen]
      exact hcongr _ _ rfl rfl
    · exact hseen

end RecordConflict

end RomCloud.SaveSync
