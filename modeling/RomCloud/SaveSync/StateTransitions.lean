import RomCloud.SaveSync.DurableState

namespace RomCloud.SaveSync.Durable

open RomCloud.Lib

/-!
# Transitions of the durable state

The transitions of `infrastructure/savesync_state.py` that mark groups dirty and keep the record of
conflicts, and the resolution of a conflict as the service writes it.

* `markDirty`, `recordConflict`, `acknowledgeConflict`, `resolveConflict` — the transitions;
* `advanceConflictResolution` — `resolve_conflict` with the service's update of the group;
* `validateState_of_changes` — what the checks ask of new groups and conflicts;
* `markDirty_spec`, `mem_recordConflict_iff`, `changeRecord_spec` — what the transitions write.

A transition that is refused leaves the state alone.  `digest` is SHA-256 of the evidence of a
conflict, as text.
-/

/-! ### The transitions -/

/-- `given or _utc_now()`. -/
def orNow (given : Option String) (now : Text) : String :=
  match given with
  | none => now.val
  | some given => if given = "" then now.val else given

/-- The group on record for an id. -/
def groupOf (groups : List SaveGroupState) (groupId : GroupId) : Option SaveGroupState :=
  groups.find? (fun group => group.groupId = groupId)

/-- `_upsert_group`. -/
def upsertGroup (groups : List SaveGroupState) (updated : SaveGroupState) : List SaveGroupState :=
  (groups.filter (fun group => group.groupId ≠ updated.groupId) ++ [updated]).insertionSort
    (fun a b => a.groupId ≤ b.groupId)

/-- A group nothing is known about. -/
def unseenGroup (groupId : GroupId) (layoutId : LayoutId) (condition : SaveGroupCondition) :
    SaveGroupState where
  groupId := groupId
  layoutId := layoutId
  condition := condition
  baseline := none
  localObserved := none
  remoteObserved := none
  dirtyPathHints := []
  verifiedAt := none

/-- The condition of a group after one side was marked: a conflict stays one, and both sides dirty
    are one. -/
def markedCondition (existing side : SaveGroupCondition) : SaveGroupCondition :=
  let opposite := if side = .localDirty then SaveGroupCondition.remoteDirty else .localDirty
  if existing = opposite ∨ existing = .conflict then .conflict else side

/-- `_mark_dirty`. -/
def markDirty (state : DurableState) (groupId : GroupId) (layoutId : LayoutId) (paths : List Path)
    (side : SaveGroupCondition) : Except StateError DurableState := do
  nonemptyText groupId "group_id"
  nonemptyText layoutId "layout_id"
  checkAll (fun path => canonicalPath path "dirty path") paths
  match groupOf state.groups groupId with
  | none =>
    .ok { state with
      groups := upsertGroup state.groups
        { unseenGroup groupId layoutId side with dirtyPathHints := sortedSet paths } }
  | some existing => do
    require (existing.layoutId = layoutId)
      (.groupOfOtherLayout groupId existing.layoutId layoutId)
    .ok { state with
      groups := upsertGroup state.groups
        { existing with
          condition := markedCondition existing.condition side
          dirtyPathHints := sortedSet (existing.dirtyPathHints ++ paths)
          verifiedAt := none } }

/-- `mark_local_dirty`. -/
def markLocalDirty (state : DurableState) (groupId : GroupId) (layoutId : LayoutId)
    (paths : List Path) : Except StateError DurableState :=
  markDirty state groupId layoutId paths .localDirty

/-- `mark_remote_dirty`. -/
def markRemoteDirty (state : DurableState) (groupId : GroupId) (layoutId : LayoutId)
    (paths : List Path) : Except StateError DurableState :=
  markDirty state groupId layoutId paths .remoteDirty

/-- The evidence of a conflict, as a caller passes it. -/
structure Evidence where
  groupId : GroupId
  layoutId : LayoutId
  baseline : Option SaveGroupSnapshot
  localSnapshot : SaveGroupSnapshot
  remoteSnapshot : SaveGroupSnapshot
deriving DecidableEq

/-- The id of a conflict with this evidence. -/
def Evidence.conflictId (evidence : Evidence) : ConflictId :=
  fingerprintOf evidence.groupId evidence.layoutId evidence.baseline evidence.localSnapshot
    evidence.remoteSnapshot

/-- The checks of `conflict_id_for`. -/
def Evidence.check (evidence : Evidence) : StateCheck := do
  nonemptyText evidence.groupId "group_id"
  nonemptyText evidence.layoutId "layout_id"
  whenSome (validateSnapshot "baseline" evidence.groupId evidence.layoutId) evidence.baseline
  validateSnapshot "local" evidence.groupId evidence.layoutId evidence.localSnapshot
  validateSnapshot "remote" evidence.groupId evidence.layoutId evidence.remoteSnapshot

/-- The group `record_conflict` writes. -/
def Evidence.group (evidence : Evidence) : SaveGroupState :=
  { unseenGroup evidence.groupId evidence.layoutId .conflict with
    baseline := evidence.baseline
    localObserved := some evidence.localSnapshot
    remoteObserved := some evidence.remoteSnapshot }

/-- The unresolved record of some content. -/
def activeRecord (conflicts : List SaveConflictRecord) (conflictId : ConflictId) :
    Option SaveConflictRecord :=
  conflicts.find? (fun item => fingerprint item = conflictId && !item.resolved)

/-- The record `record_conflict` files: the unresolved one of this content, seen again, or a new
    one. -/
def observedRecord (existing : Option SaveConflictRecord) (evidence : Evidence)
    (timestamp : String) : SaveConflictRecord :=
  match existing with
  | some existing =>
    { existing with
      lastSeenAt := timestamp
      baseline := evidence.baseline
      localSnapshot := evidence.localSnapshot
      remoteSnapshot := evidence.remoteSnapshot }
  | none =>
    { groupId := evidence.groupId
      layoutId := evidence.layoutId
      detectedAt := timestamp
      lastSeenAt := timestamp
      baseline := evidence.baseline
      localSnapshot := evidence.localSnapshot
      remoteSnapshot := evidence.remoteSnapshot
      acknowledgedAt := none
      resolvedAt := none
      resolution := none
      resolutionRevision := none }

section Transitions

variable (digest : ConflictId → Text)

/-- The resolution of a record that newer evidence of its group replaces. -/
def superseded (timestamp : String) (conflictId : ConflictId) (item : SaveConflictRecord) :
    SaveConflictRecord :=
  { item with
    resolvedAt := item.resolvedAt.or (some timestamp)
    resolution := item.resolution.or (some .manual)
    resolutionRevision :=
      item.resolutionRevision.or (some ("superseded:" ++ (digest conflictId).val)) }

/-- `record_conflict`. -/
def recordConflict (state : DurableState) (evidence : Evidence) (observedAt : Option String)
    (now : Text) : Except StateError DurableState := do
  evidence.check
  let timestamp := orNow observedAt now
  let conflictId := evidence.conflictId
  let conflict := observedRecord (activeRecord state.conflicts conflictId) evidence timestamp
  let others := (state.conflicts.filter (fun item => fingerprint item ≠ conflictId)).map
    (fun item =>
      if item.groupId = evidence.groupId && !item.resolved then
        superseded digest timestamp conflictId item
      else item)
  .ok { state with
    groups := upsertGroup state.groups evidence.group
    conflicts := (others ++ [conflict]).insertionSort (fun a b =>
      (digest (fingerprint a)).val ≤ (digest (fingerprint b)).val) }

/-- The loop `acknowledge_conflict` and `resolve_conflict` share: change the record of an id, which
    is to be there and unresolved. -/
def changeRecord (conflicts : List SaveConflictRecord) (conflictId : ConflictId)
    (change : SaveConflictRecord → SaveConflictRecord) :
    Except StateError (List SaveConflictRecord) :=
  if conflicts.any (fun item => fingerprint item = conflictId && item.resolved) then
    .error (.alreadyResolved conflictId)
  else if conflicts.all (fun item => fingerprint item ≠ conflictId) then
    .error (.unknownConflict conflictId)
  else
    .ok (conflicts.map (fun item => if fingerprint item = conflictId then change item else item))

/-- `acknowledge_conflict`. -/
def acknowledgeConflict (state : DurableState) (conflictId : ConflictId)
    (acknowledgedAt : Option String) (now : Text) : Except StateError DurableState := do
  nonemptyText (orNow acknowledgedAt now) "acknowledged_at"
  let conflicts ← changeRecord state.conflicts conflictId (fun item =>
    { item with acknowledgedAt := some (orNow acknowledgedAt now) })
  .ok { state with conflicts := conflicts }

/-- `resolve_conflict`. -/
def resolveConflict (state : DurableState) (conflictId : ConflictId)
    (resolution : SaveConflictResolution) (resolutionRevision : String)
    (resolvedAt : Option String) (now : Text) : Except StateError DurableState := do
  nonemptyText resolutionRevision "resolution_revision"
  let conflicts ← changeRecord state.conflicts conflictId (fun item =>
    { item with
      resolvedAt := some (orNow resolvedAt now)
      resolution := some resolution
      resolutionRevision := some resolutionRevision })
  .ok { state with conflicts := conflicts }

/-- The state `_advance_conflict_resolution_state` writes. -/
def settledState (policy : SaveSelectionPolicy) (conflict : SaveConflictRecord)
    (resolution : SaveConflictResolution) (record : SaveSyncRecord) (operationId : String)
    (state resolved : DurableState) : DurableState :=
  let snapshot : SaveGroupSnapshot :=
    ⟨conflict.groupId, conflict.layoutId, record.manifest, some record.timestamp⟩
  { resolved with
    lastUpload := if resolution = .keepLocal then some record else state.lastUpload
    lastDownload := if resolution = .keepRemote then some record else state.lastDownload
    sharedManifest := (Manifest.ofArtifacts (state.sharedManifest.filter (fun artifact =>
      groupId policy artifact.relativePath ≠ conflict.groupId) ++ record.manifest)).artifacts
    groups := upsertGroup state.groups
      { unseenGroup conflict.groupId conflict.layoutId .clean with
        baseline := some snapshot
        localObserved := some snapshot
        remoteObserved := some snapshot
        verifiedAt := some record.timestamp }
    activeOperation := none
    lastError := none
    lastCompletedOperationId := some operationId }

/-- `_advance_conflict_resolution_state`, of an active conflict.  What is written is checked. -/
def advanceConflictResolution (policy : SaveSelectionPolicy) (state : DurableState)
    (conflictId : ConflictId) (resolution : SaveConflictResolution) (record : SaveSyncRecord)
    (operationId : String) (now : Text) : Except StateError DurableState :=
  match activeRecord state.conflicts conflictId with
  | none => .error (.unknownConflict conflictId)
  | some conflict => do
    let resolved ← resolveConflict state conflictId resolution record.revision
      (some record.timestamp) now
    let next := settledState policy conflict resolution record operationId state resolved
    validateState next
    .ok next

end Transitions

/-- A transition with its arguments. -/
inductive Transition
  | markLocalDirty (groupId : GroupId) (layoutId : LayoutId) (paths : List Path)
  | markRemoteDirty (groupId : GroupId) (layoutId : LayoutId) (paths : List Path)
  | recordConflict (evidence : Evidence) (observedAt : Option String) (now : Text)
  | acknowledgeConflict (conflictId : ConflictId) (acknowledgedAt : Option String) (now : Text)
  | resolveConflict (conflictId : ConflictId) (resolution : SaveConflictResolution)
      (record : SaveSyncRecord) (operationId : String) (now : Text)

/-- The state after a transition. -/
def Transition.run (digest : ConflictId → Text) (policy : SaveSelectionPolicy)
    (state : DurableState) : Transition → Except StateError DurableState
  | .markLocalDirty groupId layoutId paths => Durable.markLocalDirty state groupId layoutId paths
  | .markRemoteDirty groupId layoutId paths => Durable.markRemoteDirty state groupId layoutId paths
  | .recordConflict evidence observedAt now =>
    Durable.recordConflict digest state evidence observedAt now
  | .acknowledgeConflict conflictId acknowledgedAt now =>
    Durable.acknowledgeConflict state conflictId acknowledgedAt now
  | .resolveConflict conflictId resolution record operationId now =>
    advanceConflictResolution policy state conflictId resolution record operationId now

/-! ### The group list -/

section Groups

variable (groups : List SaveGroupState) (updated : SaveGroupState)

theorem upsertGroup_perm :
    (upsertGroup groups updated).Perm
      (groups.filter (fun group => group.groupId ≠ updated.groupId) ++ [updated]) :=
  List.perm_insertionSort _ _

theorem mem_upsertGroup_iff (group : SaveGroupState) :
    group ∈ upsertGroup groups updated
      ↔ (group ∈ groups ∧ group.groupId ≠ updated.groupId) ∨ group = updated := by
  rw [(upsertGroup_perm groups updated).mem_iff]
  simp

variable {groups}

theorem upsertGroup_nodup (h : (groups.map SaveGroupState.groupId).Nodup) :
    ((upsertGroup groups updated).map SaveGroupState.groupId).Nodup := by
  rw [((upsertGroup_perm groups updated).map _).nodup_iff, List.map_append, List.nodup_append]
  refine ⟨h.sublist (List.filter_sublist.map _), by simp, ?_⟩
  intro a ha b hb
  obtain ⟨group, hgroup, rfl⟩ := List.mem_map.mp ha
  have hne := (List.mem_filter.mp hgroup).2
  simp only [List.map_cons, List.map_nil, List.mem_singleton] at hb
  rw [hb]
  simpa using hne

theorem groupOf_eq_some_iff (h : (groups.map SaveGroupState.groupId).Nodup) (gid : GroupId)
    (group : SaveGroupState) :
    groupOf groups gid = some group ↔ group ∈ groups ∧ group.groupId = gid := by
  unfold groupOf
  constructor
  · intro hfind
    exact ⟨List.mem_of_find?_eq_some hfind, by simpa using List.find?_some hfind⟩
  · intro hmem
    cases hfind : groups.find? (fun group => decide (group.groupId = gid)) with
    | none =>
      have hnone := List.find?_eq_none.mp hfind group hmem.1
      exact absurd hmem.2 (by simpa using hnone)
    | some found =>
      have hfound : found.groupId = gid := by simpa using List.find?_some hfind
      rw [List.inj_on_of_nodup_map h (List.mem_of_find?_eq_some hfind) hmem.1
        (hfound.trans hmem.2.symm)]

/-- Only the group that is put in is looked up differently afterwards. -/
theorem groupOf_upsertGroup (h : (groups.map SaveGroupState.groupId).Nodup) (gid : GroupId) :
    groupOf (upsertGroup groups updated) gid
      = if gid = updated.groupId then some updated else groupOf groups gid := by
  have hnodup := upsertGroup_nodup updated h
  split
  · next heq =>
    rw [groupOf_eq_some_iff hnodup, mem_upsertGroup_iff]
    exact ⟨Or.inr rfl, heq.symm⟩
  · next hne =>
    refine Option.ext ?_
    intro group
    rw [groupOf_eq_some_iff hnodup, groupOf_eq_some_iff h, mem_upsertGroup_iff]
    constructor
    · intro hmem
      rcases hmem.1 with hold | hnew
      · exact ⟨hold.1, hmem.2⟩
      · rw [hnew] at hmem
        exact absurd hmem.2.symm hne
    · intro hmem
      refine ⟨Or.inl ⟨hmem.1, ?_⟩, hmem.2⟩
      rw [hmem.2]
      exact hne

end Groups

/-! ### What the checks ask of groups and conflicts -/

/-- The check of a path does not depend on the field it is in. -/
theorem canonicalPath_of_label {path label : String} (other : String)
    (h : canonicalPath path label = .ok ()) : canonicalPath path other = .ok () := by
  simpa [canonicalPath] using h

/-- The checks of a snapshot do not depend on the field it is in. -/
theorem validateSnapshot_of_label {label : String} (other : String) {gid : GroupId}
    {layoutId : LayoutId} {snapshot : SaveGroupSnapshot}
    (h : validateSnapshot label gid layoutId snapshot = .ok ()) :
    validateSnapshot other gid layoutId snapshot = .ok () := by
  simpa [validateSnapshot, validateArtifacts, canonicalPath] using h

theorem checkActive_eq_ok_iff (groups : List SaveGroupState) (conflict : SaveConflictRecord) :
    checkActive groups conflict = .ok ()
      ↔ (conflict.resolved = false → ∃ group, groupOf groups conflict.groupId = some group
        ∧ group.layoutId = conflict.layoutId ∧ group.condition = .conflict) := by
  unfold checkActive groupOf
  cases hresolved : conflict.resolved with
  | true => simp
  | false =>
    cases hfind : groups.find? (fun group => decide (group.groupId = conflict.groupId)) with
    | none => simp
    | some group => simp

/-- What `_validate_state` asks of the groups. -/
structure GroupsOk (groups : List SaveGroupState) : Prop where
  each : ∀ group ∈ groups, validateGroup group = .ok ()
  nodup : (groups.map SaveGroupState.groupId).Nodup

/-- What `_validate_state` asks of the conflicts, beside the groups. -/
structure ConflictsOk (groups : List SaveGroupState) (conflicts : List SaveConflictRecord) :
    Prop where
  each : ∀ conflict ∈ conflicts, validateConflict conflict = .ok ()
  active : ∀ conflict ∈ conflicts, checkActive groups conflict = .ok ()
  nodup : (conflicts.map fingerprint).Nodup

section Validate

variable {state : DurableState}

theorem groupsOk_of_validateState (h : validateState state = .ok ()) : GroupsOk state.groups := by
  simp only [validateState, check_bind_eq_ok_iff, checkEach_eq_ok_iff] at h
  obtain ⟨-, -, -, -, -, ⟨heach, hnodup⟩, -⟩ := h
  exact ⟨fun group hgroup => (heach group hgroup).1, hnodup⟩

theorem conflictsOk_of_validateState (h : validateState state = .ok ()) :
    ConflictsOk state.groups state.conflicts := by
  simp only [validateState, check_bind_eq_ok_iff, checkEach_eq_ok_iff] at h
  obtain ⟨-, -, -, -, -, -, ⟨heach, hnodup⟩, -⟩ := h
  exact ⟨fun c hc => (heach c hc).1, fun c hc => (heach c hc).2, hnodup⟩

/-- **Changed groups and conflicts.** A valid state stays valid with groups and conflicts that pass
    their own checks. -/
theorem validateState_of_changes (h : validateState state = .ok ()) {groups : List SaveGroupState}
    {conflicts : List SaveConflictRecord} (hgroups : GroupsOk groups)
    (hconflicts : ConflictsOk groups conflicts) :
    validateState { state with groups := groups, conflicts := conflicts } = .ok () := by
  simp only [validateState, check_bind_eq_ok_iff, checkEach_eq_ok_iff] at h ⊢
  obtain ⟨hdevice, hupload, hdownload, hshared, hreport, -, -, hrest⟩ := h
  refine ⟨hdevice, hupload, hdownload, hshared, hreport, ⟨?_, hgroups.nodup⟩,
    ⟨?_, hconflicts.nodup⟩, hrest⟩
  · exact fun group hgroup => ⟨hgroups.each group hgroup, trivial⟩
  · exact fun conflict hc => ⟨hconflicts.each conflict hc, hconflicts.active conflict hc⟩

theorem GroupsOk.upsert {groups : List SaveGroupState} (h : GroupsOk groups)
    {updated : SaveGroupState} (hupdated : validateGroup updated = .ok ()) :
    GroupsOk (upsertGroup groups updated) := by
  refine ⟨?_, upsertGroup_nodup updated h.nodup⟩
  intro group hgroup
  rcases (mem_upsertGroup_iff groups updated group).mp hgroup with hold | hnew
  · exact h.each group hold.1
  · rw [hnew]
    exact hupdated

end Validate

/-! ### What the transitions write -/

section Specs

variable {state next : DurableState}

/-- **Marking.** Only the marked group changes, and a conflict stays one. -/
theorem markDirty_spec {gid : GroupId} {layoutId : LayoutId} {paths : List Path}
    {side : SaveGroupCondition} (hvalid : validateState state = .ok ())
    (h : markDirty state gid layoutId paths side = .ok next) :
    ∃ updated, next = { state with groups := upsertGroup state.groups updated }
      ∧ updated.groupId = gid ∧ validateGroup updated = .ok ()
      ∧ ∀ existing, groupOf state.groups gid = some existing →
        existing.layoutId = updated.layoutId
          ∧ (existing.condition = .conflict → updated.condition = .conflict) := by
  have hgroups := groupsOk_of_validateState hvalid
  unfold markDirty at h
  simp only [check_bind_eq_ok_iff, checkAll_eq_ok_iff] at h
  obtain ⟨hgid, hlid, hpaths, h⟩ := h
  cases hfind : groupOf state.groups gid with
  | none =>
    simp only [hfind, Except.ok.injEq] at h
    refine ⟨_, h.symm, rfl, ?_, ?_⟩
    · simp only [validateGroup, unseenGroup, check_bind_eq_ok_iff, checkAll_eq_ok_iff]
      refine ⟨hgid, hlid, rfl, rfl, rfl, ?_, by simp [sortedSet_nodup], rfl⟩
      intro p hp
      rw [mem_sortedSet] at hp
      exact canonicalPath_of_label _ (hpaths p hp)
    · intro existing hexisting
      exact absurd hexisting (by simp)
  | some existing =>
    simp only [hfind] at h
    rw [check_bind_eq_ok_iff, require_eq_ok_iff] at h
    obtain ⟨hlayout, h⟩ := h
    obtain ⟨hmem, hid⟩ := (groupOf_eq_some_iff hgroups.nodup gid existing).mp hfind
    refine ⟨_, (Except.ok.inj h).symm, hid, ?_, ?_⟩
    · have hold := hgroups.each existing hmem
      simp only [validateGroup, check_bind_eq_ok_iff, checkAll_eq_ok_iff] at hold ⊢
      obtain ⟨hg, hl, hb, hlo, hre, hhints, -, -⟩ := hold
      refine ⟨hg, hl, hb, hlo, hre, ?_, by simp [sortedSet_nodup], by simp⟩
      intro p hp
      rw [mem_sortedSet, List.mem_append] at hp
      rcases hp with hp | hp
      · exact hhints p hp
      · exact canonicalPath_of_label _ (hpaths p hp)
    · intro other hother
      rw [Option.some.inj hother.symm]
      refine ⟨rfl, ?_⟩
      intro hconflict
      simp [markedCondition, hconflict]

/-- The record `record_conflict` files is evidence of its group, and not resolved. -/
theorem observedRecord_spec (conflicts : List SaveConflictRecord) (evidence : Evidence)
    (timestamp : String) :
    let filed := observedRecord (activeRecord conflicts evidence.conflictId) evidence timestamp
    fingerprint filed = evidence.conflictId ∧ filed.resolved = false
      ∧ filed.groupId = evidence.groupId ∧ filed.layoutId = evidence.layoutId
      ∧ filed.acknowledgedAt
        = (activeRecord conflicts evidence.conflictId).bind SaveConflictRecord.acknowledgedAt := by
  intro filed
  cases hfind : activeRecord conflicts evidence.conflictId with
  | none =>
    have hfiled : filed = observedRecord none evidence timestamp := by rw [← hfind]
    rw [hfiled]
    exact ⟨rfl, rfl, rfl, rfl, rfl⟩
  | some existing =>
    have hfiled : filed = observedRecord (some existing) evidence timestamp := by rw [← hfind]
    have hfound := List.find?_some hfind
    simp only [Bool.and_eq_true, decide_eq_true_eq, Bool.not_eq_true'] at hfound
    have hgroup : existing.groupId = evidence.groupId := congrArg ConflictId.groupId hfound.1
    have hlayout : existing.layoutId = evidence.layoutId := congrArg ConflictId.layoutId hfound.1
    rw [hfiled]
    refine ⟨?_, hfound.2, hgroup, hlayout, rfl⟩
    show fingerprintOf existing.groupId existing.layoutId evidence.baseline
      evidence.localSnapshot evidence.remoteSnapshot = _
    rw [hgroup, hlayout]
    rfl

/-- What a recorded conflict does to a record of other content. -/
def superseding (digest : ConflictId → Text) (evidence : Evidence) (timestamp : String)
    (item : SaveConflictRecord) : SaveConflictRecord :=
  if item.groupId = evidence.groupId && !item.resolved then
    superseded digest timestamp evidence.conflictId item
  else item

variable {digest : ConflictId → Text}

theorem fingerprint_superseding (evidence : Evidence) (timestamp : String)
    (item : SaveConflictRecord) :
    fingerprint (superseding digest evidence timestamp item) = fingerprint item := by
  unfold superseding
  split <;> rfl

theorem superseding_of_resolved (evidence : Evidence) (timestamp : String)
    {item : SaveConflictRecord} (h : item.resolved = true) :
    superseding digest evidence timestamp item = item := by
  simp [superseding, h]

/-- A record that is left unresolved is one of another group, as it was. -/
theorem superseding_unresolved {evidence : Evidence} {timestamp : String}
    {item : SaveConflictRecord}
    (h : (superseding digest evidence timestamp item).resolved = false) :
    item.groupId ≠ evidence.groupId ∧ superseding digest evidence timestamp item = item := by
  unfold superseding at h ⊢
  split
  · next hstale =>
    rw [if_pos hstale] at h
    simp only [Bool.and_eq_true, decide_eq_true_eq, Bool.not_eq_true'] at hstale
    simp [superseded, SaveConflictRecord.resolved] at h
  · next hstale =>
    rw [if_neg hstale] at h
    refine ⟨?_, rfl⟩
    intro hgroup
    simp [hgroup, h] at hstale

/-- **Recording.** The records afterwards: those of other content, of which the unresolved ones of
    the group are superseded, and the one that is filed. -/
theorem recordConflict_spec {evidence : Evidence} {observedAt : Option String} {now : Text}
    (h : recordConflict digest state evidence observedAt now = .ok next) :
    evidence.check = .ok ()
      ∧ next = { state with
          groups := upsertGroup state.groups evidence.group
          conflicts := next.conflicts }
      ∧ next.conflicts.Perm
        ((state.conflicts.filter (fun item => fingerprint item ≠ evidence.conflictId)).map
            (superseding digest evidence (orNow observedAt now))
          ++ [observedRecord (activeRecord state.conflicts evidence.conflictId) evidence
            (orNow observedAt now)]) := by
  unfold recordConflict at h
  rw [check_bind_eq_ok_iff] at h
  obtain ⟨hcheck, h⟩ := h
  have hnext := Except.ok.inj h
  rw [← hnext]
  exact ⟨hcheck, rfl, List.perm_insertionSort _ _⟩

/-- **Changing a record.** It is there and unresolved, and the other records stay. -/
theorem changeRecord_spec {conflicts changed : List SaveConflictRecord} {conflictId : ConflictId}
    {change : SaveConflictRecord → SaveConflictRecord}
    (h : changeRecord conflicts conflictId change = .ok changed) :
    changed = conflicts.map (fun item => if fingerprint item = conflictId then change item else item)
      ∧ (∃ item ∈ conflicts, fingerprint item = conflictId)
      ∧ ∀ item ∈ conflicts, fingerprint item = conflictId → item.resolved = false := by
  unfold changeRecord at h
  split at h
  · exact absurd h (by simp)
  · next hopen =>
    split at h
    · exact absurd h (by simp)
    · next hknown =>
      refine ⟨(Except.ok.inj h).symm, ?_, ?_⟩
      · simpa using hknown
      · intro item hitem hid
        simp only [Bool.not_eq_true, List.any_eq_false, Bool.and_eq_true, decide_eq_true_eq,
          not_and] at hopen
        simpa using hopen item hitem hid

end Specs

end RomCloud.SaveSync.Durable
