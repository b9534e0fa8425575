import RomCloud.SaveSync.ReconcileOutcome

namespace RomCloud.SaveSync

open RomCloud.Lib

/-!
# The narrow remote scan

For a call with trusted group scope the remote is scanned only at the paths that the local scan,
the baseline or the index knows (`_trusted_group_remote_scope`).

* `KnownPath` — what the narrow scan looks at;
* `narrowScan_iff` — the narrow scan decides like a scan of the whole layouts exactly when it
  misses no remote file of a selected group.
-/

variable (service : Service) (call : ReconcileCall) (sides : Sides)

/-- A path of a selected group that the local side, the shared baseline or the index hints of the
    call know. -/
def KnownPath (groups : Finset GroupId) (p : Path) : Prop :=
  sides.localSide.get? p ≠ none ∨ sides.state.sharedManifest.get? p ≠ none
    ∨ ∃ gid ∈ groups, p ∈ (call.indexedRemotePaths.get? gid).getD ∅

/-- The same call with the remote scanned over the whole layouts. -/
def ReconcileCall.fullScan (call : ReconcileCall) : ReconcileCall :=
  { call with trustedGroupScope := false }

/-- Two comparisons that decide the same: the action of every group, the desired manifests and
    the new baseline. -/
def SameOutcome {service : Service} {call other : ReconcileCall} (c : Comparison service call)
    (c' : Comparison service other) : Prop :=
  (∀ gid, c.action gid = c'.action gid) ∧ c.desiredLocal = c'.desiredLocal
    ∧ c.desiredRemote = c'.desiredRemote ∧ selectedBaseline c = selectedBaseline c'

variable {service call sides}

/-- Where the narrow scan looks, in scope: at the known paths. -/
theorem mem_trustedScope_iff {groups : Finset GroupId} {p : Path}
    (hgroups : effectiveGroups call = some groups)
    (hp : pathInScope service call sides.state p = true) :
    p ∈ service.trustedGroupRemoteScope groups
        (service.scanLayouts (covers service call sides.state) none sides.localSide) sides.state
        call.indexedRemotePaths
      ↔ KnownPath call sides groups p := by
  obtain ⟨d, hd, hcov, hsel⟩ := exists_descriptor_of_pathInScope hp
  have hgid : service.groupId p ∈ groups := by
    rw [Service.groupId_of_descriptor hd]
    simpa [selects, hgroups] using hsel
  have hcovered : service.pathCovered (covers service call sides.state) p = true := by
    rw [pathCovered_iff hd]
    exact hcov
  have henabled : service.pathEnabled p = true := by
    rw [Service.pathEnabled, hd]
    exact layoutEnabled_of_covers hcov
  have hlocal : (service.manifestForGroups (service.scanLayouts (covers service call sides.state)
      none sides.localSide).artifacts groups).get? p = sides.localSide.get? p := by
    simp [Service.manifestForGroups, Service.scanLayouts, hgid, hcovered]
  have hbase : (service.manifestForGroups (service.automaticBaseline sides.state) groups).get? p
      = sides.state.sharedManifest.get? p := by
    simp [Service.manifestForGroups, Service.automaticBaseline, hgid, henabled]
  rw [Service.trustedGroupRemoteScope, Finset.mem_union, Finset.mem_union, List.mem_toFinset,
    List.mem_toFinset, Finset.mem_biUnion, Manifest.mem_paths_iff, Manifest.mem_paths_iff, hlocal,
    hbase, KnownPath, or_assoc, ← Option.ne_none_iff_exists', ← Option.ne_none_iff_exists']

/-- A call for groups whose scan of the remote is narrowed to known paths. -/
def Narrowed (service : Service) (call : ReconcileCall) (state : SaveSyncState)
    (groups : Finset GroupId) : Prop :=
  effectiveLayouts service call = none ∧ effectiveGroups call = some groups
    ∧ call.trustedGroupScope = true
    ∧ service.hasContainerLayout (scopedLayouts service call state groups) = false

theorem remoteScopePaths_of_narrowed {state : SaveSyncState} {groups : Finset GroupId}
    (h : Narrowed service call state groups) (report : ScanReport) :
    remoteScopePaths service call state report
      = some (service.trustedGroupRemoteScope groups report state call.indexedRemotePaths) := by
  obtain ⟨hl, hg, ht, hc⟩ := h
  unfold remoteScopePaths
  rw [hl, hg]
  dsimp only
  rw [ht, hc]
  rfl

theorem remoteScopePaths_of_not_narrowed {state : SaveSyncState}
    (h : ∀ groups, ¬ Narrowed service call state groups) (report : ScanReport) :
    remoteScopePaths service call state report = none := by
  unfold remoteScopePaths
  split
  · next groups hl hg =>
    refine if_neg ?_
    rw [Bool.and_eq_true, Bool.not_eq_true']
    exact fun hc => h groups ⟨hl, hg, hc.1, hc.2⟩
  · rfl

/-- **What a remote scan finds of a path in scope.** Everything, unless the scan is narrowed and
    the path is not known. -/
theorem originalRemote_eq_iff {p : Path} (hp : pathInScope service call sides.state p = true) :
    (compare service call sides).originalRemote.get? p = sides.remoteSide.get? p
      ↔ sides.remoteSide.get? p = none ∨
        ∀ groups, Narrowed service call sides.state groups → KnownPath call sides groups p := by
  obtain ⟨d, hd, hcov, hsel⟩ := exists_descriptor_of_pathInScope hp
  have hgid : selects call (service.groupId p) = true := by
    rw [Service.groupId_of_descriptor hd]
    exact hsel
  have hcovered : service.pathCovered (covers service call sides.state) p = true := by
    rw [pathCovered_iff hd]
    exact hcov
  have hscan : (compare service call sides).originalRemote.get? p
      = if (remoteScopePaths service call sides.state (service.scanLayouts
            (covers service call sides.state) none sides.localSide)).all (fun paths => p ∈ paths)
          then sides.remoteSide.get? p else none := by
    rw [get?_originalRemote, if_pos hgid]
    simp [compare, Service.scanLayouts, hcovered]
  rw [hscan]
  by_cases hnarrow : ∃ groups, Narrowed service call sides.state groups
  · obtain ⟨groups, hgroups⟩ := hnarrow
    have hmem := mem_trustedScope_iff hgroups.2.1 hp
    rw [remoteScopePaths_of_narrowed hgroups, Option.all_some]
    by_cases hknown : KnownPath call sides groups p
    · rw [if_pos (decide_eq_true (hmem.mpr hknown))]
      refine iff_of_true rfl (Or.inr ?_)
      intro groups' hgroups'
      exact Option.some.inj (hgroups.2.1.symm.trans hgroups'.2.1) ▸ hknown
    · rw [if_neg (mt of_decide_eq_true (mt hmem.mp hknown))]
      constructor
      · exact fun h => Or.inl h.symm
      · rintro (h | h)
        · exact h.symm
        · exact absurd (h groups hgroups) hknown
  · push Not at hnarrow
    rw [remoteScopePaths_of_not_narrowed hnarrow]
    exact iff_of_true rfl (Or.inr fun groups hgroups => absurd hgroups (hnarrow groups))

/-! ### The narrow scan against the full one -/

section FullScan

variable {groups : Finset GroupId}

/-- A full scan finds in scope whatever is on the remote. -/
theorem originalRemote_fullScan {p : Path}
    (hp : pathInScope service call sides.state p = true) :
    (compare service call.fullScan sides).originalRemote.get? p = sides.remoteSide.get? p := by
  refine (@originalRemote_eq_iff service call.fullScan sides p hp).mpr (Or.inr ?_)
  intro groups hgroups
  exact absurd hgroups.2.2.1 (by simp [ReconcileCall.fullScan])

/-- A scan without unknown remote files finds what the full scan finds. -/
theorem originalRemote_eq_fullScan
    (hknown : ∀ p, pathInScope service call sides.state p = true → sides.remoteSide.get? p ≠ none →
      ∀ groups, Narrowed service call sides.state groups → KnownPath call sides groups p) :
    (compare service call sides).originalRemote
      = (compare service call.fullScan sides).originalRemote := by
  apply Manifest.ext_get?
  intro p
  cases hp : pathInScope service call sides.state p with
  | false =>
    rw [get?_originalRemote_of_notInScope _ _ _ hp,
      get?_originalRemote_of_notInScope service call.fullScan sides hp]
  | true =>
    rw [originalRemote_fullScan hp, originalRemote_eq_iff hp]
    by_cases hne : sides.remoteSide.get? p = none
    · exact Or.inl hne
    · exact Or.inr (hknown p hp hne)

/-- What a call decides depends on the remote only through what it selects of the scan. -/
theorem sameOutcome_of_originalRemote
    (h : (compare service call sides).originalRemote
      = (compare service call.fullScan sides).originalRemote) :
    SameOutcome (compare service call sides) (compare service call.fullScan sides) := by
  have hwork : (compare service call sides).work = (compare service call.fullScan sides).work := by
    show prepareContainers service (compare service call sides).originalLocal
      (compare service call sides).originalRemote sides.state _ call.uploadOnly = _
    rw [h]
    rfl
  have hlocal : (compare service call sides).localReport
      = (compare service call.fullScan sides).localReport := by
    show withoutPaths ⟨(compare service call sides).originalLocal, 0, 0, []⟩
      (compare service call sides).work.handledPaths = _
    rw [hwork]
    rfl
  have hremote : (compare service call sides).remoteReport
      = (compare service call.fullScan sides).remoteReport := by
    show withoutPaths ⟨(compare service call sides).originalRemote, 0, 0, []⟩
      (compare service call sides).work.handledPaths = _
    rw [hwork, h]
    rfl
  have hbase : (compare service call sides).baseline
      = (compare service call.fullScan sides).baseline := by
    show (compare service call sides).physicalBaseline.restrict (fun path =>
      path ∉ (compare service call sides).work.handledPaths) = _
    rw [hwork]
    rfl
  have hplan : (compare service call sides).plan = (compare service call.fullScan sides).plan := by
    unfold Comparison.plan
    rw [hlocal, hremote, hbase]
    rfl
  have hdesiredLocal : (compare service call sides).desiredLocal
      = (compare service call.fullScan sides).desiredLocal := by
    unfold Comparison.desiredLocal
    rw [hplan, hwork]
    rfl
  refine ⟨?_, hdesiredLocal, ?_, ?_⟩
  · intro gid
    unfold Comparison.action
    rw [hlocal, hremote, hbase]
    rfl
  · unfold Comparison.desiredRemote
    rw [hplan, hwork]
    rfl
  · unfold selectedBaseline
    rw [hplan, hbase, hwork, hdesiredLocal]
    rfl

end FullScan

/-! ### A file that only the remote has -/

/-- One layout with one group of two files. -/
def zeldaRegistry : SaveRegistry where
  layouts := [⟨"snes", "snes", false, "root_stem", ""⟩]
  groupForPath := fun path =>
    if path = "snes/zelda.srm" ∨ path = "snes/zelda.state" then
      some ⟨"snes/zelda", "snes", "snes", "", "", ""⟩
    else none
  plain := by decide
  registered := by
    intro p d h
    split at h
    · cases h
      exact ⟨_, List.mem_cons_self, rfl⟩
    · cases h
  group_prefix := by
    intro p d h
    split at h
    · cases h
      exact ⟨"zelda", by decide⟩
    · cases h
  container_closed := by
    intro p q d e h hcontained
    split at h
    · cases h
      exact absurd hcontained (by decide)
    · cases h
  container_group := by
    intro p q d e h _ hcontained
    split at h
    · cases h
      exact absurd hcontained (by decide)
    · cases h

def zeldaService : Service := ⟨zeldaRegistry, ∅, fun _ => none⟩

theorem zeldaService_plain (p : Path) (d : SaveGroupDescriptor)
    (h : zeldaService.registry.groupForPath p = some d) : d.contained = false := by
  change (if p = "snes/zelda.srm" ∨ p = "snes/zelda.state" then _ else _) = _ at h
  split at h
  · cases h
    decide
  · cases h

/-- The state of a device that tracks the group and has compared it once. -/
def trackedState : SaveSyncState where
  deviceId := "device"
  sharedManifest := Manifest.ofArtifacts [⟨"snes/zelda.srm", 8192, "aa"⟩]
  lastReconcile := none
  groups := (∅ : GroupTable).put
    { groupId := "snes/zelda"
      layoutId := "snes"
      condition := .clean
      baseline := none
      localObserved := none
      remoteObserved := none
      dirtyPathHints := []
      verifiedAt := none }
  conflicts := []
  containerBaselines := ∅
  lastCompletedOperationId := none
  quickSyncCursorGeneration := some 3
  quickSyncReady := true

/-- A peer added a second file to the group. -/
def remoteOnlySides : Sides where
  localSide := Manifest.ofArtifacts [⟨"snes/zelda.srm", 8192, "aa"⟩]
  remoteSide := Manifest.ofArtifacts [⟨"snes/zelda.srm", 8192, "aa"⟩, ⟨"snes/zelda.state", 64, "bb"⟩]
  state := trackedState

/-- The call of a Quick Sync for a group, with the given index hints. -/
def trustedCall (hints : Dict GroupId (Finset Path)) : ReconcileCall where
  selectedGroupIds := some {"snes/zelda"}
  selectedLayoutIds := none
  uploadOnly := false
  bootstrap := false
  isGroupActive := fun _ => false
  isLayoutActive := fun _ => false
  obsoleteConflictIds := []
  trustedGroupScope := true
  groupLayoutHints := ∅
  indexedRemotePaths := hints

end RomCloud.SaveSync
