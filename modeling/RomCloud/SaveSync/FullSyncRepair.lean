import RomCloud.SaveSync.BaselineFreshness
import RomCloud.SaveSync.IndexTruth
import RomCloud.SaveSync.Operation

namespace RomCloud.SaveSync.Commit

open RomCloud.Lib RomCloud.SaveSync.Index

/-!
# Full Syncs on a damaged dataset

A Full Sync reconciles all enabled layouts, and then publishes the authoritative index.  On a
damaged dataset the reconciliation may not write to the remote, and the publication may meet shard
files of an earlier index under the names it needs.

* `fullSync` — the operation;
* `damaged`, `Repaired` — the dataset before and after;
* `trackedAfter` — the groups a device tracks once all layouts were compared;
* `Repairable` — nothing is to be uploaded, and the publication finds its shard files free;
* `repairs_iff` — a Full Sync that nothing disturbs repairs a damaged dataset exactly when it is
  repairable.
-/

/-! ### The operation -/

/-- The call of `reconcile`. -/
def fullCall (bootstrap : Bool) : ReconcileCall where
  selectedGroupIds := none
  selectedLayoutIds := none
  uploadOnly := false
  bootstrap := bootstrap
  isGroupActive := fun _ => false
  isLayoutActive := fun _ => false
  obsoleteConflictIds := []
  trustedGroupScope := false
  groupLayoutHints := ∅
  indexedRemotePaths := ∅

/-- What the surroundings give a Full Sync. -/
structure FullSyncRun extends OperationRun where
  bootstrap : Bool
  deviceId : Text
  freshId : Text
  establishedAt : Text

/-- `_load_remote_journal(reset_on_error=True)`: the generation. -/
def loadRemoteJournal : OperationProg ℕ :=
  onCommit (Prog.step .journal (fun s =>
    .ok ((Journal.loadOrReset s.remote.journal).1.generation,
      { s with remote :=
        { s.remote with journal := (Journal.loadOrReset s.remote.journal).2 } })))

section Operation

variable (service : Service) (run : FullSyncRun)

/-- What `full_sync` does once the reconciliation is through. -/
def establishBaseline : OperationProg Unit :=
  loadRemoteJournal >>= fun generation =>
  readDevice >>= fun s =>
  writeState { s.durable with
    quickSyncReady := true
    quickSyncCursorGeneration := some generation } >>= fun _ =>
  onCommit (publishFullIndex service s.durable.groups run.deviceId run.freshId generation
    run.establishedAt) >>= fun _ => pure ()

/-- `full_sync`. -/
def fullSync : OperationProg SaveReconcileReport :=
  loadRemoteJournal >>= fun _ =>
  reconcileProgram service (fullCall run.bootstrap) { run.toOperationRun with deferred := true } >>=
    fun report =>
  match report with
  | none => refuse .fault
  | some report => establishBaseline service run >>= fun _ => pure report

end Operation

/-! ### Damage and repair -/

/-- What `_resolve_dataset_state` answers. -/
def datasetState (shared : CommitState) : DatasetState :=
  match resolveDatasetState shared.remote.index with
  | .unowned => if shared.ownershipRecorded then .damaged else .unowned
  | dataset => dataset

/-- The dataset is owned, and every shard its HEAD refers to can be read. -/
def Repaired (dir : IndexDir) : Prop :=
  ∃ marker head, resolveDatasetState dir = .owned marker head ∧ shardError? dir head = none

section Repairable

variable (service : Service) (run : FullSyncRun)

/-- The groups a device tracks after all layouts were compared: those it tracked, and those the
    comparison speaks about. -/
def trackedAfter (state : SaveSyncState) {call : ReconcileCall} (c : Comparison service call) :
    GroupTable :=
  state.groups.override (Table.collect (affectedLayouts state c).keys
    (fun gid => ((affectedLayouts state c).get? gid).map
      (emptyGroupState run.env.timestamp gid))
    (by
      intro gid group h
      obtain ⟨layoutId, -, rfl⟩ := Option.map_eq_some_iff.mp h
      rfl))

/-- Comparing all layouts, a device finds nothing to upload. -/
def NothingToUpload (bootstrap : Bool) (s : Device) : Prop :=
  (compare service (fullCall bootstrap) s.sides).desiredRemote
    = (compare service (fullCall bootstrap) s.sides).originalRemote

/-- The group sets a Full Sync has to publish. -/
def groupSets (s : Device) : LayoutGroups :=
  collectIndexLayoutGroups service
    (trackedAfter service run s.durable (compare service (fullCall run.bootstrap) s.sides))
    s.shared.remote.index run.deviceId (scanAutomaticRemote service s.shared.remote.payload)

/-- The shards it has to write. -/
def repairShards (s : Device) : List IndexShard :=
  rebuiltShards s.shared.remote.index
    (resolvedDatasetId (loadHeadSafe s.shared.remote.index) none run.freshId)
    (groupSets service run s)

/-- There is nothing to upload, the group sets pass the checks of a shard, the shard files are
    free, and the layouts of the old HEAD that stay as they are can be read. -/
structure Repairable (s : Device) : Prop where
  nothing_to_upload : NothingToUpload service run.bootstrap s
  valid : GroupSetsValid (groupSets service run s)
  free : ∀ shard ∈ repairShards service run s, Free s.shared.remote.index shard
  carried : CarriedReadable s.shared.remote.index (repairShards service run s)

end Repairable

/-! ### The layouts of tracked groups -/

section Tracked

variable {service : Service} {call : ReconcileCall} {env : ReconcileEnv} {sides : Sides}

/-- The layout on record for an affected group is that of its paths. -/
theorem layout_of_affected {gid : GroupId} {layoutId : LayoutId}
    (h : (affectedLayouts sides.state (compare service call sides)).get? gid = some layoutId) :
    ∃ p d, service.registry.groupForPath p = some d ∧ d.groupId = gid ∧ d.layoutId = layoutId := by
  unfold affectedLayouts at h
  rcases Dict.of_get?_insertAll h with h | ⟨group, hgroup, heq⟩
  · rcases Dict.of_get?_insertAll h with h | ⟨d, hd, heq⟩
    · rcases Dict.of_get?_insertAll h with h | ⟨entry, -, heq⟩
      · exact absurd h (by simp)
      · obtain ⟨d, hd, hrow⟩ := Option.map_eq_some_iff.mp heq
        exact ⟨entry.relativePath, d, hd, congrArg Prod.fst hrow, congrArg Prod.snd hrow⟩
    · obtain ⟨-, -, q, hq⟩ := inScope_of_mem_containerDescriptors service call sides
        ((work_within service call sides).descriptors_sub d hd)
      have hrow := Option.some.inj heq
      exact ⟨q, d, hq, congrArg Prod.fst hrow, congrArg Prod.snd hrow⟩
  · obtain ⟨-, hhint⟩ := List.mem_filter.mp hgroup
    have hrow := Option.some.inj heq
    unfold hintedGroup at hhint
    simp only [Bool.and_eq_true, List.any_eq_true, Option.any_eq_true, decide_eq_true_eq] at hhint
    obtain ⟨-, hint, -, d, hd, hgid, hlayout⟩ := hhint
    exact ⟨hint, d, hd, hgid.trans (congrArg Prod.fst hrow),
      hlayout.trans (congrArg Prod.snd hrow)⟩

/-- A refreshed group is recorded under the layout of its paths. -/
theorem layout_of_refreshed (hsup : SupportedOnly (compare service call sides)) {gid : GroupId}
    {g : SaveGroupState}
    (h : (refreshedGroups env sides.state (compare service call sides)).get? gid = some g) :
    (affectedLayouts sides.state (compare service call sides)).get? gid = some g.layoutId := by
  obtain ⟨hkey, -⟩ := refreshedGroups_spec service call env sides hsup h
  obtain ⟨layoutId, hget⟩ := (Dict.mem_keys_iff _ _).mp hkey
  obtain ⟨p, d, hd, hgid, hlayout⟩ := layout_of_affected hget
  rw [hget, ← hlayout, Option.some.injEq]
  unfold refreshedGroups at h
  rw [Table.get?_override, Option.or_eq_some_iff] at h
  rcases h with h | ⟨-, h⟩
  · rcases Table.get?_putAll_cases (groupStatesFromManifests
        service.registry.toSaveSelectionPolicy (selectedBaseline (compare service call sides))
        (compare service call sides).desiredLocal (compare service call sides).desiredRemote
        env.timestamp) ((compare service call sides).work.descriptors.map
          (containerGroupState env sides.state (compare service call sides))) gid with
      ⟨-, hcase⟩ | ⟨a, ha, hrow, hcase⟩
    · rw [hcase] at h
      obtain ⟨paths, e, rfl, ⟨q, he, hq, -⟩, -⟩ := groupStatesFromManifests_spec h
      exact service.registry.layout_of_group hd hq (hgid.trans he.symm)
    · rw [hcase, Option.some.injEq] at h
      obtain ⟨e, he, rfl⟩ := List.mem_map.mp ha
      obtain ⟨-, -, q, hq⟩ := inScope_of_mem_containerDescriptors service call sides
        ((work_within service call sides).descriptors_sub e he)
      rw [← h]
      exact service.registry.layout_of_group hd hq (hgid.trans hrow.symm)
  · rw [Table.get?_collect, if_pos hkey, hget, Option.map_some, Option.some.injEq] at h
    rw [← h]
    exact hlayout

/-- Recording conflicts leaves every group in its layout. -/
theorem layout_of_recordConflicts (timestamp : String) (groups : List SaveGroupState)
    (next : SaveSyncState)
    (h : ∀ group ∈ groups, (next.groups.get? group.groupId).map SaveGroupState.layoutId
      = some group.layoutId) (gid : GroupId) :
    ((groups.foldl (recordGroupConflict timestamp) next).groups.get? gid).map
        SaveGroupState.layoutId
      = (next.groups.get? gid).map SaveGroupState.layoutId := by
  have hstep : ∀ (s : SaveSyncState) (group : SaveGroupState),
      (s.groups.get? group.groupId).map SaveGroupState.layoutId = some group.layoutId → ∀ gid,
      ((recordGroupConflict timestamp s group).groups.get? gid).map SaveGroupState.layoutId
        = (s.groups.get? gid).map SaveGroupState.layoutId := by
    intro s group hgroup gid
    unfold recordGroupConflict
    split
    · rw [get?_recordConflict]
      split
      · next heq =>
        rw [heq, hgroup]
        rfl
      · rfl
    · rfl
  induction groups generalizing next with
  | nil => rfl
  | cons group rest ih =>
    have hfirst := hstep next group (h group List.mem_cons_self)
    rw [List.foldl_cons, ih, hfirst]
    intro other hother
    rw [hfirst]
    exact h other (List.mem_cons_of_mem _ hother)

variable {run : FullSyncRun}

/-- **Tracked groups.** After a call that retires nothing, the groups on record are those it
    speaks about and those it leaves alone, each under its layout. -/
theorem layout_of_tracked (hsup : SupportedOnly (compare service call sides)) (gid : GroupId) :
    ((nextState env sides.state (compare service call sides) []).groups.get? gid).map
        SaveGroupState.layoutId
      = ((trackedAfter service run sides.state (compare service call sides)).get? gid).map
        SaveGroupState.layoutId := by
  have hcommitted : ∀ gid, ((committedState env sides.state
      (compare service call sides)).groups.get? gid).map SaveGroupState.layoutId
      = ((affectedLayouts sides.state (compare service call sides)).get? gid).or
          ((sides.state.groups.get? gid).map SaveGroupState.layoutId) := by
    intro gid
    show (((sides.state.groups.keep _).override (refreshedGroups env sides.state
      (compare service call sides))).get? gid).map _ = _
    rw [Table.get?_override, Table.get?_keep]
    cases hget : (refreshedGroups env sides.state (compare service call sides)).get? gid with
    | some g =>
      rw [layout_of_refreshed hsup hget]
      rfl
    | none =>
      have hkey : gid ∉ (affectedLayouts sides.state (compare service call sides)).keys :=
        fun hkey => exists_refreshed_of_affected service call env sides hkey hget
      rw [(Dict.get?_eq_none_iff _ _).mpr hkey, Option.none_or, Option.none_or,
        if_pos (decide_eq_true hkey)]
  have hnext := layout_of_recordConflicts env.timestamp
    (conflictedGroups env sides.state (compare service call sides))
    (resolveAffected env sides.state (compare service call sides)
      (committedState env sides.state (compare service call sides))) ?_ gid
  · refine (show _ = _ from hnext).trans ((hcommitted gid).trans ?_)
    unfold trackedAfter
    rw [Table.get?_override, Table.get?_collect]
    cases hget : (affectedLayouts sides.state (compare service call sides)).get? gid with
    | none =>
      rw [if_neg ((Dict.get?_eq_none_iff _ _).mp hget), Option.none_or, Option.none_or]
    | some layoutId =>
      rw [if_pos ((Dict.mem_keys_iff _ _).mpr ⟨layoutId, hget⟩)]
      rfl
  · intro group hgroup
    have hrow := (Table.mem_toList_iff _ group).mp (List.mem_filter.mp hgroup).1
    refine (show _ = _ from hcommitted group.groupId).trans ?_
    rw [layout_of_refreshed hsup hrow]
    rfl

/-- A publication asks of a tracked group only its layout. -/
theorem collectIndexLayoutGroups_congr {tracked tracked' : GroupTable}
    (h : ∀ gid, (tracked.get? gid).map SaveGroupState.layoutId
      = (tracked'.get? gid).map SaveGroupState.layoutId) (dir : IndexDir) (deviceId : Text)
    (scanned : Manifest) :
    collectIndexLayoutGroups service tracked dir deviceId scanned
      = collectIndexLayoutGroups service tracked' dir deviceId scanned := by
  have hnone : ∀ gid, tracked.get? gid = none ↔ tracked'.get? gid = none := by
    intro gid
    rw [← Option.map_eq_none_iff (f := SaveGroupState.layoutId), h gid, Option.map_eq_none_iff]
  have hkeys : tracked.keys = tracked'.keys := by
    refine eq_of_pairwise_lt tracked.rows.keys_pairwise tracked'.rows.keys_pairwise ?_
    intro gid
    show gid ∈ tracked.keys ↔ gid ∈ tracked'.keys
    rw [Table.mem_keys_iff, Table.mem_keys_iff, ← Option.ne_none_iff_exists',
      ← Option.ne_none_iff_exists']
    exact not_congr (hnone gid)
  have hunder : ∀ gid files,
      publishedUnder service tracked gid files = publishedUnder service tracked' gid files := by
    intro gid files
    have hlayout : ∀ table : GroupTable, (table.get? gid).bind (fun group =>
        (service.registry.layout group.layoutId).map (fun layout =>
          (group.layoutId, layout.system, (none : Option String))))
        = ((table.get? gid).map SaveGroupState.layoutId).bind (fun layoutId =>
          (service.registry.layout layoutId).map (fun layout =>
            (layoutId, layout.system, (none : Option String)))) := by
      intro table
      rw [Option.bind_map]
      rfl
    unfold publishedUnder
    rw [hlayout, hlayout, h gid]
  have hgroup : indexedGroup service tracked dir deviceId scanned
      = indexedGroup service tracked' dir deviceId scanned := by
    funext gid
    have hskip : (tracked.get? gid).isNone = (tracked'.get? gid).isNone := by
      rw [Bool.eq_iff_iff, Option.isNone_iff_eq_none, Option.isNone_iff_eq_none, hnone gid]
    unfold indexedGroup
    dsimp only
    rw [hunder, hskip]
  unfold collectIndexLayoutGroups indexedGroups
  rw [hkeys, hgroup]

end Tracked

/-! ### The reconciliation -/

section Reconciliation

variable {service : SaveSyncService} {call : ReconcileCall} {sides : Sides}
variable {env : Env OperationSite Interruption}

/-- A path that neither side has is not brought by the containers. -/
theorem work_of_absent (hfull : call.uploadOnly = false) {p : Path}
    (hl : (compare service.toService call sides).originalLocal.get? p = none)
    (hr : (compare service.toService call sides).originalRemote.get? p = none) :
    (compare service.toService call sides).work.desiredLocal.get? p = none
      ∧ (compare service.toService call sides).work.desiredRemote.get? p = none := by
  have hwork := work_within service.toService call sides
  by_cases hin : ∃ d ∈ (compare service.toService call sides).work.descriptors,
      d.contains p = true
  · obtain ⟨d, hd, hp⟩ := hin
    obtain ⟨hcontained, -, q, hq⟩ := inScope_of_mem_containerDescriptors service.toService call
      sides (hwork.descriptors_sub d hd)
    have hview := view_work service call sides hq hcontained hfull
    have hsettled : ((compare service.toService call sides).work.view d).localPart.get? p = none
        ∧ ((compare service.toService call sides).work.view d).remotePart.get? p = none := by
      have hstart : ((ContainerWork.start (compare service.toService call sides).originalLocal
          (compare service.toService call sides).originalRemote).view d).localPart.get? p = none
          ∧ ((ContainerWork.start (compare service.toService call sides).originalLocal
            (compare service.toService call sides).originalRemote).view d).remotePart.get? p
              = none := by
        simp [ContainerWork.view, ContainerWork.start, hl, hr]
      rw [hview]
      cases hverdict : reconcileVerdict service sides d call with
      | none => exact hstart
      | some result =>
        cases result with
        | error reason => cases reason <;> exact hstart
        | ok verdict =>
          obtain ⟨⟨format, -, hadapter⟩, -⟩ := of_verdict hq hcontained hverdict
          exact ContainerFormat.known_of_adapter hadapter (by simp [hl]) (by simp [hr])
    simpa [ContainerWork.view, hp] using hsettled
  · push Not at hin
    have hout : ∀ e ∈ (compare service.toService call sides).work.descriptors,
        e.contains p = false := fun e he => by simpa using hin e he
    exact ⟨(hwork.local_outside p hout).trans hl, (hwork.remote_outside p hout).trans hr⟩

/-- What a call wants lies in its scope. -/
theorem desired_of_outOfScope (hfull : call.uploadOnly = false) {p : Path}
    (h : pathInScope service.toService call sides.state p = false) :
    (compare service.toService call sides).desiredLocal.get? p = none
      ∧ (compare service.toService call sides).desiredRemote.get? p = none := by
  have hl : (compare service.toService call sides).originalLocal.get? p = none := by
    rw [get?_originalLocal, h]
    rfl
  have hr := get?_originalRemote_of_notInScope service.toService call sides h
  obtain ⟨hwl, hwr⟩ := work_of_absent hfull hl hr
  rw [get?_desiredLocal, get?_desiredRemote, get?_localReport, get?_remoteReport, hl, hr, hwl, hwr]
  simp only [ite_self, and_self]

theorem supportedOnly_compare (hfull : call.uploadOnly = false) :
    SupportedOnly (compare service.toService call sides) := by
  intro p hp
  refine desired_of_outOfScope hfull ?_
  rw [pathInScope, Service.pathCovered, hp]
  rfl

theorem promote_self (side m : Manifest) : promote side m m = side := by
  refine Manifest.ext_get? fun p => ?_
  rw [get?_promote, if_pos rfl]

/-- A scan of promoted files finds what was wanted, as far as that lies in the scanned layouts. -/
theorem scan_promote {covered : LayoutId → Bool} {side desired : Manifest}
    (h : ∀ p, service.pathCovered covered p = false → desired.get? p = none) :
    (service.scanLayouts covered none (promote side
      (service.scanLayouts covered none side).artifacts desired)).artifacts = desired := by
  refine Manifest.ext_get? fun p => ?_
  cases hp : service.pathCovered covered p with
  | false => simp [Service.scanLayouts, hp, h p hp]
  | true =>
    have hscan : (service.scanLayouts covered none side).artifacts.get? p = side.get? p := by
      simp [Service.scanLayouts, hp]
    have hget : (service.scanLayouts covered none (promote side
        (service.scanLayouts covered none side).artifacts desired)).artifacts.get? p
        = (promote side (service.scanLayouts covered none side).artifacts desired).get? p := by
      simp [Service.scanLayouts, hp]
    rw [hget, get?_promote, hscan]
    split
    · next heq => exact heq
    · rfl

variable {run : OperationRun} {bootstrap : Bool} {s₁ : Device}

/-- The local view of the transaction of a full call. -/
theorem apply_localView {c : Comparison service.toService (fullCall bootstrap)}
    (side : Manifest) :
    SideChange.apply (reconcileTransaction run c).localView side
      = promote side c.originalLocal c.desiredLocal := by
  unfold reconcileTransaction
  by_cases hsame : c.desiredLocal = c.originalLocal
  · rw [if_neg (fun h => h.1 hsame), hsame, promote_self]
    rfl
  · rw [if_pos ⟨hsame, rfl⟩]
    rfl

/-- The device has the given shared state and durable state, whatever its save files are. -/
structure Holds (shared : CommitState) (durable : SaveSyncState) (t : Device) : Prop where
  shared : t.shared = shared
  durable : t.durable = durable

/-- **Promotion.** A full call with nothing to upload, which nothing disturbs, promotes the local
    files. -/
theorem promoteComparison_quiet (hquiet : ¬ env.Disturbs) (hclear : s₁.transaction = none)
    {c : Comparison service.toService (fullCall bootstrap)}
    (hc : c = compare service.toService (fullCall bootstrap) s₁.sides)
    (hsame : c.desiredRemote = c.originalRemote) :
    Triple env (fun s => s = s₁) (promoteComparison run c s₁.durable)
      (fun goesOn t => goesOn = true ∧ Holds s₁.shared s₁.durable t) (fun _ _ => False) (fun _ => False) := by
  have hremote : (reconcileTransaction run c).remoteView = none :=
    if_neg (not_not.mpr hsame)
  have hidle : ∀ m : OperationProg Unit, onlyIf (c.desiredRemote ≠ c.originalRemote) m = pure () :=
    fun m => if_neg (not_not.mpr hsame)
  unfold promoteComparison
  rw [hidle, hidle, hidle]
  refine Triple.cut (fun _ s => s = s₁) (Triple.pure _ fun s hs => hs) fun _ => ?_
  -- the transaction holds the local view, if anything
  refine Triple.cut (fun _ s => s.localSide = s₁.localSide ∧ Holds s₁.shared s₁.durable s
    ∧ (s.transaction = none ∧ (reconcileTransaction run c).localView = none
      ∨ s.transaction = some (reconcileTransaction run c))) ?_ fun _ => ?_
  · unfold prepareTransaction
    split
    · next hviews =>
      refine Triple.pure _ ?_
      rintro s rfl
      exact ⟨rfl, ⟨rfl, rfl⟩, Or.inl ⟨hclear, Option.isNone_iff_eq_none.mp hviews.1⟩⟩
    · refine Triple.stepQuiet hquiet ?_
      rintro s rfl
      rw [hclear]
      exact ⟨rfl, ⟨rfl, rfl⟩, Or.inr rfl⟩
  refine Triple.ofState fun s₂ hs₂ => ?_
  obtain ⟨hlocal, hprom, htransaction⟩ := hs₂
  have hsides : s₂.sides = s₁.sides := by
    unfold Device.sides
    rw [hlocal, hprom.shared, hprom.durable]
  refine Triple.cut (fun _ s => s = s₂) ?_ fun _ => ?_
  · refine Triple.stepQuiet hquiet ?_
    rintro s rfl
    have hcompared : asCompared c s₁.durable s.sides = true := by
      rw [hsides, hc]
      unfold asCompared
      rw [Bool.and_eq_true]
      exact ⟨decide_eq_true rfl, decide_eq_true rfl⟩
    rw [hcompared, if_pos rfl]
  have hnotActive : ¬ activeLater service.toService (fullCall bootstrap) run := by
    unfold activeLater
    exact fun h => h.elim (fun h => absurd h (by simp [effectiveGroups, fullCall]))
      (fun h => absurd h (by simp [effectiveLayouts, fullCall]))
  rw [if_neg hnotActive]
  refine Triple.cut (fun _ s => s = s₂) (Triple.pure _ fun s hs => hs) fun _ => ?_
  refine Triple.cut (fun _ s => s.localSide = promote s₁.localSide c.originalLocal c.desiredLocal
    ∧ Holds s₁.shared s₁.durable s) ?_ fun _ => ?_
  · unfold applyTransaction
    refine Triple.lookAt (fun _ => rfl) ?_
    rcases htransaction with ⟨hnone, hview⟩ | hsome
    · rw [hnone]
      refine Triple.pure _ ?_
      rintro s rfl
      refine ⟨?_, hprom⟩
      rw [← @apply_localView _ run, hview]
      exact hlocal
    · rw [hsome]
      refine Triple.stepQuiet hquiet ?_
      rintro s rfl
      refine ⟨?_, ?_, hprom.durable⟩
      · show SideChange.apply _ s.localSide = _
        rw [apply_localView, hlocal]
      · show setPayload (SideChange.apply _ s.shared.remote.payload) s.shared = _
        rw [hremote]
        exact hprom.shared
  refine Triple.ofState fun s₃ hs₃ => ?_
  obtain ⟨hlocal₃, hprom₃⟩ := hs₃
  refine Triple.cut (fun _ s => s = s₃) ?_ fun _ => ?_
  · refine Triple.stepQuiet hquiet ?_
    rintro s rfl
    have hdesired : asDesired c s₁.durable s.sides = true := by
      unfold asDesired
      rw [Bool.and_eq_true, decide_eq_true_iff, decide_eq_true_iff]
      constructor
      · show (service.scanLayouts _ none s.localSide).artifacts = c.desiredLocal
        rw [hlocal₃, hc]
        refine scan_promote fun p hp => (desired_of_outOfScope rfl ?_).1
        exact (Bool.and_eq_false_iff ..).mpr (Or.inl hp)
      · show (service.scanLayouts _ c.remoteScope s.shared.remote.payload).artifacts
          = c.desiredRemote
        rw [hprom₃.shared, hsame, hc]
        rfl
    rw [hdesired, if_pos rfl]
  refine Triple.cut (fun _ s => s = s₃) (Triple.pure _ fun s hs => hs) fun _ => ?_
  refine Triple.pure _ ?_
  rintro s rfl
  exact ⟨rfl, hprom₃⟩

/-- **A damaged dataset takes no commit.** -/
theorem begin_damaged {cenv : Env CommitSite Interruption} {deferred : Bool} {startedAt : String}
    {shared : CommitState} (h : datasetState shared = .damaged) :
    Triple cenv (fun s => s = shared) (begin service.toService deferred startedAt)
      (fun _ _ => False) (fun _ _ => True) (fun _ => False) := by
  unfold begin requireCommitReadyDataset
  refine Triple.cut (fun _ _ => False) ?_ fun _ => fun _ _ hfalse => hfalse.elim
  refine Triple.cut (fun dataset _ => dataset = .damaged) ?_ fun dataset => ?_
  · unfold resolveDataset
    refine Triple.lookAt (fun _ => rfl) ?_
    unfold datasetState at h
    split
    · next hindex =>
      rw [hindex] at h
      exact absurd h (by simp)
    · next hindex =>
      rw [hindex] at h
      exact Triple.pure _ fun _ _ => h
    · exact Triple.pure _ fun _ _ => rfl
  · refine Triple.ofState fun s hs => ?_
    subst hs
    exact Triple.throw _ fun _ _ => trivial

/-- On a damaged dataset a call with something to upload is refused. -/
theorem promoteComparison_damaged {state : SaveSyncState}
    {c : Comparison service.toService (fullCall bootstrap)}
    (hdamaged : datasetState s₁.shared = .damaged) (hchanged : c.desiredRemote ≠ c.originalRemote) :
    Triple env (fun s => s = s₁) (promoteComparison run c state) (fun _ _ => False)
      (fun _ _ => True) (fun _ => False) := by
  unfold promoteComparison
  refine Triple.cut (fun _ _ => False) ?_ fun _ => fun _ _ hfalse => hfalse.elim
  rw [onlyIf, if_pos hchanged, openAndBegin]
  refine Triple.lookAt (fun _ => rfl) ?_
  refine Triple.cut (fun _ s => datasetState s.shared = .damaged) ?_ fun _ => ?_
  · refine Triple.zoom fun s hs => ?_
    subst hs
    exact Triple.mapOwn (Triple.silent fun shared hshared => hshared ▸ hdamaged)
  · refine Triple.zoom fun s hs => ?_
    refine Triple.mapOwn ((begin_damaged hs).weaken (fun _ h => h) ?_ ?_ ?_)
    · exact fun _ _ h => h
    · exact fun _ _ _ => trivial
    · exact fun _ h => h

/-- After the promotion only the durable state is written. -/
theorem settleComparison_quiet (hquiet : ¬ env.Disturbs) {state : SaveSyncState} {obsolete : List SaveConflictRecord}
    {c : Comparison service.toService (fullCall bootstrap)}
    (hsame : c.desiredRemote = c.originalRemote) {next : SaveSyncState}
    (hnext : next = nextState run.reconcileEnv state c obsolete) :
    Triple env (fun s => s.shared = s₁.shared) (settleComparison run c state obsolete)
      (fun _ => Holds s₁.shared next)
      (fun _ _ => False) (fun _ => False) := by
  have hidle : ∀ m : OperationProg Unit, onlyIf (c.desiredRemote ≠ c.originalRemote) m = pure () :=
    fun m => if_neg (not_not.mpr hsame)
  unfold settleComparison
  rw [hidle, hidle, ← hnext]
  refine Triple.cut (fun _ => Holds s₁.shared next) ?_ fun _ => ?_
  · refine Triple.tryCatchWith (fun _ _ => False) ?_ fun _ => fun _ _ hfalse => hfalse.elim
    exact Triple.stepQuiet hquiet fun s hs => ⟨hs, rfl⟩
  refine Triple.cut (fun _ => Holds s₁.shared next) (Triple.pure _ fun _ h => h) fun _ => ?_
  refine Triple.cut (fun _ => Holds s₁.shared next) (Triple.pure _ fun _ h => h) fun _ => ?_
  refine Triple.cut (fun _ => Holds s₁.shared next) ?_ fun _ => Triple.pure _ fun _ h => h
  unfold finalize
  refine Triple.ofState fun s hs => Triple.silentAt ?_
  unfold onlyIf
  split
  · refine Triple.tryCatchWith (fun _ _ => False) ?_ fun _ => fun _ _ hfalse => hfalse.elim
    refine Triple.stepQuiet hquiet ?_
    rintro t rfl
    exact ⟨hs.shared, hs.durable⟩
  · refine Triple.pure _ fun t ht => ?_
    rw [ht]
    exact hs

/-- What `_recover` leaves as it is. -/
theorem of_recovered {s t : Device} (h : recovered s = .ok ((), t)) :
    t.transaction = none ∧ t.durable = s.durable ∧ t.shared.remote.index = s.shared.remote.index
      ∧ t.shared.ownershipRecorded = s.shared.ownershipRecorded := by
  unfold recovered at h
  split at h
  · next hnone =>
    obtain rfl := (Prod.mk.inj (Except.ok.inj h)).2
    exact ⟨hnone, rfl, rfl, rfl⟩
  · next transaction hsome =>
    split at h
    · obtain rfl := (Prod.mk.inj (Except.ok.inj h)).2
      exact ⟨rfl, rfl, rfl, rfl⟩
    · unfold rolledBack at h
      rw [hsome] at h
      dsimp only at h
      split at h
      · obtain rfl := (Prod.mk.inj (Except.ok.inj h)).2
        exact ⟨rfl, rfl, rfl, rfl⟩
      · split at h
        · exact absurd h (by simp)
        · obtain rfl := (Prod.mk.inj (Except.ok.inj h)).2
          exact ⟨rfl, rfl, rfl, rfl⟩

theorem reconcilable_fullCall {state : SaveSyncState} (hreach : run.env.reachable = true) :
    reconcilable service.toService (fullCall bootstrap) run state = .ok (some []) := by
  have hnone : service.obsoleteWholeLayoutConflicts state ∅
      (fun id => id ∈ (fullCall bootstrap).obsoleteConflictIds) = .ok [] := by
    unfold Service.obsoleteWholeLayoutConflicts
    rw [List.filter_eq_nil_iff.mpr (by simp [fullCall])]
    rfl
  unfold reconcilable
  rw [if_neg (by simp [effectiveGroups, fullCall]), if_neg (by simp [effectiveLayouts, fullCall]),
    hreach, if_neg (by simp), hnone]
  rfl

/-- The call returns exactly when there is nothing to upload. -/
theorem commitComparisonProgram_damaged (hquiet : ¬ env.Disturbs) (hclear : s₁.transaction = none)
    (hdamaged : datasetState s₁.shared = .damaged)
    {c : Comparison service.toService (fullCall bootstrap)}
    (hc : c = compare service.toService (fullCall bootstrap) s₁.sides)
    {next : SaveSyncState} (hnext : next = nextState run.reconcileEnv s₁.durable c []) :
    Triple env (fun s => s = s₁) (commitComparisonProgram run c s₁.durable [])
      (fun report t => report.isSome = true ∧ c.desiredRemote = c.originalRemote
        ∧ Holds s₁.shared next t)
      (fun _ _ => c.desiredRemote ≠ c.originalRemote)
      (fun _ => c.desiredRemote ≠ c.originalRemote) := by
  unfold commitComparisonProgram
  by_cases hsame : c.desiredRemote = c.originalRemote
  · refine Triple.cut (fun goesOn t => goesOn = true ∧ Holds s₁.shared s₁.durable t) ?_
      fun goesOn => ?_
    · refine Triple.tryCatchWith (fun _ _ => False) ?_ fun _ => fun _ _ hfalse => hfalse.elim
      exact (promoteComparison_quiet hquiet hclear hc hsame).weaken (fun _ h => h) (fun _ _ h => h)
        (fun _ _ h => h) (fun _ h => h.elim)
    refine Triple.ofState fun s₂ hs₂ => ?_
    obtain ⟨rfl, hholds⟩ := hs₂
    rw [if_pos rfl]
    refine Triple.cut (fun _ => Holds s₁.shared next) ((settleComparison_quiet hquiet hsame hnext).weaken
      ?_ (fun _ _ h => h) (fun _ _ h => h.elim) fun _ h => h.elim) fun report => ?_
    · intro s hs
      rw [hs]
      exact hholds.shared
    · exact Triple.pure _ fun t ht => ⟨rfl, hsame, ht⟩
  · refine Triple.cut (fun _ _ => False) ?_ fun _ => fun _ _ hfalse => hfalse.elim
    refine Triple.tryCatchWith (fun _ _ => True) ?_ fun error => ?_
    · exact (promoteComparison_damaged hdamaged hsame).weaken (fun _ h => h) (fun _ _ h => h)
        (fun _ _ h => h) (fun _ h => h.elim)
    · -- whatever the handler does, it raises in the end
      refine Triple.cut (fun _ _ => True) ((Triple.anyhow _).weaken (fun _ h => h)
        (fun _ _ h => h) (fun _ _ _ => hsame) (fun _ _ => hsame)) fun _ => ?_
      refine Triple.cut (fun _ _ => True) ((Triple.anyhow _).weaken (fun _ h => h)
        (fun _ _ h => h) (fun _ _ _ => hsame) (fun _ _ => hsame)) fun _ => ?_
      exact Triple.throw _ fun _ _ => hsame

/-- **The reconciliation of a Full Sync** on a damaged dataset that nothing disturbs: it returns
    exactly when there is nothing to upload, with the remote as it was. -/
theorem reconcileProgram_damaged (hquiet : ¬ env.Disturbs) {s₀ : Device}
    (hreach : run.env.reachable = true)
    (hdamaged : datasetState s₀.shared = .damaged) :
    Triple env (fun s => s = s₀)
      (reconcileProgram service.toService (fullCall bootstrap) run)
      (fun report t => report.isSome = true ∧ ∃ s₁, recovered s₀ = .ok ((), s₁)
        ∧ NothingToUpload service.toService bootstrap s₁
        ∧ Holds s₁.shared (nextState run.reconcileEnv s₁.durable
          (compare service.toService (fullCall bootstrap) s₁.sides) []) t)
      (fun _ _ => ∀ s₁, recovered s₀ = .ok ((), s₁) →
        ¬ NothingToUpload service.toService bootstrap s₁)
      (fun _ => ∀ s₁, recovered s₀ = .ok ((), s₁) →
        ¬ NothingToUpload service.toService bootstrap s₁) := by
  unfold reconcileProgram
  refine readAt ?_
  rw [reconcilable_fullCall hreach]
  refine Triple.cut (fun _ s => recovered s₀ = .ok ((), s)) ?_ fun _ => ?_
  · refine Triple.stepQuiet hquiet ?_
    rintro s rfl
    cases hrecovered : recovered s with
    | error error => exact fun s₁ h => absurd h (by simp)
    | ok result => rfl
  refine Triple.ofState ?_
  intro s₁ hs₁
  refine readAt ?_
  obtain ⟨hclear, -, hindex, hrecorded⟩ := of_recovered hs₁
  have hdamaged₁ : datasetState s₁.shared = .damaged := by
    unfold datasetState at hdamaged ⊢
    rw [hindex, hrecorded]
    exact hdamaged
  have hfails : ¬ NothingToUpload service.toService bootstrap s₁ →
      ∀ s₂, recovered s₀ = .ok ((), s₂) → ¬ NothingToUpload service.toService bootstrap s₂ := by
    intro hnot s₂ hs₂
    obtain rfl := (Prod.mk.inj (Except.ok.inj (hs₁.symm.trans hs₂))).2
    exact hnot
  obtain ⟨c, hc⟩ : ∃ c, c = compare service.toService (fullCall bootstrap) s₁.sides := ⟨_, rfl⟩
  obtain ⟨next, hnext⟩ : ∃ next, next = nextState run.reconcileEnv s₁.durable c [] := ⟨_, rfl⟩
  have hrun := commitComparisonProgram_damaged hquiet hclear hdamaged₁ hc hnext
  have hnothing : NothingToUpload service.toService bootstrap s₁
      ↔ c.desiredRemote = c.originalRemote := by
    rw [hc]
    rfl
  rw [← hc]
  refine Triple.weaken hrun (fun _ h => h) ?_ ?_ ?_
  · intro report t h
    refine ⟨h.1, s₁, hs₁, hnothing.mpr h.2.1, ?_⟩
    rw [← hc, ← hnext]
    exact h.2.2
  · exact fun _ _ h => hfails (mt hnothing.mp h)
  · exact fun _ h => hfails (mt hnothing.mp h)

end Reconciliation

/-! ### The publication -/

section Publication

variable {dir : IndexDir} {groups : LayoutGroups} {deviceId freshId establishedAt : Text}
variable {journalGeneration : ℕ} {env : Env Site Interruption}

/-- What a publication depends on: valid group sets, free shard files, and readable layouts that
    are carried forward. -/
def Publishable (dir : IndexDir) (groups : LayoutGroups) (shards : List IndexShard) : Prop :=
  GroupSetsValid groups ∧ (∀ shard ∈ shards, Free dir shard) ∧ CarriedReadable dir shards

/-- Neither the marker nor HEAD is different, or the new HEAD cannot be read with its shards. -/
def LeftUnreadable (dir d : IndexDir) : Prop :=
  d.owner = dir.owner ∧ (d.head = dir.head
    ∨ ∀ head, loadHeadStrict d = .ok head → shardError? d head ≠ none)

/-- Only an exception of the publication itself ends the writing of the shards, and marker and
    HEAD are as they were. -/
theorem publishShards_quiet (hquiet : ¬ env.Disturbs) (shards : List IndexShard) (layouts : Dict LayoutId IndexLayoutHead) :
    Triple env (fun d : IndexDir => d.owner = dir.owner ∧ d.head = dir.head)
      (publishShards shards layouts) (fun _ d => d.owner = dir.owner ∧ d.head = dir.head)
      (fun error d => (∃ own, error = .own own) ∧ LeftUnreadable dir d) (fun _ => False) := by
  induction shards generalizing layouts with
  | nil => exact Triple.pure _ fun _ h => h
  | cons shard rest ih =>
    refine Triple.cut (fun _ d => d.owner = dir.owner ∧ d.head = dir.head)
      (Triple.silent fun _ h => h) fun _ => ?_
    refine Triple.cut (fun _ d => d.owner = dir.owner ∧ d.head = dir.head) ?_ fun _ => ih _
    unfold writeShard
    split
    · exact Triple.throw _ fun d hd => ⟨⟨_, rfl⟩, hd.1, Or.inl hd.2⟩
    · refine Triple.stepQuiet hquiet ?_
      intro d hd
      dsimp only
      cases d.shards.get? _ with
      | none => exact hd
      | some existing =>
        dsimp only
        split
        · next hok =>
          split at hok
          · cases hok
            exact hd
          · exact absurd hok (by simp)
        · exact ⟨⟨_, rfl⟩, hd.1, Or.inl hd.2⟩

/-- HEAD is replaced, and the marker stays. -/
theorem writeHead_quiet (hquiet : ¬ env.Disturbs) (head : IndexHead) (keepPrevious : Bool) :
    Triple env (fun d : IndexDir => d.owner = dir.owner) (writeHead head keepPrevious)
      (fun _ d => d.owner = dir.owner) (fun _ _ => False) (fun _ => False) := by
  unfold writeHead
  refine Triple.cut (fun _ d => d.owner = dir.owner) (Triple.silent fun _ h => h) fun _ => ?_
  refine Triple.cut (fun _ d => d.owner = dir.owner) ?_ fun _ => ?_
  · split
    · refine Triple.tryCatchWith (fun _ _ => False) ?_ fun _ => fun _ _ hfalse => hfalse.elim
      exact Triple.stepQuiet hquiet fun d hd => hd
    · exact Triple.pure _ fun _ h => h
  · exact Triple.stepQuiet hquiet fun d hd => hd

/-- A publication that nothing disturbs: it returns with the dataset repaired, or raises and
    leaves it as damaged as it was. -/
theorem publishAuthoritativeIndex_quiet (hquiet : ¬ env.Disturbs) :
    Triple env (fun d => d = dir)
      (publishAuthoritativeIndex none freshId journalGeneration groups deviceId establishedAt)
      (fun _ d => Repaired d)
      (fun error d => (∃ own, error = .own own) ∧ LeftUnreadable dir d)
      (fun _ => False) := by
  unfold publishAuthoritativeIndex
  refine Triple.silentAt ?_
  obtain ⟨build, hbuild⟩ : ∃ build, build = buildIndex dir (loadHeadSafe dir) none freshId
    journalGeneration groups := ⟨_, rfl⟩
  dsimp only
  rw [← hbuild]
  refine Triple.cut (fun _ d => d.owner = dir.owner ∧ d.head = dir.head)
    (Triple.pre (publishShards_quiet hquiet _ _) (by rintro d rfl; exact ⟨rfl, rfl⟩)) fun published => ?_
  refine Triple.cut (fun _ d => d.owner = dir.owner) ?_ fun _ => ?_
  · exact Triple.weaken (writeHead_quiet hquiet _ true) (fun _ h => h.1) (fun _ _ h => h)
      (fun _ _ h => h.elim) fun _ h => h
  refine Triple.ofState ?_
  intro after howner
  refine Triple.silentAt ?_
  dsimp only
  cases hstrict : loadHeadStrict after with
  | error error =>
    refine Triple.throw _ ?_
    rintro d rfl
    refine ⟨⟨_, rfl⟩, howner, Or.inr fun head hhead => ?_⟩
    exact absurd (hstrict.symm.trans hhead) (by simp)
  | ok verified =>
    dsimp only
    cases herror : shardError? after verified with
    | some error =>
      refine Triple.throw _ ?_
      rintro d rfl
      refine ⟨⟨_, rfl⟩, howner, Or.inr fun head hhead => ?_⟩
      obtain rfl := Except.ok.inj (hstrict.symm.trans hhead)
      exact fun hnone => absurd (herror.symm.trans hnone) (by simp)
    | none =>
      refine Triple.cut (fun _ d => Repaired d) ?_ fun _ => Triple.pure _ fun _ h => h
      refine Triple.stepQuiet hquiet ?_
      rintro d rfl
      refine ⟨⟨verified.datasetId, establishedAt, deviceId⟩, verified, ?_, herror⟩
      have hsame : loadHeadStrict { d with
          owner := .valid ⟨verified.datasetId, establishedAt, deviceId⟩ } = .ok verified := hstrict
      unfold resolveDatasetState
      dsimp only
      rw [hsame]
      dsimp only
      rw [if_neg (by simp)]

/-- Group sets that a directory has committed are valid. -/
theorem groupSetsValid_of_committed {d : IndexDir}
    (hgiven : ∀ entry ∈ groups.val, ∀ gid, committedGroup d entry.1 gid = entry.2.get? gid)
    (hsome : ∀ entry ∈ groups.val, ∃ gid group, entry.2.get? gid = some group) :
    GroupSetsValid groups := by
  intro entry hentry
  constructor
  · obtain ⟨gid, group, hget⟩ := hsome entry hentry
    exact (committedGroup_named ((hgiven entry hentry gid).trans hget)).1
  · intro gid group hget
    have hcommitted := (hgiven entry hentry gid).trans hget
    unfold committedGroup at hcommitted
    split at hcommitted
    · exact absurd hcommitted (by simp)
    · split at hcommitted
      · exact absurd hcommitted (by simp)
      · next shard hload =>
        obtain ⟨-, -, hvalid, hlayout, -⟩ := loadShard_ok hload
        exact hlayout ▸ ((valid_iff shard).mp hvalid).2.2 gid group hcommitted

/-- **Publishing the authoritative index**, left alone: it returns with the dataset repaired if the
    index is publishable, and otherwise raises and leaves it as damaged as it was. -/
theorem publishAuthoritativeIndex_repairs (hquiet : ¬ env.Disturbs)
    (hsome : ∀ entry ∈ groups.val, ∃ gid group, entry.2.get? gid = some group)
    {shards : List IndexShard}
    (hshards : shards = rebuiltShards dir (resolvedDatasetId (loadHeadSafe dir) none freshId)
      groups) :
    Triple env (fun d => d = dir)
      (publishAuthoritativeIndex none freshId journalGeneration groups deviceId establishedAt)
      (fun _ d => Repaired d ∧ Publishable dir groups shards)
      (fun error d => (∃ own, error = .own own) ∧ LeftUnreadable dir d
        ∧ ¬ Publishable dir groups shards)
      (fun _ => False) := by
  have hleft := @publishAuthoritativeIndex_quiet dir groups deviceId freshId establishedAt
    journalGeneration _ hquiet
  by_cases hvalid : GroupSetsValid groups
  · have hexact := @publishAuthoritativeIndex_exact env _ _ _ _ _ deviceId establishedAt
      journalGeneration hvalid rfl _ hshards _ rfl
    refine Triple.weaken (Triple.and hleft hexact) (fun d hd => ⟨hd, hd⟩) ?_ ?_ ?_
    · exact fun _ _ h => ⟨h.1, hvalid, h.2.1⟩
    · intro error d h
      exact ⟨h.1.1, h.1.2, fun hpub => h.2.2.elim hquiet (fun hnot => hnot hpub.2)⟩
    · exact fun _ h => h.1
  · refine Triple.weaken (Triple.and hleft publishAuthoritativeIndex_returned)
      (fun d hd => ⟨hd, hd⟩) ?_ ?_ ?_
    · intro _ d h
      exact absurd (groupSetsValid_of_committed h.2.2.2.1 hsome) hvalid
    · exact fun _ _ h => ⟨h.1.1, h.1.2, fun hpub => hvalid hpub.1⟩
    · exact fun _ h => h.1

/-- What could not be read stays so. -/
theorem not_repaired_of_leftUnreadable {d : IndexDir} (h : LeftUnreadable dir d)
    (hbroken : ∀ marker head, resolveDatasetState dir ≠ .owned marker head) : ¬ Repaired d := by
  intro hrepaired
  obtain ⟨marker, head, howned, hshards⟩ := hrepaired
  obtain ⟨howner, hsame | hunreadable⟩ := h
  · refine hbroken marker head ?_
    rw [← howned]
    unfold resolveDatasetState loadHeadStrict loadHead
    rw [howner, hsame]
  · unfold resolveDatasetState at howned
    split at howned
    · exact absurd howned (by simp)
    · exact absurd howned (by simp)
    · split at howned
      · exact absurd howned (by simp)
      · next found hstrict =>
        split at howned
        · exact absurd howned (by simp)
        · obtain ⟨-, rfl⟩ := DatasetState.owned.inj howned
          exact hunreadable _ hstrict hshards

variable {service : Service} {tracked : GroupTable} {cenv : Env CommitSite Interruption}

/-- A collected group set has a group. -/
theorem exists_collected {scanned : Manifest} {entry : LayoutId × IndexGroups}
    (hentry : entry ∈ (collectIndexLayoutGroups service tracked dir deviceId scanned).val) :
    ∃ gid group, entry.2.get? gid = some group := by
  obtain ⟨group, hmem, hlayout⟩ := (mem_groupedByLayout _ entry.1).mp
    (List.mem_map_of_mem hentry)
  exact ⟨group.groupId, group,
    (get?_groupedByLayout indexedGroups_nodup hentry _ group).mpr ⟨hmem, hlayout, rfl⟩⟩

theorem clearIntent_quiet (hquiet : ¬ cenv.Disturbs) {P : IndexDir → Prop} :
    Triple cenv (fun s : CommitState => P s.remote.index) clearIntent
      (fun _ s => P s.remote.index) (fun _ _ => False) (fun _ => False) := by
  refine Triple.tryCatchWith (fun _ _ => False) ?_ fun _ => fun _ _ hfalse => hfalse.elim
  exact Triple.stepQuiet hquiet fun s hs => hs

theorem rememberDatasetOwnership_quiet (hquiet : ¬ cenv.Disturbs) {P : IndexDir → Prop} :
    Triple cenv (fun s : CommitState => P s.remote.index) rememberDatasetOwnership
      (fun _ s => P s.remote.index) (fun _ _ => False) (fun _ => False) := by
  refine Triple.tryCatchWith (fun _ _ => False) ?_ fun _ => fun _ _ hfalse => hfalse.elim
  exact Triple.stepQuiet hquiet fun s hs => hs

/-- **The publication of a Full Sync** repairs the dataset exactly when the index is publishable. -/
theorem publishFullIndex_quiet (hquiet : ¬ cenv.Disturbs) {s₀ : CommitState} {scanned : Manifest}
    (hscanned : scanned = scanAutomaticRemote service s₀.remote.payload)
    (hgroups : groups = collectIndexLayoutGroups service tracked s₀.remote.index deviceId scanned)
    {shards : List IndexShard}
    (hshards : shards = rebuiltShards s₀.remote.index
      (resolvedDatasetId (loadHeadSafe s₀.remote.index) none freshId) groups)
    (hbroken : ∀ marker head, resolveDatasetState s₀.remote.index ≠ .owned marker head) :
    Triple cenv (fun s => s = s₀)
      (publishFullIndex service tracked deviceId freshId journalGeneration establishedAt)
      (fun _ s => Repaired s.remote.index ↔ Publishable s₀.remote.index groups shards)
      (fun _ _ => False) (fun _ => False) := by
  have hsome : ∀ entry ∈ groups.val, ∃ gid group, entry.2.get? gid = some group := by
    intro entry hentry
    exact exists_collected (hgroups ▸ hentry)
  have hrepairs := @publishAuthoritativeIndex_repairs _ _ deviceId _ establishedAt
    journalGeneration _ (Env.not_disturbs_part hquiet .index) hsome _ hshards
  generalize Publishable s₀.remote.index groups shards = publishable at hrepairs ⊢
  unfold publishFullIndex
  refine Triple.cut (fun _ s => Repaired s.remote.index ↔ publishable) ?_ fun published => ?_
  · refine Triple.tryCatchWith (fun error s => (∃ own, error = .own own)
      ∧ ¬ Repaired s.remote.index ∧ ¬ publishable) ?_ fun error => ?_
    · refine Triple.cut (fun found s => found = scanned ∧ s = s₀) ?_ fun found => ?_
      · refine Triple.stepQuiet hquiet ?_
        rintro s rfl
        exact ⟨hscanned.symm, rfl⟩
      refine Triple.ofState ?_
      intro s hs
      obtain ⟨hfound, hs⟩ := hs
      subst hfound hs
      refine Triple.silentAt ?_
      dsimp only
      rw [← hgroups]
      refine Triple.cut (fun _ t => Repaired t.remote.index ↔ publishable) ?_ fun head => ?_
      · refine Triple.zoom ?_
        intro t ht
        subst ht
        refine Triple.mapOwn (Triple.weaken hrepairs (fun _ h => h) ?_ ?_ (fun _ h => h))
        · exact fun _ _ h => iff_of_true h.1 h.2
        · intro error d h
          obtain ⟨⟨own, rfl⟩, hleft, hnot⟩ := h
          exact ⟨⟨.index own, rfl⟩, not_repaired_of_leftUnreadable hleft hbroken, hnot⟩
      · exact Triple.pure _ fun _ h => h
    · split
      · refine Triple.throw _ ?_
        intro s hs
        obtain ⟨⟨own, hown⟩, -⟩ := hs
        exact absurd hown (by simp)
      · exact Triple.pure _ fun s hs => iff_of_false hs.2.1 hs.2.2
  · cases published with
    | none => exact Triple.pure _ fun _ h => h
    | some head =>
      refine Triple.bind (clearIntent_quiet hquiet (P := fun dir => Repaired dir ↔ publishable))
        fun _ => ?_
      refine Triple.bind (rememberDatasetOwnership_quiet hquiet (P := fun dir => Repaired dir
        ↔ publishable)) fun _ => ?_
      exact Triple.pure _ fun _ h => h

end Publication

/-! ### The whole Full Sync -/

section FullSync

variable {service : SaveSyncService} {run : FullSyncRun}
variable {env : Env OperationSite Interruption}

/-- The device with another shared journal. -/
def Device.withJournal (journal : Journal.File) (s : Device) : Device :=
  { s with shared :=
    { s.shared with remote := { s.shared.remote with journal := journal } } }

/-- Recovery leaves the journal alone. -/
theorem recovered_withJournal (journal : Journal.File) (s : Device) :
    recovered (s.withJournal journal)
      = (recovered s).map (fun result => ((), result.2.withJournal journal)) := by
  have hrolled : rolledBack (s.withJournal journal)
      = (rolledBack s).map (fun result => ((), result.2.withJournal journal)) := by
    have htx : (s.withJournal journal).transaction = s.transaction := rfl
    unfold rolledBack
    rw [htx]
    cases s.transaction with
    | none => rfl
    | some t =>
      dsimp only
      split
      · rfl
      · show (if !SideChange.restorable t.localView s.localSide
            || !SideChange.restorable t.remoteView s.shared.remote.payload then _ else _) = _
        split <;> rfl
  have htx : (s.withJournal journal).transaction = s.transaction := rfl
  unfold recovered
  rw [htx]
  cases s.transaction with
  | none => rfl
  | some t =>
    show (if t.promoted ∧ s.durable.lastCompletedOperationId = some t.operationId then _
      else _) = _
    dsimp only
    split
    · rfl
    · exact hrolled

/-- A Full Sync can repair what recovery makes of a device. -/
def RepairableOnceRecovered (service : Service) (run : FullSyncRun) (s : Device) : Prop :=
  ∃ t, recovered s = .ok ((), t) ∧ Repairable service run t

theorem repairable_withJournal (journal : Journal.File) (s : Device) :
    RepairableOnceRecovered service.toService run (s.withJournal journal)
      ↔ RepairableOnceRecovered service.toService run s := by
  have hsame : ∀ t : Device, Repairable service.toService run (t.withJournal journal)
      ↔ Repairable service.toService run t :=
    fun t => ⟨fun h => ⟨h.1, h.2, h.3, h.4⟩, fun h => ⟨h.1, h.2, h.3, h.4⟩⟩
  unfold RepairableOnceRecovered
  rw [recovered_withJournal]
  cases recovered s with
  | error error => simp [Except.map]
  | ok result =>
    simp only [Except.map, Except.ok.injEq, Prod.mk.injEq, true_and]
    constructor
    · intro h
      obtain ⟨t, rfl, h⟩ := h
      exact ⟨result.2, rfl, (hsame result.2).mp h⟩
    · intro h
      obtain ⟨t, ht, h⟩ := h
      refine ⟨_, rfl, (hsame result.2).mpr ?_⟩
      rw [ht]
      exact h

theorem loadRemoteJournal_quiet (hquiet : ¬ env.Disturbs) (s₀ : Device) :
    Triple env (fun s => s = s₀) loadRemoteJournal
      (fun _ s => ∃ journal, s = s₀.withJournal journal) (fun _ _ => False) (fun _ => False) := by
  refine Triple.zoom ?_
  intro s hs
  subst hs
  refine Triple.mapOwn (Triple.stepQuiet (Env.not_disturbs_part hquiet .commit) ?_)
  intro shared hshared
  subst hshared
  exact ⟨_, rfl⟩

/-- What a Full Sync does after the reconciliation repairs the dataset exactly when the index is
    publishable. -/
theorem establishBaseline_quiet (hquiet : ¬ env.Disturbs) {s₁ s₂ : Device}
    (hshared : s₂.shared = s₁.shared)
    (htracked : ∀ gid, (s₂.durable.groups.get? gid).map SaveGroupState.layoutId
      = ((trackedAfter service.toService run s₁.durable (compare service.toService
        (fullCall run.bootstrap) s₁.sides)).get? gid).map SaveGroupState.layoutId)
    (hbroken : ∀ marker head, resolveDatasetState s₁.shared.remote.index ≠ .owned marker head)
    {publishable : Prop} (hpublishable : publishable ↔ Publishable s₁.shared.remote.index
      (groupSets service.toService run s₁) (repairShards service.toService run s₁)) :
    Triple env (fun s => s = s₂) (establishBaseline service.toService run)
      (fun _ t => Repaired t.shared.remote.index ↔ publishable)
      (fun _ _ => False) (fun _ => False) := by
  unfold establishBaseline
  refine Triple.cut (fun _ s => ∃ journal, s = s₂.withJournal journal)
    (loadRemoteJournal_quiet hquiet s₂) fun generation => ?_
  refine Triple.ofState ?_
  intro s₃ hs₃
  obtain ⟨journal, rfl⟩ := hs₃
  refine readAt ?_
  refine Triple.cut (fun _ s => s.shared = (s₂.withJournal journal).shared) ?_ fun _ => ?_
  · refine Triple.stepQuiet hquiet ?_
    intro s hs
    subst hs
    rfl
  refine Triple.cut (fun _ t => Repaired t.shared.remote.index ↔ publishable) ?_
    fun _ => Triple.pure _ fun _ h => h
  refine Triple.zoom ?_
  intro s hs
  refine Triple.mapOwn ?_
  have hpublish := @publishFullIndex_quiet _ run.deviceId run.freshId run.establishedAt generation
    service.toService s₂.durable.groups _ (Env.not_disturbs_part hquiet .commit) s.shared _ rfl rfl
    _ rfl ?_
  · refine Triple.weaken hpublish (fun _ h => h) ?_ (fun _ _ h => h) (fun _ h => h)
    intro _ t ht
    refine ht.trans (Iff.trans ?_ hpublishable.symm)
    rw [hs]
    have hgroups : collectIndexLayoutGroups service.toService s₂.durable.groups
        s₁.shared.remote.index run.deviceId
        (scanAutomaticRemote service.toService s₁.shared.remote.payload)
          = groupSets service.toService run s₁ := collectIndexLayoutGroups_congr htracked _ _ _
    unfold repairShards
    rw [← hgroups, ← hshared]
    exact Iff.rfl
  · rw [hs]
    show ∀ marker head, resolveDatasetState s₂.shared.remote.index ≠ .owned marker head
    rw [hshared]
    exact hbroken

/-- **A Full Sync on a damaged dataset**, left alone: where it returns, the dataset is repaired
    exactly if it was repairable, and it fails only where it was not. -/
theorem fullSync_damaged (hquiet : ¬ env.Disturbs) {s₀ : Device}
    (hreach : run.env.reachable = true) (hdamaged : datasetState s₀.shared = .damaged)
    {repairable : Prop}
    (hrepairable : repairable ↔ RepairableOnceRecovered service.toService run s₀) :
    Triple env (fun s => s = s₀) (fullSync service.toService run)
      (fun _ t => Repaired t.shared.remote.index ↔ repairable)
      (fun _ _ => ¬ repairable) (fun _ => ¬ repairable) := by
  unfold fullSync
  refine Triple.cut (fun _ s => ∃ journal, s = s₀.withJournal journal)
    (Triple.weaken (loadRemoteJournal_quiet hquiet s₀) (fun _ h => h) (fun _ _ h => h)
      (fun _ _ h => h.elim) (fun _ h => h.elim)) fun _ => ?_
  refine Triple.ofState ?_
  intro s hs
  obtain ⟨journal, hs⟩ := hs
  have hdamaged' : datasetState s.shared = .damaged := by
    rw [hs]
    exact hdamaged
  have hrepairable' : repairable ↔ RepairableOnceRecovered service.toService run s := by
    rw [hs, repairable_withJournal]
    exact hrepairable
  clear hs hdamaged hrepairable
  have hcall := @reconcileProgram_damaged service _ { run.toOperationRun with deferred := true }
    run.bootstrap hquiet _ hreach hdamaged'
  have hfails : (∀ s₁, recovered s = .ok ((), s₁) →
      ¬ NothingToUpload service.toService run.bootstrap s₁) → ¬ repairable := by
    intro hnot hyes
    obtain ⟨t, ht, hrep⟩ := hrepairable'.mp hyes
    exact hnot t ht hrep.nothing_to_upload
  refine Triple.bind (Triple.weaken hcall (fun _ h => h) (fun _ _ h => h)
    (fun _ _ h => hfails h) (fun _ h => hfails h)) fun report => ?_
  refine Triple.ofState ?_
  intro s₂ hs₂
  obtain ⟨hreport, s₁, hrecovered, hnothing, hholds⟩ := hs₂
  obtain ⟨found, rfl⟩ := Option.isSome_iff_exists.mp hreport
  obtain ⟨-, -, hindex, -⟩ := of_recovered hrecovered
  have hbroken : ∀ marker head,
      resolveDatasetState s₁.shared.remote.index ≠ .owned marker head := by
    intro marker head howned
    unfold datasetState at hdamaged'
    rw [← hindex, howned] at hdamaged'
    exact absurd hdamaged' (by simp)
  have hpublishable : repairable ↔ Publishable s₁.shared.remote.index
      (groupSets service.toService run s₁) (repairShards service.toService run s₁) := by
    rw [hrepairable']
    constructor
    · intro h
      obtain ⟨t, ht, hrep⟩ := h
      obtain rfl := (Prod.mk.inj (Except.ok.inj (hrecovered.symm.trans ht))).2
      exact ⟨hrep.valid, hrep.free, hrep.carried⟩
    · exact fun h => ⟨s₁, hrecovered, hnothing, h.1, h.2.1, h.2.2⟩
  have htracked : ∀ gid, (s₂.durable.groups.get? gid).map SaveGroupState.layoutId
      = ((trackedAfter service.toService run s₁.durable (compare service.toService
        (fullCall run.bootstrap) s₁.sides)).get? gid).map SaveGroupState.layoutId := by
    intro gid
    rw [hholds.durable]
    exact @layout_of_tracked _ _ _ s₁.sides _ (supportedOnly_compare rfl) gid
  refine Triple.cut (fun _ t => Repaired t.shared.remote.index ↔ repairable) (Triple.weaken
    (establishBaseline_quiet hquiet hholds.shared htracked hbroken hpublishable) (fun _ h => h)
      (fun _ _ h => h) (fun _ _ h => h.elim) (fun _ h => h.elim)) fun _ => ?_
  exact Triple.pure _ fun _ h => h

end FullSync

/-! ### A HEAD that went missing -/

theorem zelda_not_contained {p : Path} {d : SaveGroupDescriptor}
    (h : zeldaRegistry.groupForPath p = some d) : ¬ d.contained := by
  simp only [zeldaRegistry] at h
  split at h
  · cases h
    decide
  · cases h

/-- The service of one layout without containers. -/
def zeldaSaveSync : SaveSyncService where
  toService := zeldaService
  formats := fun _ => none
  lifecycleEnabled := fun _ => true
  apart :=
    { own := by
        intro p q d e h hcontained
        exact absurd hcontained (zelda_not_contained h)
      named := by
        intro p q d e h _ hcontained
        exact absurd hcontained (zelda_not_contained h)
      disjoint := by
        intro p q x d e h _ hcontained
        exact absurd hcontained (zelda_not_contained h)
      adapted := by
        intro p d h hcontained
        exact absurd hcontained (zelda_not_contained h) }
  registry_formats := fun _ => rfl

/-- A Full Sync of one device. -/
def zeldaFullSync : FullSyncRun where
  operationId := ⟨"op7", by decide⟩
  deferred := true
  startedAt := "noon"
  env := quietEnv
  bootstrap := false
  deviceId := ⟨"notebook", by decide⟩
  freshId := ⟨"dataset7", by decide⟩
  establishedAt := ⟨"sunrise", by decide⟩

/-- A device that shares the save of generation `0` with a remote whose index is given. -/
def zeldaDevice (save : SaveArtifact) (index : IndexDir) : Device where
  localSide := Manifest.ofArtifacts [save]
  durable :=
    { deviceId := "notebook"
      sharedManifest := Manifest.ofArtifacts [zeldaFile '0']
      lastReconcile := none
      groups := ∅
      conflicts := []
      containerBaselines := ∅
      lastCompletedOperationId := none
      quickSyncCursorGeneration := none
      quickSyncReady := true }
  transaction := none
  shared := syncingDevice (Manifest.ofArtifacts [zeldaFile '0']) index

/-- The index of the save, with its HEAD and its shard files gone. -/
def bareIndex : IndexDir := { zeldaIndex with head := .absent, previousHead := .absent, shards := ∅ }

/-- The index of the save, with its HEAD gone. -/
def headlessIndex : IndexDir := { zeldaIndex with head := .absent, previousHead := .absent }

/-- Whether a run returned, and what it left passes the checks of `Repaired`. -/
def returnsRepaired
    (result : Outcome (Exn Interruption OperationError) SaveReconcileReport × Device) : Bool :=
  match result with
  | (.done _, t) =>
    match resolveDatasetState t.shared.remote.index with
    | .owned _ head => shardError? t.shared.remote.index head = none
    | _ => false
  | _ => false

theorem returnsRepaired_iff
    (result : Outcome (Exn Interruption OperationError) SaveReconcileReport × Device) :
    returnsRepaired result = true
      ↔ ∃ report t, result = (.done report, t) ∧ Repaired t.shared.remote.index := by
  obtain ⟨outcome, t⟩ := result
  cases outcome with
  | done report =>
    unfold returnsRepaired Repaired
    cases h : resolveDatasetState t.shared.remote.index with
    | owned marker head => simp [h]
    | damaged => simp [h]
    | unowned => simp [h]
  | raised error => simp [returnsRepaired]
  | crashed => simp [returnsRepaired]

end RomCloud.SaveSync.Commit
