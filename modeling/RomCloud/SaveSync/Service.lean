import RomCloud.SaveSync.State
import Mathlib.Data.Finset.Union

namespace RomCloud.SaveSync

open RomCloud.Lib

/-!
# The SaveSync service: registry, scans and container adapters

What `SaveSyncService` knows besides its durable state, and how it looks at the two sides.

* `SaveRegistry` — the policy with what the registry guarantees of group and container ids;
* `Service` — the registry, the systems the user opted into and the container adapters;
* `scanLayouts` — what a scan of some layouts finds on a side;
* `localMaterializationGaps`, `obsoleteWholeLayoutConflicts`, `trustedGroupRemoteScope`,
  `groupStatesFromManifests` — the helpers of reconciliation that read state and scans.

A side is the manifest of the files below its approved roots.  A container adapter (a reader of
memory cards) is a parameter: it sees a container on both sides and the stored baseline, and
either gives up for a reason or says what the container becomes on each side.
-/

/-! ### The registry -/

/-- `_container_paths`: whether a path lies in the container of a descriptor. -/
def SaveGroupDescriptor.contains (descriptor : SaveGroupDescriptor) (path : Path) : Bool :=
  if descriptor.containerKind = "file" then path = descriptor.containerId
  else (descriptor.containerId ++ "/").toList.isPrefixOf path.toList

/-- Whether a descriptor's files are handed to a container adapter. -/
def SaveGroupDescriptor.contained (descriptor : SaveGroupDescriptor) : Bool :=
  descriptor.containerId ≠ "" && descriptor.containerAdapterId ≠ ""

/-- The registry: a policy whose group ids start with the id of their layout, and whose
    containers hold files of one group only. -/
structure SaveRegistry extends SaveSelectionPolicy where
  plain : ∀ layout ∈ layouts, '/' ∉ layout.layoutId.toList
  registered : ∀ p d, groupForPath p = some d → ∃ layout ∈ layouts, layout.layoutId = d.layoutId
  group_prefix : ∀ p d, groupForPath p = some d → ∃ key, d.groupId = d.layoutId ++ "/" ++ key
  container_closed : ∀ p q d e, groupForPath p = some d → d.contained → d.contains q →
    groupForPath q = some e → e.groupId = d.groupId
  container_group : ∀ p q d e, groupForPath p = some d → groupForPath q = some e → d.contained →
    d.containerId = e.containerId → d.groupId = e.groupId

/-- What stands before the first `/` of a text without `/`, followed by `/`. -/
private theorem takeWhile_layoutId (layoutId key : String) (h : '/' ∉ layoutId.toList) :
    (layoutId ++ "/" ++ key).toList.takeWhile (· ≠ '/') = layoutId.toList := by
  rw [String.toList_append, String.toList_append, List.append_assoc,
    List.takeWhile_append_of_pos]
  · simp
  · intro c hc
    exact decide_eq_true fun heq => h (heq ▸ hc)

/-- A text names at most one layout before its first `/`. -/
theorem layout_eq_of_prefix {l m k j : String} (hl : '/' ∉ l.toList) (hm : '/' ∉ m.toList)
    (h : l ++ "/" ++ k = m ++ "/" ++ j) : l = m := by
  have hlist := congrArg (fun s : String => s.toList.takeWhile (· ≠ '/')) h
  simp only [takeWhile_layoutId _ _ hl, takeWhile_layoutId _ _ hm] at hlist
  exact String.toList_injective hlist

namespace SaveRegistry

variable (registry : SaveRegistry)

theorem plain_of_descriptor {p : Path} {d : SaveGroupDescriptor}
    (h : registry.groupForPath p = some d) : '/' ∉ d.layoutId.toList := by
  obtain ⟨layout, hmem, heq⟩ := registry.registered p d h
  exact heq ▸ registry.plain layout hmem

/-- A group belongs to one layout. -/
theorem layout_of_group {p q : Path} {d e : SaveGroupDescriptor}
    (hd : registry.groupForPath p = some d) (he : registry.groupForPath q = some e)
    (h : d.groupId = e.groupId) : d.layoutId = e.layoutId := by
  obtain ⟨k, hk⟩ := registry.group_prefix p d hd
  obtain ⟨j, hj⟩ := registry.group_prefix q e he
  exact layout_eq_of_prefix (registry.plain_of_descriptor hd) (registry.plain_of_descriptor he)
    (hk ▸ hj ▸ h)

/-- `SaveSelectionPolicy.layout`. -/
def layout (layoutId : LayoutId) : Option SaveLayout :=
  registry.layouts.find? (fun layout => layout.layoutId = layoutId)

/-- A group named after the whole of a layout belongs to that layout. -/
theorem layout_of_dataset {p : Path} {d : SaveGroupDescriptor} {layoutId : LayoutId}
    (hd : registry.groupForPath p = some d) (hlayout : (registry.layout layoutId).isSome)
    (h : d.groupId = layoutId ++ "/" ++ "dataset") : d.layoutId = layoutId := by
  obtain ⟨layout, hfound⟩ := Option.isSome_iff_exists.mp hlayout
  have hid : layout.layoutId = layoutId := by simpa using List.find?_some hfound
  have hplain := registry.plain layout (List.mem_of_find?_eq_some hfound)
  obtain ⟨k, hk⟩ := registry.group_prefix p d hd
  exact layout_eq_of_prefix (registry.plain_of_descriptor hd) (hid ▸ hplain) (hk ▸ h)

end SaveRegistry

/-! ### Container adapters -/

/-- Why an adapter gives a container up, as far as the service asks. -/
inductive OpaqueReason
  | adapterVersionMismatch
  | other (code : String)
deriving DecidableEq

/-- What an adapter makes of a container: the files of each side that has to be rebuilt, the
    next logical baseline, and the domains it counted. -/
structure ContainerVerdict (descriptor : SaveGroupDescriptor) where
  localFiles : Option Manifest
  remoteFiles : Option Manifest
  nextBaseline : ContainerBaseline
  conflictPaths : List Path
  uploaded : ℕ
  downloaded : ℕ
  unchanged : ℕ
  uploadBytes : ℕ
  downloadBytes : ℕ
  baseline_id : nextBaseline.containerId = descriptor.containerId
  local_inside : ∀ m p a, localFiles = some m → m.get? p = some a → descriptor.contains p
  remote_inside : ∀ m p a, remoteFiles = some m → m.get? p = some a → descriptor.contains p

/-- A container adapter, with the planning of `plan_container_reconcile` and the staging of
    `_stage_container_target`. -/
abbrev SaveContainerAdapter :=
  (descriptor : SaveGroupDescriptor) → (localPart remotePart : Manifest) →
    Option ContainerBaseline → Except OpaqueReason (ContainerVerdict descriptor)

/-! ### The service -/

structure Service where
  registry : SaveRegistry
  enabledOptionalSystems : Finset String
  containerRegistry : String → Option SaveContainerAdapter

namespace Service

variable (service : Service)

/-- `_group_id` under the service's registry. -/
def groupId (path : Path) : GroupId := SaveSync.groupId service.registry.toSaveSelectionPolicy path

theorem groupId_of_descriptor {service : Service} {p : Path} {d : SaveGroupDescriptor}
    (h : service.registry.groupForPath p = some d) : service.groupId p = d.groupId := by
  rw [groupId, SaveSync.groupId, h]

/-- `_layout_enabled`. -/
def layoutEnabled (layoutId : LayoutId) : Bool :=
  match service.registry.layout layoutId with
  | none => false
  | some layout => !layout.requiresOptIn || layout.system ∈ service.enabledOptionalSystems

/-- `_path_enabled`. -/
def pathEnabled (path : Path) : Bool :=
  match service.registry.groupForPath path with
  | none => false
  | some descriptor => service.layoutEnabled descriptor.layoutId

/-- Whether a path belongs to one of the layouts `covers`, by its current descriptor. -/
def pathCovered (covers : LayoutId → Bool) (path : Path) : Bool :=
  match service.registry.groupForPath path with
  | none => false
  | some descriptor => covers descriptor.layoutId

/-- `_scan_local_layouts`, `_scan_remote_layouts`: the files of the covered layouts, among
    `onlyRelativePaths` if it is given. -/
def scanLayouts (covers : LayoutId → Bool) (onlyRelativePaths : Option (Finset Path))
    (side : Manifest) : ScanReport where
  artifacts := side.restrict (fun path => service.pathCovered covers path
    && onlyRelativePaths.all (fun paths => path ∈ paths))
  excludedFiles := 0
  excludedBytes := 0
  optionalGroups := []

/-- `_automatic_baseline`. -/
def automaticBaseline (state : SaveSyncState) : Manifest :=
  state.sharedManifest.restrict service.pathEnabled

/-- `_has_container_layout`. -/
def hasContainerLayout (layoutIds : Finset LayoutId) : Bool :=
  service.registry.layouts.any (fun layout =>
    layout.layoutId ∈ layoutIds && layout.containerAdapterId ≠ "")

/-- `_manifest_for_groups`. -/
def manifestForGroups (manifest : Manifest) (groupIds : Finset GroupId) : Manifest :=
  manifest.restrict (fun path => service.groupId path ∈ groupIds)

/-- `_trusted_group_remote_scope`: the paths of the groups that the local scan, the baseline or
    the index knows. -/
def trustedGroupRemoteScope (groupIds : Finset GroupId) (localReport : ScanReport)
    (state : SaveSyncState) (indexedPaths : Dict GroupId (Finset Path)) : Finset Path :=
  (service.manifestForGroups localReport.artifacts groupIds).paths.toFinset
    ∪ (service.manifestForGroups (service.automaticBaseline state) groupIds).paths.toFinset
    ∪ groupIds.biUnion (fun gid => (indexedPaths.get? gid).getD ∅)

/-- `_local_materialization_gaps`: the clean groups of which a file is missing on the local
    side. -/
def localMaterializationGaps (state : SaveSyncState) (localSide : Manifest)
    (excludedLayoutIds : Finset LayoutId) : List SaveGroupState :=
  state.groups.toList.filter (fun group =>
    if group.condition ≠ .clean || group.layoutId ∈ excludedLayoutIds
        || !service.layoutEnabled group.layoutId then false
    else match group.localObserved.or group.baseline with
    | none => false
    | some snapshot =>
      snapshot.artifacts.all (fun artifact =>
          match service.registry.groupForPath artifact.relativePath with
          | none => false
          | some descriptor =>
            descriptor.groupId = group.groupId && descriptor.layoutId = group.layoutId)
        && snapshot.artifacts.any (fun artifact =>
          (localSide.get? artifact.relativePath).isNone))

end Service

/-! ### Errors -/

/-- What SaveSync raises. -/
inductive SaveSyncError
  | verification (message : String)
  | connectivity (message : String)
  | casConflict
  | fault
deriving DecidableEq

/-! ### Conflicts of an older grouping -/

namespace Service

variable (service : Service)

/-- The paths a conflict has evidence for. -/
def evidencePaths (conflict : SaveConflictRecord) : List Path :=
  sortedSet (((conflict.baseline.map SaveGroupSnapshot.artifacts).getD []
    ++ conflict.localSnapshot.artifacts ++ conflict.remoteSnapshot.artifacts).map
      SaveArtifact.relativePath)

/-- The body of the loop of `_obsolete_whole_layout_conflicts`: whether a conflict recorded for a
    whole layout is obsolete, or the error that preserves it. -/
def obsoleteWholeLayoutConflict (excludedLayoutIds : Finset LayoutId)
    (conflict : SaveConflictRecord) : Except SaveSyncError Bool :=
  let legacyGroupId := conflict.layoutId ++ "/" ++ "dataset"
  if conflict.groupId ≠ legacyGroupId then .ok false
  else match service.registry.layout conflict.layoutId with
  | none => .error (.verification (
      "A legacy whole-layout SaveSync conflict references a layout "
      ++ "that this version cannot map safely: " ++ conflict.layoutId ++ ". "
      ++ "The conflict was preserved; export diagnostics and keep both "
      ++ "save locations unchanged."))
  | some layout =>
    if layout.groupBy = "layout" then .ok false
    else if conflict.layoutId ∈ excludedLayoutIds
        || !service.layoutEnabled conflict.layoutId then .ok false
    else
      let paths := evidencePaths conflict
      let descriptors := paths.map service.registry.groupForPath
      if paths.isEmpty then .error (.verification (
        "A legacy whole-layout SaveSync conflict contains no mappable "
        ++ "save evidence. The conflict was preserved; keep both save "
        ++ "locations unchanged and export diagnostics."))
      else if descriptors.any (fun descriptor =>
          descriptor.all (fun d => d.layoutId ≠ conflict.layoutId)) then .error (.verification (
        "A legacy whole-layout SaveSync conflict cannot be mapped "
        ++ "unambiguously to the current ownership registry. The conflict "
        ++ "was preserved; keep both save locations unchanged and export "
        ++ "diagnostics."))
      else if descriptors.any (fun descriptor =>
          descriptor.any (fun d => d.groupId = legacyGroupId)) then .error (.verification (
        "A legacy whole-layout SaveSync conflict overlaps a current "
        ++ "ownership identity and cannot be migrated safely. The conflict "
        ++ "was preserved; keep both save locations unchanged and export "
        ++ "diagnostics."))
      else .ok true

/-- The members of a list that pass a test which may raise. -/
def filterPassing (test : SaveConflictRecord → Except SaveSyncError Bool) :
    List SaveConflictRecord → Except SaveSyncError (List SaveConflictRecord)
  | [] => .ok []
  | conflict :: rest => do
    let pass ← test conflict
    let passing ← filterPassing test rest
    return if pass then conflict :: passing else passing

theorem test_of_mem_filterPassing {test : SaveConflictRecord → Except SaveSyncError Bool}
    {conflicts passing : List SaveConflictRecord} (h : filterPassing test conflicts = .ok passing)
    {conflict : SaveConflictRecord} (hmem : conflict ∈ passing) :
    conflict ∈ conflicts ∧ test conflict = .ok true := by
  induction conflicts generalizing passing with
  | nil =>
    cases h
    exact absurd hmem (by simp)
  | cons first rest ih =>
    rw [filterPassing] at h
    cases ht : test first with
    | error e =>
      rw [ht] at h
      exact absurd h (by simp [bind, Except.bind])
    | ok pass =>
      cases hr : filterPassing test rest with
      | error e =>
        rw [ht, hr] at h
        exact absurd h (by simp [bind, Except.bind])
      | ok others =>
        rw [ht, hr] at h
        have hpassing : passing = if pass then first :: others else others :=
          (Except.ok.inj h).symm
        subst hpassing
        have hothers : conflict ∈ others → conflict ∈ first :: rest ∧ test conflict = .ok true :=
          fun hin => ⟨List.mem_cons_of_mem _ (ih hr hin).1, (ih hr hin).2⟩
        cases pass with
        | false => exact hothers hmem
        | true =>
          rcases List.mem_cons.mp hmem with rfl | hin
          · exact ⟨List.mem_cons_self, ht⟩
          · exact hothers hin

/-- `_obsolete_whole_layout_conflicts`, of the conflicts that `selected` names. -/
def obsoleteWholeLayoutConflicts (state : SaveSyncState) (excludedLayoutIds : Finset LayoutId)
    (selected : ConflictId → Bool) : Except SaveSyncError (List SaveConflictRecord) :=
  filterPassing (service.obsoleteWholeLayoutConflict excludedLayoutIds)
    (state.activeConflicts.filter (fun conflict => selected conflict.conflictId))

/-- What makes a conflict obsolete: it was selected, and it is named after the whole of a layout
    that is still registered. -/
theorem of_mem_obsoleteWholeLayoutConflicts {state : SaveSyncState}
    {excludedLayoutIds : Finset LayoutId} {selected : ConflictId → Bool}
    {obsolete : List SaveConflictRecord}
    (h : service.obsoleteWholeLayoutConflicts state excludedLayoutIds selected = .ok obsolete)
    {conflict : SaveConflictRecord} (hmem : conflict ∈ obsolete) :
    selected conflict.conflictId = true
      ∧ conflict.groupId = conflict.layoutId ++ "/" ++ "dataset"
      ∧ (service.registry.layout conflict.layoutId).isSome := by
  obtain ⟨hactive, htest⟩ := test_of_mem_filterPassing h hmem
  refine ⟨(List.mem_filter.mp hactive).2, ?_⟩
  unfold obsoleteWholeLayoutConflict at htest
  dsimp only at htest
  split at htest
  · exact absurd htest (by simp)
  · next hgroup =>
    split at htest
    · exact absurd htest (by simp)
    · next layout hlayout => exact ⟨not_not.mp hgroup, by rw [hlayout]; rfl⟩

end Service

/-! ### Group states -/

/-- The files of a group in a manifest, in the order of their paths. -/
def groupFiles (policy : SaveSelectionPolicy) (manifest : Manifest) (gid : GroupId) :
    List SaveArtifact :=
  groupManifest manifest (manifest.paths.filter (fun path => groupId policy path = gid))

/-- The group manifest over any sorted list of paths that holds the files of the group. -/
theorem groupManifest_eq_groupFiles {policy : SaveSelectionPolicy} {manifest : Manifest}
    {gid : GroupId} {paths : List Path} (hsorted : paths.Pairwise (· < ·))
    (hpaths : ∀ p, manifest.get? p ≠ none → (p ∈ paths ↔ groupId policy p = gid)) :
    groupManifest manifest paths = groupFiles policy manifest gid := by
  have hkeep : groupManifest manifest paths
      = groupManifest manifest (paths.filter (fun p => (manifest.get? p).isSome)) := by
    rw [groupManifest, groupManifest, List.filterMap_filter]
    refine List.filterMap_congr ?_
    intro p hp
    cases manifest.get? p <;> simp
  have hlist : paths.filter (fun p => (manifest.get? p).isSome)
      = manifest.paths.filter (fun p => groupId policy p = gid) := by
    refine eq_of_pairwise_lt (hsorted.filter _) (manifest.files.keys_pairwise.filter _) ?_
    intro p
    rw [List.mem_filter, List.mem_filter, Manifest.mem_paths_iff, decide_eq_true_iff,
      ← Option.isSome_iff_exists]
    constructor
    · rintro ⟨hmem, hsome⟩
      exact ⟨hsome, (hpaths p (Option.isSome_iff_ne_none.mp hsome)).mp hmem⟩
    · rintro ⟨hsome, hgid⟩
      exact ⟨(hpaths p (Option.isSome_iff_ne_none.mp hsome)).mpr hgid, hsome⟩
  rw [hkeep, hlist, groupFiles]

theorem groupFiles_congr {policy : SaveSelectionPolicy} {m n : Manifest} {gid : GroupId}
    (h : ∀ p, groupId policy p = gid → m.get? p = n.get? p) :
    groupFiles policy m gid = groupFiles policy n gid := by
  refine (groupManifest_eq_iff m n _ |>.mpr ?_).trans
    (groupManifest_eq_groupFiles (m.files.keys_pairwise.filter _) ?_)
  · intro p hp
    exact h p (by simpa using (List.mem_filter.mp hp).2)
  · intro p hp
    rw [List.mem_filter, decide_eq_true_iff]
    refine ⟨And.right, fun hgid => ⟨?_, hgid⟩⟩
    rw [← h p hgid] at hp
    exact (m.mem_paths_iff p).mpr (Option.ne_none_iff_exists'.mp hp)

theorem groupFiles_eq_nil_iff {policy : SaveSelectionPolicy} {m : Manifest} {gid : GroupId} :
    groupFiles policy m gid = [] ↔ ∀ p, groupId policy p = gid → m.get? p = none := by
  simp only [groupFiles, groupManifest, List.filterMap_eq_nil_iff, List.mem_filter,
    decide_eq_true_eq]
  constructor
  · intro h p hp
    by_contra hne
    exact hne (h p ⟨(m.mem_paths_iff p).mpr (Option.ne_none_iff_exists'.mp hne), hp⟩)
  · exact fun h p hp => h p hp.2

/-- The state `_group_states_from_manifests` computes for the group `gid` from its paths. -/
def groupStateFromManifests (baseline localSide remoteSide : Manifest) (observedAt : String)
    (gid : GroupId) (paths : List Path) (descriptor : SaveGroupDescriptor) : SaveGroupState :=
  let snapshot := fun (values : Manifest) =>
    (⟨gid, descriptor.layoutId, groupManifest values paths, some observedAt⟩ : SaveGroupSnapshot)
  let baseContent := groupManifest baseline paths
  let localContent := groupManifest localSide paths
  let remoteContent := groupManifest remoteSide paths
  { groupId := gid
    layoutId := descriptor.layoutId
    condition :=
      if localContent = remoteContent then .clean
      else if remoteContent = baseContent then .localDirty
      else if localContent = baseContent then .remoteDirty
      else .conflict
    baseline := some (snapshot baseline)
    localObserved := some (snapshot localSide)
    remoteObserved := some (snapshot remoteSide)
    dirtyPathHints := []
    verifiedAt := some observedAt }

/-- `_group_states_from_manifests`. -/
def groupStatesFromManifests (policy : SaveSelectionPolicy)
    (baseline localSide remoteSide : Manifest) (observedAt : String) : GroupTable :=
  let paths := (planPaths localSide remoteSide baseline).filter
    (fun path => (policy.groupForPath path).isSome)
  Table.collect (paths.map (groupId policy))
    (fun gid =>
      let groupPaths := paths.filter (fun path => groupId policy path = gid)
      (groupPaths.getLast?.bind policy.groupForPath).map
        (groupStateFromManifests baseline localSide remoteSide observedAt gid groupPaths))
    (by
      intro gid group h
      obtain ⟨descriptor, -, rfl⟩ := Option.map_eq_some_iff.mp h
      rfl)

/-- **Group states from files.** A state is computed for a group exactly when one of the three
    manifests holds a supported file of it; the paths it is computed from are all such paths. -/
theorem groupStatesFromManifests_spec {policy : SaveSelectionPolicy}
    {baseline localSide remoteSide : Manifest} {observedAt : String} {gid : GroupId}
    {g : SaveGroupState}
    (h : (groupStatesFromManifests policy baseline localSide remoteSide observedAt).get? gid
      = some g) :
    ∃ paths d, g = groupStateFromManifests baseline localSide remoteSide observedAt gid paths d
      ∧ (∃ p, d.groupId = gid ∧ policy.groupForPath p = some d
          ∧ (baseline.get? p ≠ none ∨ localSide.get? p ≠ none ∨ remoteSide.get? p ≠ none))
      ∧ ∀ m : Manifest, (∀ p, m.get? p ≠ none →
            (baseline.get? p ≠ none ∨ localSide.get? p ≠ none ∨ remoteSide.get? p ≠ none)
              ∧ (policy.groupForPath p).isSome) →
          groupManifest m paths = groupFiles policy m gid := by
  unfold groupStatesFromManifests at h
  rw [Table.get?_collect] at h
  split at h
  · obtain ⟨d, hd, rfl⟩ := Option.map_eq_some_iff.mp h
    obtain ⟨p, hp, hpd⟩ := Option.bind_eq_some_iff.mp hd
    have hmem := List.mem_of_getLast? hp
    simp only [List.mem_filter, decide_eq_true_eq, mem_planPaths_iff] at hmem
    obtain ⟨⟨hfile, -⟩, hgid⟩ := hmem
    rw [groupId, hpd] at hgid
    refine ⟨_, d, rfl, ⟨p, hgid, hpd, by tauto⟩, ?_⟩
    intro m hm
    refine groupManifest_eq_groupFiles (((sortedSet_pairwise _).filter _).filter _) ?_
    intro q hq
    obtain ⟨hfile', hsup⟩ := hm q hq
    simp only [List.mem_filter, decide_eq_true_eq, mem_planPaths_iff]
    exact ⟨And.right, fun hgid => ⟨⟨by tauto, hsup⟩, hgid⟩⟩
  · exact absurd h (by simp)

/-- A group without a computed state has no supported file in any of the manifests. -/
theorem groupStatesFromManifests_eq_none {policy : SaveSelectionPolicy}
    {baseline localSide remoteSide : Manifest} {observedAt : String} {p : Path}
    {d : SaveGroupDescriptor} (hd : policy.groupForPath p = some d)
    (h : (groupStatesFromManifests policy baseline localSide remoteSide observedAt).get? d.groupId
      = none) :
    baseline.get? p = none ∧ localSide.get? p = none ∧ remoteSide.get? p = none := by
  by_contra hne
  have hgid : groupId policy p = d.groupId := by rw [groupId, hd]
  have hmem : p ∈ (planPaths localSide remoteSide baseline).filter
      (fun path => (policy.groupForPath path).isSome) := by
    rw [List.mem_filter, mem_planPaths_iff, hd]
    exact ⟨by tauto, rfl⟩
  unfold groupStatesFromManifests at h
  rw [Table.get?_collect, if_pos (List.mem_map.mpr ⟨p, hmem, hgid⟩), Option.map_eq_none_iff,
    Option.bind_eq_none_iff] at h
  have hgroup : p ∈ ((planPaths localSide remoteSide baseline).filter
      (fun path => (policy.groupForPath path).isSome)).filter
        (fun path => groupId policy path = d.groupId) :=
    List.mem_filter.mpr ⟨hmem, decide_eq_true hgid⟩
  obtain ⟨q, hq⟩ := Option.isSome_iff_exists.mp
    (List.getLast?_isSome.mpr (List.ne_nil_of_mem hgroup))
  have hsome := (List.mem_filter.mp (List.mem_filter.mp (List.mem_of_getLast? hq)).1).2
  rw [h q hq] at hsome
  exact absurd hsome (by simp)

end RomCloud.SaveSync
