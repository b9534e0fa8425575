import RomCloud.SaveSync.Reconcile
import RomCloud.SaveSync.CommonAncestor

namespace RomCloud.SaveSync

open RomCloud.Lib

/-!
# What a scoped reconciliation may touch

A call of `_reconcile_once` is about the groups it selects in the layouts it scans (`InScope`).

* `ContainerWork.Within` — what the container adapters can reach;
* `refreshedGroups_spec`, `mem_affectedLayouts_iff` — which group states a call records, and what
  it says it observed;
* `GroupUntouched`, `StaysInScope` — the frame: nothing outside the scope changes, and what is
  recorded was scanned;
* `staysInScope_iff` — a completed call keeps the frame exactly when every stored dirty hint and
  every selected baseline path it takes up lies in a layout it scans (`ScopeCovers`).
-/

/-! ### Scope -/

section Scope

variable (service : Service) (call : ReconcileCall) (state : SaveSyncState)

/-- A path the call scans, of a group it selects. -/
def pathInScope (path : Path) : Bool :=
  service.pathCovered (covers service call state) path && selects call (service.groupId path)

/-- A group the call selects in a layout it scans. -/
def InScope (gid : GroupId) : Prop :=
  ∃ path, service.groupId path = gid ∧ pathInScope service call state path = true

variable {service call state}

theorem pathCovered_iff {covered : LayoutId → Bool} {p : Path} {d : SaveGroupDescriptor}
    (h : service.registry.groupForPath p = some d) :
    service.pathCovered covered p = covered d.layoutId := by
  rw [Service.pathCovered, h]

theorem exists_descriptor_of_pathInScope {p : Path} (h : pathInScope service call state p = true) :
    ∃ d, service.registry.groupForPath p = some d ∧ covers service call state d.layoutId = true
      ∧ selects call d.groupId = true := by
  rw [pathInScope, Bool.and_eq_true] at h
  obtain ⟨hcov, hsel⟩ := h
  rw [Service.pathCovered] at hcov
  split at hcov
  · exact absurd hcov (by simp)
  · next d hd =>
    rw [Service.groupId_of_descriptor hd] at hsel
    exact ⟨d, hd, hcov, hsel⟩

/-- All paths of a group in scope are in scope: a group belongs to one layout. -/
theorem pathInScope_of_inScope {p : Path} {d : SaveGroupDescriptor}
    (hd : service.registry.groupForPath p = some d) (h : InScope service call state d.groupId) :
    pathInScope service call state p = true := by
  obtain ⟨q, hq, hscope⟩ := h
  obtain ⟨e, he, hcov, hsel⟩ := exists_descriptor_of_pathInScope hscope
  have hgroup : e.groupId = d.groupId := (Service.groupId_of_descriptor he).symm.trans hq
  have hlayout := service.registry.layout_of_group he hd hgroup
  rw [pathInScope, pathCovered_iff hd, Service.groupId_of_descriptor hd, ← hlayout, ← hgroup, hcov, hsel]
  rfl

theorem inScope_of_pathInScope {p : Path} (h : pathInScope service call state p = true) :
    InScope service call state (service.groupId p) := ⟨p, rfl, h⟩

/-- Every layout a call scans is enabled. -/
theorem layoutEnabled_of_covers {layoutId : LayoutId}
    (h : covers service call state layoutId = true) : service.layoutEnabled layoutId = true := by
  rw [covers] at h
  split at h
  · next layouts _ hlayouts =>
    obtain ⟨chosen, -, rfl⟩ := Option.map_eq_some_iff.mp hlayouts
    rw [decide_eq_true_iff, Finset.mem_filter, Bool.and_eq_true] at h
    exact h.2.1
  · next groups _ _ =>
    rw [decide_eq_true_iff, scopedLayouts, Finset.mem_biUnion] at h
    obtain ⟨gid, -, hmem⟩ := h
    split at hmem
    · exact absurd hmem (Finset.notMem_empty _)
    · split at hmem
      · next henabled => rwa [Finset.mem_singleton.mp hmem]
      · exact absurd hmem (Finset.notMem_empty _)
  · exact h

end Scope

/-! ### What container adapters can reach -/

/-- Container work that only touches the containers it took up, each one found among the
    compared files. -/
structure ContainerWork.Within (descriptors : List SaveGroupDescriptor)
    (localSide remoteSide : Manifest) (work : ContainerWork) : Prop where
  descriptors_sub : ∀ d ∈ work.descriptors, d ∈ descriptors
  local_outside : ∀ p, (∀ d ∈ work.descriptors, d.contains p = false) →
    work.desiredLocal.get? p = localSide.get? p
  remote_outside : ∀ p, (∀ d ∈ work.descriptors, d.contains p = false) →
    work.desiredRemote.get? p = remoteSide.get? p
  handled : ∀ p ∈ work.handledPaths, ∃ d ∈ work.descriptors, d.contains p = true
  baselines : ∀ id ∈ work.baselines.keys, ∃ d ∈ work.descriptors, d.containerId = id
  invalidated : ∀ id ∈ work.invalidatedContainerIds, ∃ d ∈ descriptors, d.containerId = id

theorem get?_replaceContainerManifest_of_not_contains {manifest : Manifest}
    {descriptor : SaveGroupDescriptor} {replacement : Option Manifest}
    (hinside : ∀ m p a, replacement = some m → m.get? p = some a → descriptor.contains p)
    {p : Path} (h : descriptor.contains p = false) :
    (replaceContainerManifest manifest descriptor replacement).get? p = manifest.get? p := by
  cases hr : replacement with
  | none => rfl
  | some files =>
    have hnone : files.get? p = none := by
      cases hf : files.get? p with
      | none => rfl
      | some a => exact absurd (hinside files p a hr hf) (by simp [h])
    simp [replaceContainerManifest, hnone, h]

section Containers

variable (service : Service) (localSide remoteSide : Manifest) (state : SaveSyncState)
variable (repair : Finset GroupId)

/-- One container leaves the work within the containers. -/
theorem prepareContainer_within {descriptors : List SaveGroupDescriptor} {work : ContainerWork}
    (h : work.Within descriptors localSide remoteSide) {d : SaveGroupDescriptor}
    (hd : d ∈ descriptors) :
    (prepareContainer service localSide remoteSide state repair work d).Within descriptors
      localSide remoteSide := by
  unfold prepareContainer
  split
  · exact h
  split
  · exact h
  next adapter _ =>
  dsimp only
  split
  · exact h
  split
  · -- a version mismatch only invalidates the stored baseline of this container
    refine { h with invalidated := ?_ }
    intro id hid
    rcases List.mem_append.mp hid with hid | hid
    · exact h.invalidated id hid
    · exact ⟨d, hd, (List.mem_singleton.mp hid).symm⟩
  · exact h
  · next verdict _ =>
    have hlast : d ∈ work.descriptors ++ [d] := by simp
    refine ⟨?_, ?_, ?_, ?_, ?_, h.invalidated⟩
    · intro e he
      rcases List.mem_append.mp he with he | he
      · exact h.descriptors_sub e he
      · rwa [List.mem_singleton.mp he]
    · intro p hp
      show (replaceContainerManifest work.desiredLocal d verdict.localFiles).get? p = _
      rw [get?_replaceContainerManifest_of_not_contains verdict.local_inside (hp d hlast)]
      exact h.local_outside p fun e he => hp e (List.mem_append_left _ he)
    · intro p hp
      show (replaceContainerManifest work.desiredRemote d verdict.remoteFiles).get? p = _
      rw [get?_replaceContainerManifest_of_not_contains verdict.remote_inside (hp d hlast)]
      exact h.remote_outside p fun e he => hp e (List.mem_append_left _ he)
    · intro p hp
      have hpart : ∀ side : Manifest, p ∈ (side.restrict d.contains).paths →
          d.contains p = true := by
        intro side hside
        obtain ⟨a, ha⟩ := ((side.restrict d.contains).mem_paths_iff p).mp hside
        by_contra hne
        rw [Manifest.get?_restrict, if_neg hne] at ha
        exact absurd ha (by simp)
      rw [List.mem_append, List.mem_append] at hp
      rcases hp with (hp | hp) | hp
      · obtain ⟨e, he, hc⟩ := h.handled p hp
        exact ⟨e, List.mem_append_left _ he, hc⟩
      · exact ⟨d, hlast, hpart _ hp⟩
      · exact ⟨d, hlast, hpart _ hp⟩
    · intro id hid
      obtain ⟨b, hb⟩ := (Table.mem_keys_iff _ _).mp hid
      rw [Table.get?_put, verdict.baseline_id] at hb
      split at hb
      · next heq => exact ⟨d, hlast, heq.symm⟩
      · obtain ⟨e, he, hc⟩ := h.baselines id ((Table.mem_keys_iff _ _).mpr ⟨b, hb⟩)
        exact ⟨e, List.mem_append_left _ he, hc⟩

theorem prepareContainers_within (uploadOnly : Bool) :
    (prepareContainers service localSide remoteSide state repair uploadOnly).Within
      (containerDescriptors service.registry localSide remoteSide) localSide remoteSide := by
  have hstart : (ContainerWork.start localSide remoteSide).Within
      (containerDescriptors service.registry localSide remoteSide) localSide remoteSide :=
    ⟨by simp [ContainerWork.start], fun _ _ => rfl, fun _ _ => rfl, by simp [ContainerWork.start],
      fun id hid => absurd ((Table.mem_keys_iff _ _).mp hid) (by simp [ContainerWork.start]),
      by simp [ContainerWork.start]⟩
  unfold prepareContainers
  split
  · exact hstart
  · refine List.foldlRecOn _ _ hstart ?_
    intro work hwork d hd
    exact prepareContainer_within service localSide remoteSide state repair hwork hd

/-- A container that is looked at has a file among the compared ones. -/
theorem exists_path_of_mem_containerDescriptors (registry : SaveRegistry)
    {d : SaveGroupDescriptor} (h : d ∈ containerDescriptors registry localSide remoteSide) :
    d.contained = true ∧ ∃ p, registry.groupForPath p = some d
      ∧ (localSide.get? p ≠ none ∨ remoteSide.get? p ≠ none) := by
  revert h
  unfold containerDescriptors
  refine List.foldlRecOn (motive := fun found => d ∈ found → d.contained = true
    ∧ ∃ p, registry.groupForPath p = some d
      ∧ (localSide.get? p ≠ none ∨ remoteSide.get? p ≠ none)) _ _ (by simp) ?_
  intro found ih p hp hmem
  split at hmem
  · exact ih hmem
  · next e he =>
    split at hmem
    · exact ih hmem
    · next hskip =>
      rcases List.mem_append.mp hmem with hmem | hmem
      · exact ih hmem
      · cases List.mem_singleton.mp hmem
        simp only [Bool.or_eq_true, not_or, Bool.not_eq_true', Bool.not_eq_false] at hskip
        refine ⟨hskip.1, p, he, ?_⟩
        rw [mem_sortedSet, List.mem_append] at hp
        exact hp.imp (fun h => mt (Manifest.get?_eq_none_iff _ _).mp (not_not.mpr h))
          (fun h => mt (Manifest.get?_eq_none_iff _ _).mp (not_not.mpr h))

end Containers

/-! ### The comparison, path by path -/

section Comparison

variable (service : Service) (call : ReconcileCall) (sides : Sides)

@[simp] theorem get?_selectedPart (m : Manifest) (p : Path) :
    (selectedPart service call m).get? p
      = if selects call (service.groupId p) then m.get? p else none := by
  unfold selectedPart selects
  cases effectiveGroups call with
  | none => simp
  | some groups => simp [Service.manifestForGroups]

theorem get?_completeLocal (p : Path) :
    (compare service call sides).completeLocal.get? p
      = if service.pathCovered (covers service call sides.state) p then sides.localSide.get? p
        else none := by
  simp [compare, Service.scanLayouts]

theorem get?_originalLocal (p : Path) :
    (compare service call sides).originalLocal.get? p
      = if pathInScope service call sides.state p then sides.localSide.get? p else none := by
  show (selectedPart service call (compare service call sides).completeLocal).get? p = _
  rw [get?_selectedPart, get?_completeLocal, pathInScope]
  cases service.pathCovered (covers service call sides.state) p <;> simp

theorem get?_originalRemote (p : Path) :
    (compare service call sides).originalRemote.get? p
      = if selects call (service.groupId p) then (compare service call sides).completeRemote.get? p
        else none :=
  get?_selectedPart service call _ p

theorem get?_originalRemote_of_notInScope {p : Path}
    (h : pathInScope service call sides.state p = false) :
    (compare service call sides).originalRemote.get? p = none := by
  rw [get?_originalRemote]
  rw [pathInScope, Bool.and_eq_false_iff] at h
  rcases h with h | h
  · simp [compare, Service.scanLayouts, h]
  · simp [h]

/-- The baseline of a call is the part of the shared manifest it selects. -/
theorem get?_physicalBaseline {p : Path} {a : SaveArtifact}
    (h : (compare service call sides).physicalBaseline.get? p = some a) :
    sides.state.sharedManifest.get? p = some a ∧ service.pathEnabled p = true
      ∧ selects call (service.groupId p) = true
      ∧ (effectiveGroups call = none →
          service.pathCovered (covers service call sides.state) p = true) := by
  have henabled : ∀ q, (service.automaticBaseline sides.state).get? q = some a →
      sides.state.sharedManifest.get? q = some a ∧ service.pathEnabled q = true := by
    intro q hq
    rw [Service.automaticBaseline, Manifest.get?_restrict] at hq
    split at hq
    · next hen => exact ⟨hq, hen⟩
    · exact absurd hq (by simp)
  unfold compare selects covers at *
  cases hg : effectiveGroups call with
  | some groups =>
    simp only [hg, Service.manifestForGroups, Manifest.get?_restrict] at h
    split at h
    · next hsel =>
      obtain ⟨hshared, hen⟩ := henabled p h
      exact ⟨hshared, hen, by simpa [Service.groupId] using hsel, by simp⟩
    · exact absurd h (by simp)
  | none =>
    cases hl : effectiveLayouts service call with
    | some layouts =>
      simp only [hg, hl, Manifest.get?_restrict] at h
      split at h
      · next hcov =>
        obtain ⟨hshared, hen⟩ := henabled p h
        exact ⟨hshared, hen, by simp, fun _ => by simpa [Service.pathCovered] using hcov⟩
      · exact absurd h (by simp)
    | none =>
      simp only [hg, hl] at h
      obtain ⟨hshared, hen⟩ := henabled p h
      exact ⟨hshared, hen, by simp, fun _ => by simpa [Service.pathEnabled, Service.pathCovered] using hen⟩

theorem get?_localReport (p : Path) :
    (compare service call sides).localReport.artifacts.get? p
      = if p ∉ (compare service call sides).work.handledPaths then
          (compare service call sides).originalLocal.get? p
        else none :=
  (Manifest.get?_restrict _ _ p).trans (if_congr decide_eq_true_iff rfl rfl)

theorem get?_remoteReport (p : Path) :
    (compare service call sides).remoteReport.artifacts.get? p
      = if p ∉ (compare service call sides).work.handledPaths then
          (compare service call sides).originalRemote.get? p
        else none :=
  (Manifest.get?_restrict _ _ p).trans (if_congr decide_eq_true_iff rfl rfl)

theorem get?_baseline (p : Path) :
    (compare service call sides).baseline.get? p
      = if p ∉ (compare service call sides).work.handledPaths then
          (compare service call sides).physicalBaseline.get? p
        else none :=
  (Manifest.get?_restrict _ _ p).trans (if_congr decide_eq_true_iff rfl rfl)

theorem get?_physicalBaseline_of_groups {groups : Finset GroupId}
    (h : effectiveGroups call = some groups) (p : Path) :
    (compare service call sides).physicalBaseline.get? p
      = if service.groupId p ∈ groups ∧ service.pathEnabled p = true then
          sides.state.sharedManifest.get? p
        else none := by
  have hbase : (compare service call sides).physicalBaseline
      = service.manifestForGroups (service.automaticBaseline sides.state) groups := by
    unfold compare
    dsimp only
    rw [h]
  rw [hbase, Service.manifestForGroups, Service.automaticBaseline, Manifest.get?_restrict,
    Manifest.get?_restrict]
  by_cases hgid : service.groupId p ∈ groups
  · simp [hgid]
  · simp [hgid]

section Plan

variable {service call} (c : Comparison service call)

/-- The paths the plan compares. -/
def Comparison.paths : List Path :=
  planPaths c.localReport.artifacts c.remoteReport.artifacts c.baseline

/-- The action of the plan for a group. -/
def Comparison.action (gid : GroupId) : SaveReconcileAction :=
  groupAction service.registry.toSaveSelectionPolicy c.repairLocalGroupIds
    c.localReport.artifacts c.remoteReport.artifacts c.baseline gid

theorem get?_desiredLocal (p : Path) :
    c.desiredLocal.get? p
      = if p ∈ c.paths ∧ c.action (service.groupId p) = .download ∧ call.uploadOnly = false then
          c.remoteReport.artifacts.get? p
        else c.work.desiredLocal.get? p :=
  get?_applyPlan_fst ..

theorem get?_desiredRemote (p : Path) :
    c.desiredRemote.get? p
      = if p ∈ c.paths ∧ c.action (service.groupId p) = .upload then
          c.localReport.artifacts.get? p
        else c.work.desiredRemote.get? p :=
  get?_applyPlan_snd ..

theorem mem_plan_iff (entry : SaveReconcileEntry) :
    entry ∈ c.plan.entries
      ↔ ∃ p ∈ c.paths, entry = planEntry service.registry.toSaveSelectionPolicy
          c.repairLocalGroupIds c.localReport.artifacts c.remoteReport.artifacts c.baseline p :=
  mem_reconcilePlan_iff ..

/-- What the baseline of the plan holds at a compared path. -/
theorem get?_planBaseline {p : Path} (hp : p ∈ c.paths) :
    (if call.uploadOnly then uploadOnlyReconciledBaseline c.plan c.baseline
        else reconciledBaseline c.plan c.baseline).get? p
      = if call.uploadOnly then
          uploadOnlyBaselineValue (c.action (service.groupId p)) (c.localReport.artifacts.get? p)
            (c.remoteReport.artifacts.get? p) (c.baseline.get? p)
        else
          baselineValue (c.action (service.groupId p)) (c.localReport.artifacts.get? p)
            (c.remoteReport.artifacts.get? p) (c.baseline.get? p) := by
  split
  · exact (get?_uploadOnlyReconciledBaseline ..).trans (if_pos hp)
  · exact (get?_reconciledBaseline ..).trans (if_pos hp)

theorem get?_planBaseline_of_notMem {p : Path} (hp : p ∉ c.paths) :
    (if call.uploadOnly then uploadOnlyReconciledBaseline c.plan c.baseline
        else reconciledBaseline c.plan c.baseline).get? p = none := by
  obtain ⟨-, -, hb⟩ := get?_eq_none_of_notMem_planPaths _ _ _ hp
  split
  · exact ((get?_uploadOnlyReconciledBaseline ..).trans (if_neg hp)).trans hb
  · exact ((get?_reconciledBaseline ..).trans (if_neg hp)).trans hb

/-- A group that neither side was scanned for counts as unchanged. -/
theorem action_of_empty {gid : GroupId} (h : ∀ p, service.groupId p = gid →
    c.localReport.artifacts.get? p = none ∧ c.remoteReport.artifacts.get? p = none) :
    c.action gid = .unchanged := by
  unfold Comparison.action groupAction groupDecision
  refine if_pos ((groupManifest_eq_iff _ _ _).mpr ?_)
  intro p hp
  obtain ⟨hl, hr⟩ := h p ((mem_groupPathsOf_iff _ _ _ _ _ p).mp hp).2
  rw [hl, hr]

/-- The baseline of the compared paths is that of the plan, except inside containers. -/
theorem get?_selectedBaseline_of_not_contains {p : Path}
    (h : ∀ d ∈ c.work.descriptors, d.contains p = false) :
    (selectedBaseline c).get? p
      = (if call.uploadOnly then uploadOnlyReconciledBaseline c.plan c.baseline
          else reconciledBaseline c.plan c.baseline).get? p := by
  unfold selectedBaseline
  refine List.foldlRecOn (motive := fun (m : Manifest) => m.get? p = _) _ _ rfl ?_
  intro m hm d hd
  dsimp only
  split <;> simp [h d hd, hm]

/-- No file is desired at a path no layout supports. -/
def SupportedOnly : Prop :=
  ∀ p, service.registry.groupForPath p = none →
    c.desiredLocal.get? p = none ∧ c.desiredRemote.get? p = none

end Plan

theorem work_within :
    (compare service call sides).work.Within
      (containerDescriptors service.registry (compare service call sides).originalLocal
        (compare service call sides).originalRemote)
      (compare service call sides).originalLocal (compare service call sides).originalRemote :=
  prepareContainers_within _ _ _ _ _ _

/-- A container of the compared files belongs to a group in scope. -/
theorem inScope_of_mem_containerDescriptors {d : SaveGroupDescriptor}
    (h : d ∈ containerDescriptors service.registry (compare service call sides).originalLocal
        (compare service call sides).originalRemote) :
    d.contained = true ∧ InScope service call sides.state d.groupId
      ∧ ∃ p, service.registry.groupForPath p = some d := by
  obtain ⟨hcontained, p, hp, hfile⟩ := exists_path_of_mem_containerDescriptors _ _ _ h
  have hscope : pathInScope service call sides.state p = true := by
    by_contra hne
    rw [Bool.not_eq_true] at hne
    rcases hfile with hfile | hfile
    · exact hfile (by rw [get?_originalLocal, hne]; rfl)
    · exact hfile (get?_originalRemote_of_notInScope service call sides hne)
  exact ⟨hcontained, Service.groupId_of_descriptor hp ▸ inScope_of_pathInScope hscope, p, hp⟩

/-- A container holds no path of a group outside the scope. -/
theorem not_contains_of_notInScope {p : Path} {e : SaveGroupDescriptor}
    (he : service.registry.groupForPath p = some e)
    (h : pathInScope service call sides.state p = false) :
    ∀ d ∈ (compare service call sides).work.descriptors, d.contains p = false := by
  intro d hd
  obtain ⟨hcontained, hscope, q, hq⟩ := inScope_of_mem_containerDescriptors service call sides
    ((work_within service call sides).descriptors_sub d hd)
  by_contra hcontains
  rw [Bool.not_eq_false] at hcontains
  have hgroup := service.registry.container_closed q p d e hq hcontained hcontains he
  rw [pathInScope_of_inScope he (hgroup ▸ hscope)] at h
  exact absurd h (by simp)

/-- **Desired manifests.** At a supported path outside the scope nothing is desired on either
    side. -/
theorem get?_desired_of_notInScope {p : Path} {e : SaveGroupDescriptor}
    (he : service.registry.groupForPath p = some e)
    (h : pathInScope service call sides.state p = false) :
    (compare service call sides).desiredLocal.get? p = none
      ∧ (compare service call sides).desiredRemote.get? p = none := by
  have hnot := not_contains_of_notInScope service call sides he h
  have hlocal : (compare service call sides).originalLocal.get? p = none := by
    rw [get?_originalLocal, h]
    rfl
  have hremote := get?_originalRemote_of_notInScope service call sides h
  have hworkLocal := ((work_within service call sides).local_outside p hnot).trans hlocal
  have hworkRemote := ((work_within service call sides).remote_outside p hnot).trans hremote
  rw [get?_desiredLocal, get?_desiredRemote, get?_localReport, get?_remoteReport, hlocal, hremote,
    hworkLocal, hworkRemote]
  simp only [ite_self, and_self]

end Comparison

/-! ### Which groups a call speaks about -/

section Affected

variable (service : Service) (call : ReconcileCall) (env : ReconcileEnv) (sides : Sides)

theorem mem_affectedLayouts_iff (gid : GroupId) :
    gid ∈ (affectedLayouts sides.state (compare service call sides)).keys
      ↔ (∃ p ∈ (compare service call sides).paths, ∃ d,
            service.registry.groupForPath p = some d ∧ d.groupId = gid)
        ∨ (∃ d ∈ (compare service call sides).work.descriptors, d.groupId = gid)
        ∨ ∃ g, sides.state.groups.get? gid = some g ∧ hintedGroup service call g = true := by
  unfold affectedLayouts
  simp only [Dict.mem_keys_insertAll, Dict.keys_empty, List.not_mem_nil, false_or, or_assoc]
  refine or_congr ?_ (or_congr ?_ ?_)
  · constructor
    · rintro ⟨entry, hentry, layoutId, hf⟩
      obtain ⟨d, hd, heq⟩ := Option.map_eq_some_iff.mp hf
      obtain ⟨p, hp, rfl⟩ := (mem_plan_iff (compare service call sides) entry).mp hentry
      exact ⟨p, hp, d, hd, congrArg Prod.fst heq⟩
    · rintro ⟨p, hp, d, hd, rfl⟩
      refine ⟨_, (mem_plan_iff (compare service call sides) _).mpr ⟨p, hp, rfl⟩, d.layoutId, ?_⟩
      exact Option.map_eq_some_iff.mpr ⟨d, hd, rfl⟩
  · simp
  · constructor
    · rintro ⟨g, hg, layoutId, heq⟩
      obtain ⟨hmem, hhint⟩ := List.mem_filter.mp hg
      have hid : g.groupId = gid := congrArg Prod.fst (Option.some.inj heq)
      exact ⟨g, hid ▸ (Table.mem_toList_iff _ g).mp hmem, hhint⟩
    · rintro ⟨g, hg, hhint⟩
      have hid : g.groupId = gid := Table.key_of_get? hg
      refine ⟨g, List.mem_filter.mpr ⟨(Table.mem_toList_iff _ g).mpr (hid ▸ hg), hhint⟩,
        g.layoutId, by rw [hid]⟩

/-- A file desired or kept in the baseline belongs to an affected group. -/
theorem mem_affectedLayouts_of_file {p : Path} {d : SaveGroupDescriptor}
    (hd : service.registry.groupForPath p = some d)
    (h : (selectedBaseline (compare service call sides)).get? p ≠ none
      ∨ (compare service call sides).desiredLocal.get? p ≠ none
      ∨ (compare service call sides).desiredRemote.get? p ≠ none) :
    d.groupId ∈ (affectedLayouts sides.state (compare service call sides)).keys := by
  rw [mem_affectedLayouts_iff]
  by_cases hin : ∃ e ∈ (compare service call sides).work.descriptors, e.contains p = true
  · -- inside a container every file is of the container's group
    obtain ⟨e, he, hcontains⟩ := hin
    obtain ⟨hcontained, -, q, hq⟩ := inScope_of_mem_containerDescriptors service call sides
      ((work_within service call sides).descriptors_sub e he)
    exact Or.inr (Or.inl ⟨e, he,
      (service.registry.container_closed q p e d hq hcontained hcontains hd).symm⟩)
  · push Not at hin
    have hout : ∀ e ∈ (compare service call sides).work.descriptors, e.contains p = false :=
      fun e he => by simpa using hin e he
    have hwork := work_within service call sides
    have hhandled : p ∉ (compare service call sides).work.handledPaths := by
      intro hp
      obtain ⟨e, he, hc⟩ := hwork.handled p hp
      exact hin e he hc
    suffices hmem : p ∈ (compare service call sides).paths from
      Or.inl ⟨p, hmem, d, hd, rfl⟩
    by_contra hnot
    obtain ⟨hl, hr, -⟩ := get?_eq_none_of_notMem_planPaths _ _ _ hnot
    have hlocal : (compare service call sides).originalLocal.get? p = none := by
      rwa [get?_localReport, if_pos hhandled] at hl
    have hremote : (compare service call sides).originalRemote.get? p = none := by
      rwa [get?_remoteReport, if_pos hhandled] at hr
    rcases h with h | h | h
    · rw [get?_selectedBaseline_of_not_contains _ hout] at h
      exact h (get?_planBaseline_of_notMem _ hnot)
    · rw [get?_desiredLocal, if_neg (fun hc => hnot hc.1), hwork.local_outside p hout] at h
      exact h hlocal
    · rw [get?_desiredRemote, if_neg (fun hc => hnot hc.1), hwork.remote_outside p hout] at h
      exact h hremote

/-- A group state that observed, of a group, the given manifests. -/
def Observes (g : SaveGroupState) (gid : GroupId) (localSide remoteSide : Manifest) : Prop :=
  g.dirtyPathHints = []
    ∧ (∃ l, g.localObserved = some l
        ∧ l.artifacts = groupFiles service.registry.toSaveSelectionPolicy localSide gid)
    ∧ ∃ r, g.remoteObserved = some r
        ∧ r.artifacts = groupFiles service.registry.toSaveSelectionPolicy remoteSide gid

/-- **Recorded group states.** A refreshed group is an affected one, and its state holds the
    files of the group in the desired manifests. -/
theorem refreshedGroups_spec (hsup : SupportedOnly (compare service call sides))
    {gid : GroupId} {g : SaveGroupState}
    (h : (refreshedGroups env sides.state (compare service call sides)).get? gid
      = some g) :
    gid ∈ (affectedLayouts sides.state (compare service call sides)).keys
      ∧ Observes service g gid (compare service call sides).desiredLocal
          (compare service call sides).desiredRemote := by
  have hfiles : ∀ p d, service.registry.groupForPath p = some d → d.groupId = gid →
      (selectedBaseline (compare service call sides)).get? p ≠ none
        ∨ (compare service call sides).desiredLocal.get? p ≠ none
        ∨ (compare service call sides).desiredRemote.get? p ≠ none →
      gid ∈ (affectedLayouts sides.state (compare service call sides)).keys :=
    fun p d hd hg hfile => hg ▸ mem_affectedLayouts_of_file service call sides hd hfile
  have hlocal : ∀ p, (compare service call sides).desiredLocal.get? p ≠ none →
      (service.registry.groupForPath p).isSome := by
    intro p hp
    rw [Option.isSome_iff_ne_none]
    exact fun hnone => hp (hsup p hnone).1
  have hremote : ∀ p, (compare service call sides).desiredRemote.get? p ≠ none →
      (service.registry.groupForPath p).isSome := by
    intro p hp
    rw [Option.isSome_iff_ne_none]
    exact fun hnone => hp (hsup p hnone).2
  unfold refreshedGroups at h
  rw [Table.get?_override, Option.or_eq_some_iff] at h
  rcases h with h | ⟨hnone, h⟩
  · rcases Table.get?_putAll_cases (groupStatesFromManifests
        service.registry.toSaveSelectionPolicy (selectedBaseline (compare service call sides))
        (compare service call sides).desiredLocal (compare service call sides).desiredRemote
        env.timestamp) ((compare service call sides).work.descriptors.map
          (containerGroupState env sides.state (compare service call sides))) gid with
      ⟨-, hget⟩ | ⟨a, ha, hkey, hget⟩
    · -- computed from the files of the group
      rw [hget] at h
      obtain ⟨paths, d, hstate, ⟨p, hp, hpd, hfile⟩, hpaths⟩ := groupStatesFromManifests_spec h
      refine ⟨hfiles p d hpd hp ?_, ?_⟩
      · exact hfile
      · subst hstate
        refine ⟨rfl, ⟨_, rfl, ?_⟩, ⟨_, rfl, ?_⟩⟩
        · exact hpaths _ (fun q hq => ⟨Or.inr (Or.inl hq), hlocal q hq⟩)
        · exact hpaths _ (fun q hq => ⟨Or.inr (Or.inr hq), hremote q hq⟩)
    · -- the group of a container
      rw [hget, Option.some.injEq] at h
      obtain ⟨d, hd, rfl⟩ := List.mem_map.mp ha
      have hgid : d.groupId = gid := hkey
      subst h
      refine ⟨(mem_affectedLayouts_iff service call sides gid).mpr (Or.inr (Or.inl ⟨d, hd, hgid⟩)),
        rfl, ⟨_, rfl, ?_⟩, ⟨_, rfl, ?_⟩⟩
      · rw [← hgid]
      · rw [← hgid]
  · -- no file anywhere: the group is recorded as empty
    rw [Table.get?_collect] at h
    split at h
    · next hmem =>
      obtain ⟨layoutId, -, rfl⟩ := Option.map_eq_some_iff.mp h
      have hempty : ∀ p, service.groupId p = gid →
          (compare service call sides).desiredLocal.get? p = none
            ∧ (compare service call sides).desiredRemote.get? p = none := by
        intro p hp
        cases hd : service.registry.groupForPath p with
        | none => exact hsup p hd
        | some d =>
          rw [Service.groupId_of_descriptor hd] at hp
          rcases Table.get?_putAll_cases (groupStatesFromManifests
              service.registry.toSaveSelectionPolicy
              (selectedBaseline (compare service call sides))
              (compare service call sides).desiredLocal (compare service call sides).desiredRemote
              env.timestamp) ((compare service call sides).work.descriptors.map
                (containerGroupState env sides.state (compare service call sides))) gid with
            ⟨-, hget⟩ | ⟨a, -, -, hget⟩
          · rw [hget, ← hp] at hnone
            exact (groupStatesFromManifests_eq_none hd hnone).2
          · exact absurd (hget.symm.trans hnone) (by simp)
      refine ⟨hmem, rfl, ⟨_, rfl, ?_⟩, ⟨_, rfl, ?_⟩⟩
      · exact (groupFiles_eq_nil_iff.mpr fun p hp => (hempty p hp).1).symm
      · exact (groupFiles_eq_nil_iff.mpr fun p hp => (hempty p hp).2).symm
    · exact absurd h (by simp)

/-- Every affected group is recorded. -/
theorem exists_refreshed_of_affected {gid : GroupId}
    (h : gid ∈ (affectedLayouts sides.state (compare service call sides)).keys) :
    (refreshedGroups env sides.state (compare service call sides)).get? gid ≠ none := by
  obtain ⟨layoutId, hget⟩ := (Dict.mem_keys_iff _ _).mp h
  unfold refreshedGroups
  rw [Table.get?_override, Table.get?_collect, if_pos h, hget]
  cases ((groupStatesFromManifests service.registry.toSaveSelectionPolicy
    (selectedBaseline (compare service call sides)) _ _ _).putAll _).get? gid <;> simp

end Affected

/-! ### The state a call writes -/

section NextState

variable {service : Service} {call : ReconcileCall}
variable (env : ReconcileEnv) (state : SaveSyncState) (c : Comparison service call)

/-- The state before the conflicts of this call are recorded. -/
def settledState (obsolete : List SaveConflictRecord) : SaveSyncState :=
  resolveAffected env state c
    (if obsolete.isEmpty then committedState env state c
      else retireObsolete env obsolete (committedState env state c))

theorem get?_settledState (obsolete : List SaveConflictRecord) (gid : GroupId) :
    (settledState env state c obsolete).groups.get? gid
      = if gid ∈ obsolete.map SaveConflictRecord.groupId then none
        else (committedState env state c).groups.get? gid := by
  unfold settledState
  cases obsolete with
  | nil => rfl
  | cons conflict rest =>
    show ((committedState env state c).groups.keep _).get? gid = _
    rw [Table.get?_keep]
    by_cases hgid : gid ∈ (conflict :: rest).map SaveConflictRecord.groupId
    · rw [if_pos hgid, if_neg (by rw [decide_eq_true_iff]; exact not_not.mpr hgid)]
    · rw [if_neg hgid, if_pos (decide_eq_true hgid)]

/-- **Recording conflicts.** Recording the conflicts of the refreshed groups keeps the manifest
    and the container baselines, speaks about refreshed groups only, and leaves what they
    observed. -/
structure Recorded (settled next : SaveSyncState) : Prop where
  manifest : next.sharedManifest = settled.sharedManifest
  containers : next.containerBaselines = settled.containerBaselines
  others : ∀ gid, (refreshedGroups env state c).get? gid = none →
    next.groups.get? gid = settled.groups.get? gid
  present : ∀ gid, settled.groups.get? gid ≠ none → next.groups.get? gid ≠ none
  observed : ∀ gid g, next.groups.get? gid = some g → settled.groups.get? gid = some g
    ∨ ∃ old, (refreshedGroups env state c).get? gid = some old ∧ g.dirtyPathHints = []
        ∧ g.localObserved = old.localObserved ∧ g.remoteObserved = old.remoteObserved
  conflicts : ∀ seen : SaveConflictRecord → Bool,
    (∀ a b : SaveConflictRecord, a.groupId = b.groupId → a.conflictId = b.conflictId →
      seen a = seen b) →
    (∀ item : SaveConflictRecord, (refreshedGroups env state c).get? item.groupId ≠ none →
      seen item = false) →
    next.conflicts.filter seen = settled.conflicts.filter seen

theorem nextState_recorded (obsolete : List SaveConflictRecord) :
    Recorded env state c (settledState env state c obsolete) (nextState env state c obsolete) := by
  refine List.foldlRecOn _ _ ?_ ?_
  · exact ⟨rfl, rfl, fun _ _ => rfl, fun _ h => h, fun _ _ h => Or.inl h, fun _ _ _ => rfl⟩
  · intro next ih group hgroup
    obtain ⟨hmem, -⟩ := List.mem_filter.mp hgroup
    have hrow := (Table.mem_toList_iff _ group).mp hmem
    have hrefreshed : (refreshedGroups env state c).get? group.groupId ≠ none := by simp [hrow]
    unfold recordGroupConflict
    split
    · next l r hl hr =>
      refine ⟨ih.manifest, ih.containers, ?_, ?_, ?_, ?_⟩
      · intro gid hnone
        have hne : gid ≠ group.groupId := fun heq => hrefreshed (heq ▸ hnone)
        rw [get?_recordConflict, if_neg hne, ih.others gid hnone]
      · intro gid hsome
        rw [get?_recordConflict]
        split
        · exact Option.some_ne_none _
        · exact ih.present gid hsome
      · intro gid g hg
        rw [get?_recordConflict] at hg
        split at hg
        · next heq =>
          rw [Option.some.injEq] at hg
          subst hg
          exact Or.inr ⟨group, heq ▸ hrow, rfl, hl.symm, hr.symm⟩
        · exact ih.observed gid g hg
      · intro seen hcongr hunseen
        rw [filter_recordConflict _ _ _ _ _ hcongr, ih.conflicts seen hcongr hunseen]
        intro item hitem
        exact hunseen item (hitem ▸ hrefreshed)
    · exact ih

/-- Conflicts of groups the call does not speak about, and that it was not asked to retire, are
    settled as they were. -/
theorem filter_settledState (obsolete : List SaveConflictRecord)
    {seen : SaveConflictRecord → Bool}
    (hcongr : ∀ a b : SaveConflictRecord, a.groupId = b.groupId → a.conflictId = b.conflictId →
      seen a = seen b)
    (haffected : ∀ item : SaveConflictRecord, item.groupId ∈ (affectedLayouts state c).keys →
      seen item = false)
    (hobsolete : ∀ item : SaveConflictRecord,
      item.conflictId ∈ obsolete.map SaveConflictRecord.conflictId → seen item = false) :
    (settledState env state c obsolete).conflicts.filter seen = state.conflicts.filter seen := by
  have hresolve : ∀ next : SaveSyncState, (resolveAffected env state c next).conflicts.filter seen
      = next.conflicts.filter seen := by
    intro next
    refine filter_map_of_unseen ?_ ?_ _
    · intro item hseen
      refine if_neg ?_
      intro h
      simp only [Bool.and_eq_true, decide_eq_true_eq] at h
      exact absurd hseen (by simp [haffected item h.1.2])
    · intro item hseen
      split
      · rw [← hseen]
        exact hcongr _ _ rfl rfl
      · exact hseen
  unfold settledState
  rw [hresolve]
  split
  · rfl
  · refine filter_map_of_unseen ?_ ?_ _
    · intro item hseen
      refine if_neg ?_
      intro h
      rw [Bool.and_eq_true, decide_eq_true_iff] at h
      exact absurd hseen (by simp [hobsolete item h.1])
    · intro item hseen
      split
      · rw [← hseen]
        exact hcongr _ _ rfl rfl
      · exact hseen

theorem get?_nextState_sharedManifest (obsolete : List SaveConflictRecord) {p : Path}
    {d : SaveGroupDescriptor} (hd : service.registry.groupForPath p = some d) :
    (nextState env state c obsolete).sharedManifest.get? p
      = ((selectedBaseline c).get? p).or
          (if d.groupId ∉ (affectedLayouts state c).keys then state.sharedManifest.get? p
            else none) := by
  have hcommitted : (nextState env state c obsolete).sharedManifest
      = (committedState env state c).sharedManifest := by
    rw [(nextState_recorded env state c obsolete).manifest]
    unfold settledState
    split <;> rfl
  rw [hcommitted]
  show ((state.sharedManifest.restrict _).update _).get? p = _
  rw [Manifest.get?_update, Manifest.get?_restrict, hd, Service.groupId_of_descriptor hd]
  simp

theorem get?_nextState_containerBaselines (obsolete : List SaveConflictRecord)
    (id : ContainerId) :
    (nextState env state c obsolete).containerBaselines.get? id
      = (c.work.baselines.get? id).or
          (if id ∉ c.work.invalidatedContainerIds then state.containerBaselines.get? id
            else none) := by
  have hcommitted : (nextState env state c obsolete).containerBaselines
      = (committedState env state c).containerBaselines := by
    rw [(nextState_recorded env state c obsolete).containers]
    unfold settledState
    split <;> rfl
  rw [hcommitted]
  show ((state.containerBaselines.keep _).override _).get? id = _
  rw [Table.get?_override, Table.get?_keep]
  simp

theorem filter_nextState (obsolete : List SaveConflictRecord) {seen : SaveConflictRecord → Bool}
    (hcongr : ∀ a b : SaveConflictRecord, a.groupId = b.groupId → a.conflictId = b.conflictId →
      seen a = seen b)
    (hrefreshed : ∀ item : SaveConflictRecord,
      (refreshedGroups env state c).get? item.groupId ≠ none → seen item = false)
    (haffected : ∀ item : SaveConflictRecord, item.groupId ∈ (affectedLayouts state c).keys →
      seen item = false)
    (hobsolete : ∀ item : SaveConflictRecord,
      item.conflictId ∈ obsolete.map SaveConflictRecord.conflictId → seen item = false) :
    (nextState env state c obsolete).conflicts.filter seen = state.conflicts.filter seen :=
  ((nextState_recorded env state c obsolete).conflicts seen hcongr hrefreshed).trans
    (filter_settledState env state c obsolete hcongr haffected hobsolete)

/-- A group state that the next state does not owe to the old one is that of a refreshed
    group. -/
theorem get?_nextState_groups (obsolete : List SaveConflictRecord) {gid : GroupId}
    {g : SaveGroupState} (haffected : gid ∈ (affectedLayouts state c).keys)
    (h : (nextState env state c obsolete).groups.get? gid = some g) :
    ∃ old, (refreshedGroups env state c).get? gid = some old
      ∧ (g = old ∨ g.dirtyPathHints = [] ∧ g.localObserved = old.localObserved
          ∧ g.remoteObserved = old.remoteObserved) := by
  rcases (nextState_recorded env state c obsolete).observed gid g h with
    hsettled | ⟨old, hold, hrest⟩
  · rw [get?_settledState] at hsettled
    split at hsettled
    · exact absurd hsettled (by simp)
    · have hcommitted : ((state.groups.keep _).override (refreshedGroups env state c)).get? gid
          = some g := hsettled
      rw [Table.get?_override, Table.get?_keep, if_neg (by simpa using haffected), Option.or_none]
        at hcommitted
      exact ⟨g, hcommitted, Or.inl rfl⟩
  · exact ⟨old, hold, Or.inr hrest⟩

end NextState

/-! ### A completed call -/

section Completed

variable (service : Service) (call : ReconcileCall) (env : ReconcileEnv) (sides : Sides)

/-- Everything a call that returned a report did. -/
structure Completed (after : Sides) (obsolete : List SaveConflictRecord) : Prop where
  retires : service.obsoleteWholeLayoutConflicts sides.state ∅
    (fun id => id ∈ call.obsoleteConflictIds) = .ok obsolete
  retired_scanned : ∀ conflict ∈ obsolete,
    covers service call sides.state conflict.layoutId = true
  localSide : after.localSide =
    if call.uploadOnly then sides.localSide
    else promote sides.localSide (compare service call sides).originalLocal
      (compare service call sides).desiredLocal
  remoteSide : after.remoteSide = promote sides.remoteSide
    (compare service call sides).originalRemote (compare service call sides).desiredRemote
  local_verified : (service.scanLayouts (covers service call sides.state) none
      after.localSide).artifacts
    = replaceSelectedGroups service call (compare service call sides).completeLocal
        (compare service call sides).desiredLocal
  remote_verified : (service.scanLayouts (covers service call sides.state)
      (compare service call sides).remoteScope after.remoteSide).artifacts
    = replaceSelectedGroups service call (compare service call sides).completeRemote
        (compare service call sides).desiredRemote
  state : ∃ cursor, after.state =
    { nextState env sides.state (compare service call sides) obsolete with
      quickSyncCursorGeneration := cursor }

theorem reconcileOnce_completed {report : SaveReconcileReport} {after : Sides}
    (h : reconcileOnce service call env sides = .ok (some (report, after))) :
    ∃ obsolete, Completed service call env sides after obsolete := by
  unfold reconcileOnce at h
  split at h
  · exact absurd h (by simp)
  split at h
  · exact absurd h (by simp)
  split at h
  · exact absurd h (by simp)
  split at h
  · exact absurd h (by simp)
  next obsolete hretires =>
  split at h
  · exact absurd h (by simp)
  next hscan =>
  split at h
  · exact absurd h (by simp)
  split at h
  · exact absurd h (by simp)
  split at h
  · exact absurd h (by simp)
  unfold commitComparison at h
  rcases ite_eq_iff.mp h with ⟨-, h⟩ | ⟨hverified, h⟩
  · exact absurd h (by simp)
  push Not at hverified
  simp only [Except.ok.injEq, Option.some.injEq, Prod.mk.injEq] at h
  obtain ⟨-, rfl⟩ := h
  refine ⟨obsolete, hretires, ?_, rfl, rfl, hverified.1, hverified.2, _, rfl⟩
  intro conflict hmem
  have hnonempty : obsolete.isEmpty = false := by
    cases obsolete with
    | nil => exact absurd hmem (by simp)
    | cons _ _ => rfl
  rw [hnonempty] at hscan
  cases hl : effectiveLayouts service call with
  | none =>
    rw [hl] at hscan
    exact absurd rfl hscan
  | some layouts =>
    rw [hl] at hscan
    simp only [covers, hl, decide_eq_true_eq]
    by_contra hout
    refine hscan ?_
    simp only [Bool.not_false, Bool.true_and, Option.all_some, List.any_eq_true]
    exact ⟨conflict, hmem, by simpa using hout⟩

variable {service call env sides}
variable {after : Sides} {obsolete : List SaveConflictRecord}

/-- But for the journal cursor, the state after a call is the next state. -/
theorem Completed.next (h : Completed service call env sides after obsolete) :
    after.state.groups = (nextState env sides.state (compare service call sides) obsolete).groups
      ∧ after.state.sharedManifest
        = (nextState env sides.state (compare service call sides) obsolete).sharedManifest
      ∧ after.state.containerBaselines
        = (nextState env sides.state (compare service call sides) obsolete).containerBaselines
      ∧ after.state.conflicts
        = (nextState env sides.state (compare service call sides) obsolete).conflicts := by
  obtain ⟨cursor, hstate⟩ := h.state
  rw [hstate]
  generalize nextState env sides.state (compare service call sides) obsolete = next
  exact ⟨rfl, rfl, rfl, rfl⟩

theorem get?_promote (side current desired : Manifest) (p : Path) :
    (promote side current desired).get? p
      = if current.get? p = desired.get? p then side.get? p else desired.get? p := by
  by_cases h : current.get? p = desired.get? p
  · simp [promote, h]
  · simp [promote, h]

theorem get?_replaceSelectedGroups (complete selected : Manifest) {p : Path}
    (h : selects call (service.groupId p) = true) :
    (replaceSelectedGroups service call complete selected).get? p = selected.get? p := by
  unfold replaceSelectedGroups selects at *
  cases hg : effectiveGroups call with
  | none => rfl
  | some groups =>
    have hmem : service.groupId p ∈ groups := by simpa [hg] using h
    simp [hmem]

/-- A verified call desires no file that no layout supports. -/
theorem Completed.supportedOnly (h : Completed service call env sides after obsolete) :
    SupportedOnly (compare service call sides) := by
  have hnone : ∀ (covered : LayoutId → Bool) (only : Option (Finset Path)) (side complete
      selected : Manifest) (p : Path), service.registry.groupForPath p = none →
      (service.scanLayouts covered only side).artifacts
        = replaceSelectedGroups service call complete selected → selected.get? p = none := by
    intro covered only side complete selected p hp hscan
    have hget : (service.scanLayouts covered only side).artifacts.get? p
        = (replaceSelectedGroups service call complete selected).get? p := by rw [hscan]
    have hscanned : (service.scanLayouts covered only side).artifacts.get? p = none := by
      simp [Service.scanLayouts, Service.pathCovered, hp]
    rw [hscanned, replaceSelectedGroups] at hget
    split at hget
    · exact hget.symm
    · rw [Manifest.get?_update] at hget
      exact (Option.or_eq_none_iff.mp hget.symm).1
  intro p hp
  exact ⟨hnone _ _ _ _ _ p hp h.local_verified, hnone _ _ _ _ _ p hp h.remote_verified⟩

/-- Nothing is desired at a path outside the scope. -/
theorem Completed.desired_outside (h : Completed service call env sides after obsolete) {p : Path}
    (hp : pathInScope service call sides.state p = false) :
    (compare service call sides).desiredLocal.get? p = none
      ∧ (compare service call sides).desiredRemote.get? p = none := by
  cases hd : service.registry.groupForPath p with
  | none => exact h.supportedOnly p hd
  | some d => exact get?_desired_of_notInScope service call sides hd hp

/-- The files outside the scope stay as they are. -/
theorem Completed.files_outside (h : Completed service call env sides after obsolete) {p : Path}
    (hp : pathInScope service call sides.state p = false) :
    after.localSide.get? p = sides.localSide.get? p
      ∧ after.remoteSide.get? p = sides.remoteSide.get? p := by
  obtain ⟨hlocal, hremote⟩ := h.desired_outside hp
  constructor
  · rw [h.localSide]
    split
    · rfl
    · rw [get?_promote, hlocal, get?_originalLocal, hp]
      rfl
  · rw [h.remoteSide, get?_promote, hremote, get?_originalRemote_of_notInScope _ _ _ hp]
    rfl

/-- What a call observed of a group it selects is what its last scan found. -/
theorem Completed.groupFiles_desired (h : Completed service call env sides after obsolete)
    {gid : GroupId} (hsel : selects call gid = true) :
    groupFiles service.registry.toSaveSelectionPolicy (compare service call sides).desiredLocal gid
        = groupFiles service.registry.toSaveSelectionPolicy
          (service.scanLayouts (covers service call sides.state) none after.localSide).artifacts gid
      ∧ groupFiles service.registry.toSaveSelectionPolicy
          (compare service call sides).desiredRemote gid
        = groupFiles service.registry.toSaveSelectionPolicy
          (service.scanLayouts (covers service call sides.state)
            (compare service call sides).remoteScope after.remoteSide).artifacts gid := by
  constructor
  · refine groupFiles_congr ?_
    intro p hp
    rw [h.local_verified]
    have hp' : service.groupId p = gid := hp
    exact (get?_replaceSelectedGroups _ _ (hp' ▸ hsel)).symm
  · refine groupFiles_congr ?_
    intro p hp
    rw [h.remote_verified]
    have hp' : service.groupId p = gid := hp
    exact (get?_replaceSelectedGroups _ _ (hp' ▸ hsel)).symm

/-- The group states after a call. -/
theorem Completed.get?_groups (h : Completed service call env sides after obsolete)
    {gid : GroupId}
    (hgid : gid ∉ (affectedLayouts sides.state (compare service call sides)).keys) :
    after.state.groups.get? gid
      = if gid ∈ obsolete.map SaveConflictRecord.groupId then none
        else sides.state.groups.get? gid := by
  obtain ⟨hgroups, -⟩ := h.next
  have hnone : (refreshedGroups env sides.state (compare service call sides)).get? gid = none := by
    by_contra hne
    obtain ⟨g, hg⟩ := Option.ne_none_iff_exists'.mp hne
    exact hgid (refreshedGroups_spec service call env sides h.supportedOnly hg).1
  rw [hgroups, (nextState_recorded env sides.state (compare service call sides) obsolete).others gid hnone,
    get?_settledState]
  refine if_congr Iff.rfl rfl ?_
  show ((sides.state.groups.keep _).override _).get? gid = _
  rw [Table.get?_override, hnone, Option.none_or, Table.get?_keep, if_pos (decide_eq_true hgid)]

end Completed

/-! ### The frame -/

section Frame

variable (service : Service) (call : ReconcileCall) (sides after : Sides)

/-- A group of an obsolete conflict the call was asked to retire. -/
def RetiredGroup (gid : GroupId) : Prop :=
  ∃ obsolete, service.obsoleteWholeLayoutConflicts sides.state ∅
      (fun id => id ∈ call.obsoleteConflictIds) = .ok obsolete
    ∧ gid ∈ obsolete.map SaveConflictRecord.groupId

/-- Nothing of a group changed: its files, its state, its entries in the shared manifest, the
    baselines of its containers and its conflict records, except those to be retired. -/
structure GroupUntouched (gid : GroupId) : Prop where
  localFiles : ∀ p, service.groupId p = gid → after.localSide.get? p = sides.localSide.get? p
  remoteFiles : ∀ p, service.groupId p = gid → after.remoteSide.get? p = sides.remoteSide.get? p
  groupState : ¬ RetiredGroup service call sides gid →
    after.state.groups.get? gid = sides.state.groups.get? gid
  baseline : ∀ p, (service.registry.groupForPath p).isSome → service.groupId p = gid →
    after.state.sharedManifest.get? p = sides.state.sharedManifest.get? p
  containers : ∀ p d, service.registry.groupForPath p = some d → d.groupId = gid →
    after.state.containerBaselines.get? d.containerId
      = sides.state.containerBaselines.get? d.containerId
  conflicts : after.state.conflicts.filter (fun conflict =>
      conflict.groupId = gid && conflict.conflictId ∉ call.obsoleteConflictIds)
    = sides.state.conflicts.filter (fun conflict =>
      conflict.groupId = gid && conflict.conflictId ∉ call.obsoleteConflictIds)

/-- **The frame of a scoped call.** A group outside the scope is untouched, and a group state the
    call recorded holds exactly the files that the call's own scan of the group found. -/
structure StaysInScope : Prop where
  frame : ∀ gid, ¬ InScope service call sides.state gid →
    GroupUntouched service call sides after gid
  recorded : ∀ gid g, after.state.groups.get? gid = some g →
    sides.state.groups.get? gid ≠ some g →
      InScope service call sides.state gid
        ∧ (∃ l, g.localObserved = some l
            ∧ l.artifacts = groupFiles service.registry.toSaveSelectionPolicy
                (service.scanLayouts (covers service call sides.state) none
                  after.localSide).artifacts gid)
        ∧ ∃ r, g.remoteObserved = some r
            ∧ r.artifacts = groupFiles service.registry.toSaveSelectionPolicy
                (service.scanLayouts (covers service call sides.state)
                  (compare service call sides).remoteScope after.remoteSide).artifacts gid

/-- What a call takes up from the stored state lies in the layouts it scans: the layout of every
    group it takes up for a dirty hint, and that of every baseline path of a selected group. -/
structure ScopeCovers (state : SaveSyncState) : Prop where
  hints : ∀ gid g, state.groups.get? gid = some g → hintedGroup service call g = true →
    covers service call state g.layoutId = true
  baseline : ∀ groups, effectiveGroups call = some groups → ∀ p d,
    state.sharedManifest.get? p ≠ none → service.registry.groupForPath p = some d →
    service.layoutEnabled d.layoutId = true → d.groupId ∈ groups →
      covers service call state d.layoutId = true

variable {service call sides after}

/-- A hinted group has a path of its own. -/
theorem exists_hint_of_hintedGroup {g : SaveGroupState} (h : hintedGroup service call g = true) :
    selects call g.groupId = true ∧ ∃ hint ∈ g.dirtyPathHints, ∃ d,
      service.registry.groupForPath hint = some d ∧ d.groupId = g.groupId
        ∧ d.layoutId = g.layoutId := by
  simp only [hintedGroup, Bool.and_eq_true, List.any_eq_true, Option.any_eq_true,
    decide_eq_true_eq] at h
  obtain ⟨⟨-, hsel⟩, hint, hmem, d, hd, hgroup, hlayout⟩ := h
  exact ⟨hsel, hint, hmem, d, hd, hgroup, hlayout⟩

/-- A compared path is in scope, when the selected baseline is. -/
theorem inScope_of_mem_paths (hcovers : ScopeCovers service call sides.state) {p : Path}
    {d : SaveGroupDescriptor} (hp : p ∈ (compare service call sides).paths)
    (hd : service.registry.groupForPath p = some d) :
    InScope service call sides.state d.groupId := by
  suffices hscope : pathInScope service call sides.state p = true from
    Service.groupId_of_descriptor hd ▸ inScope_of_pathInScope hscope
  by_contra hne
  rw [Bool.not_eq_true] at hne
  rw [Comparison.paths, mem_planPaths_iff, get?_localReport, get?_remoteReport, get?_baseline,
    get?_originalLocal, get?_originalRemote_of_notInScope _ _ _ hne, hne] at hp
  simp only [Bool.false_eq_true, if_false, ite_self, ne_eq, not_true_eq_false, false_or] at hp
  split at hp
  · obtain ⟨a, ha⟩ := Option.ne_none_iff_exists'.mp hp
    obtain ⟨hshared, henabled, hsel, hcov⟩ := get?_physicalBaseline service call sides ha
    rw [pathInScope, hsel, Bool.and_true] at hne
    cases hg : effectiveGroups call with
    | none => exact absurd (hcov hg) (by simp [hne])
    | some groups =>
      have hmem : d.groupId ∈ groups := by
        simpa [selects, hg, Service.groupId_of_descriptor hd] using hsel
      have hlayout := hcovers.baseline groups hg p d (by simp [hshared]) hd
        (by simpa [Service.pathEnabled, hd] using henabled) hmem
      rw [pathCovered_iff hd, hlayout] at hne
      exact absurd hne (by simp)
  · exact hp rfl

/-- With a covering scope, a call speaks only about groups in scope. -/
theorem inScope_of_affected (hcovers : ScopeCovers service call sides.state) {gid : GroupId}
    (h : gid ∈ (affectedLayouts sides.state (compare service call sides)).keys) :
    InScope service call sides.state gid := by
  rcases (mem_affectedLayouts_iff service call sides gid).mp h with
    ⟨p, hp, d, hd, rfl⟩ | ⟨d, hd, rfl⟩ | ⟨g, hg, hhint⟩
  · exact inScope_of_mem_paths hcovers hp hd
  · exact (inScope_of_mem_containerDescriptors service call sides
      ((work_within service call sides).descriptors_sub d hd)).2.1
  · obtain ⟨hsel, hint, -, d, hd, hgroup, hlayout⟩ := exists_hint_of_hintedGroup hhint
    have hid : g.groupId = gid := Table.key_of_get? hg
    refine ⟨hint, (Service.groupId_of_descriptor hd).trans (hgroup.trans hid), ?_⟩
    rw [pathInScope, pathCovered_iff hd, Service.groupId_of_descriptor hd, hgroup, hlayout,
      hcovers.hints gid g hg hhint, hsel]
    rfl

variable {env : ReconcileEnv} {obsolete : List SaveConflictRecord}

theorem retiredGroup_iff (h : Completed service call env sides after obsolete) (gid : GroupId) :
    RetiredGroup service call sides gid ↔ gid ∈ obsolete.map SaveConflictRecord.groupId := by
  constructor
  · rintro ⟨others, hothers, hgid⟩
    rwa [Except.ok.inj (h.retires.symm.trans hothers)]
  · exact fun hgid => ⟨obsolete, h.retires, hgid⟩

/-- With a covering scope, a completed call leaves a group outside the scope untouched. -/
theorem groupUntouched_of_completed (h : Completed service call env sides after obsolete)
    (hcovers : ScopeCovers service call sides.state) {gid : GroupId}
    (hgid : ¬ InScope service call sides.state gid) :
    GroupUntouched service call sides after gid := by
  have hpath : ∀ p, service.groupId p = gid → pathInScope service call sides.state p = false := by
    intro p hp
    rw [← Bool.not_eq_true]
    exact fun hscope => hgid ⟨p, hp, hscope⟩
  have haffected : gid ∉ (affectedLayouts sides.state (compare service call sides)).keys :=
    fun hmem => hgid (inScope_of_affected hcovers hmem)
  have hcontainer : ∀ d ∈ containerDescriptors service.registry
      (compare service call sides).originalLocal (compare service call sides).originalRemote,
      ∀ p e, service.registry.groupForPath p = some e → e.groupId = gid →
        d.containerId ≠ e.containerId := by
    intro d hd p e he hgroup hid
    obtain ⟨hcontained, hscope, q, hq⟩ := inScope_of_mem_containerDescriptors service call sides hd
    have hsame := service.registry.container_group q p d e hq he hcontained hid
    exact hgid (hgroup ▸ hsame ▸ hscope)
  have hwork := work_within service call sides
  obtain ⟨-, hmanifest, hbaselines, hconflicts⟩ := h.next
  refine ⟨?_, ?_, ?_, ?_, ?_, ?_⟩
  · exact fun p hp => (h.files_outside (hpath p hp)).1
  · exact fun p hp => (h.files_outside (hpath p hp)).2
  · intro hretired
    rw [h.get?_groups haffected, if_neg (mt (retiredGroup_iff h gid).mpr hretired)]
  · intro p hsome hp
    obtain ⟨d, hd⟩ := Option.isSome_iff_exists.mp hsome
    have hselected : (selectedBaseline (compare service call sides)).get? p = none := by
      by_contra hne
      refine haffected ?_
      rw [← hp, Service.groupId_of_descriptor hd]
      exact mem_affectedLayouts_of_file service call sides hd (Or.inl hne)
    have hgroup : d.groupId = gid := (Service.groupId_of_descriptor hd).symm.trans hp
    rw [hmanifest, get?_nextState_sharedManifest env sides.state _ obsolete hd, hselected,
      Option.none_or, hgroup, if_pos haffected]
  · intro p d hd hgroup
    have hnew : (compare service call sides).work.baselines.get? d.containerId = none := by
      by_contra hne
      obtain ⟨e, he, hid⟩ := hwork.baselines d.containerId
        ((Table.mem_keys_iff _ _).mpr (Option.ne_none_iff_exists'.mp hne))
      exact hcontainer e (hwork.descriptors_sub e he) p d hd hgroup hid
    have hkept : d.containerId ∉ (compare service call sides).work.invalidatedContainerIds := by
      intro hmem
      obtain ⟨e, he, hid⟩ := hwork.invalidated d.containerId hmem
      exact hcontainer e he p d hd hgroup hid
    rw [hbaselines, get?_nextState_containerBaselines, hnew, Option.none_or, if_pos hkept]
  · have hcongr : ∀ a b : SaveConflictRecord, a.groupId = b.groupId →
        a.conflictId = b.conflictId →
        (decide (a.groupId = gid) && decide (a.conflictId ∉ call.obsoleteConflictIds))
          = (decide (b.groupId = gid) && decide (b.conflictId ∉ call.obsoleteConflictIds)) := by
      intro a b hgroup hid
      rw [hgroup, hid]
    rw [hconflicts]
    refine filter_nextState env sides.state (compare service call sides) obsolete hcongr ?_ ?_ ?_
    · intro item hitem
      obtain ⟨g, hg⟩ := Option.ne_none_iff_exists'.mp hitem
      have hmem := (refreshedGroups_spec service call env sides h.supportedOnly hg).1
      have hne : item.groupId ≠ gid := fun heq => haffected (heq ▸ hmem)
      simp [hne]
    · intro item hmem
      have hne : item.groupId ≠ gid := fun heq => haffected (heq ▸ hmem)
      simp [hne]
    · intro item hmem
      obtain ⟨conflict, hconflict, hid⟩ := List.mem_map.mp hmem
      have hlisted := (Service.of_mem_obsoleteWholeLayoutConflicts service h.retires hconflict).1
      rw [hid] at hlisted
      simp [of_decide_eq_true hlisted]

/-- A group state that a completed call recorded is about an affected group, and holds what the
    call's last scan of the group found. -/
theorem recorded_of_completed (h : Completed service call env sides after obsolete)
    {gid : GroupId} {g : SaveGroupState} (hg : after.state.groups.get? gid = some g)
    (hnew : sides.state.groups.get? gid ≠ some g) :
    gid ∈ (affectedLayouts sides.state (compare service call sides)).keys
      ∧ Observes service g gid (compare service call sides).desiredLocal
          (compare service call sides).desiredRemote := by
  have hmem : gid ∈ (affectedLayouts sides.state (compare service call sides)).keys := by
    by_contra hnot
    rw [h.get?_groups hnot] at hg
    split at hg
    · exact absurd hg (by simp)
    · exact hnew hg
  refine ⟨hmem, ?_⟩
  rw [h.next.1] at hg
  obtain ⟨old, hold, hg⟩ := get?_nextState_groups env sides.state _ obsolete hmem hg
  obtain ⟨-, hobserves⟩ := refreshedGroups_spec service call env sides h.supportedOnly hold
  rcases hg with rfl | ⟨hhints, hlocal, hremote⟩
  · exact hobserves
  · obtain ⟨-, ⟨l, hl, hlfiles⟩, r, hr, hrfiles⟩ := hobserves
    exact ⟨hhints, ⟨l, hlocal.trans hl, hlfiles⟩, r, hremote.trans hr, hrfiles⟩

/-- The baseline loses a compared path of a group that no side was scanned for. -/
theorem sharedManifest_lost (h : Completed service call env sides after obsolete) {p : Path}
    {d : SaveGroupDescriptor} (hd : service.registry.groupForPath p = some d)
    (hgid : ¬ InScope service call sides.state d.groupId)
    (hbase : (compare service call sides).physicalBaseline.get? p ≠ none) :
    after.state.sharedManifest.get? p = none := by
  have hpath : ∀ q, service.groupId q = d.groupId →
      pathInScope service call sides.state q = false := by
    intro q hq
    rw [← Bool.not_eq_true]
    exact fun hscope => hgid ⟨q, hq, hscope⟩
  have hp := hpath p (Service.groupId_of_descriptor hd)
  have hnone : ∀ q, service.groupId q = d.groupId →
      (compare service call sides).localReport.artifacts.get? q = none
        ∧ (compare service call sides).remoteReport.artifacts.get? q = none := by
    intro q hq
    rw [get?_localReport, get?_remoteReport, get?_originalLocal, hpath q hq,
      get?_originalRemote_of_notInScope _ _ _ (hpath q hq)]
    simp only [Bool.false_eq_true, if_false, ite_self, and_self]
  have hnot := not_contains_of_notInScope service call sides hd hp
  have hhandled : p ∉ (compare service call sides).work.handledPaths := by
    intro hmem
    obtain ⟨e, he, hc⟩ := (work_within service call sides).handled p hmem
    exact absurd (hnot e he) (by simp [hc])
  have hmem : p ∈ (compare service call sides).paths := by
    refine (mem_planPaths_iff _ _ _ p).mpr (Or.inr (Or.inr ?_))
    rwa [get?_baseline, if_pos hhandled]
  have haffected : d.groupId ∈ (affectedLayouts sides.state (compare service call sides)).keys :=
    (mem_affectedLayouts_iff service call sides _).mpr (Or.inl ⟨p, hmem, d, hd, rfl⟩)
  have haction := action_of_empty (compare service call sides) hnone
  have hselected : (selectedBaseline (compare service call sides)).get? p = none := by
    obtain ⟨hl, hr⟩ := hnone p (Service.groupId_of_descriptor hd)
    rw [get?_selectedBaseline_of_not_contains _ hnot, get?_planBaseline _ hmem,
      Service.groupId_of_descriptor hd, haction, hl, hr]
    simp [uploadOnlyBaselineValue, baselineValue]
  rw [h.next.2.1, get?_nextState_sharedManifest env sides.state _ obsolete hd, hselected,
    Option.none_or, if_neg (not_not.mpr haffected)]

end Frame

/-! ### A layout with a running session -/

/-- Two layouts with one save file each. -/
def twoLayoutRegistry : SaveRegistry where
  layouts := [⟨"snes", "snes", false, "root_stem", ""⟩, ⟨"gba", "gba", false, "root_stem", ""⟩]
  groupForPath := fun path =>
    if path = "snes/zelda.srm" then some ⟨"snes/zelda", "snes", "snes", "", "", ""⟩
    else if path = "gba/metroid.srm" then some ⟨"gba/metroid", "gba", "gba", "", "", ""⟩
    else none
  plain := by decide
  registered := by
    intro p d h
    split at h
    · cases h
      exact ⟨_, List.mem_cons_self, rfl⟩
    · split at h
      · cases h
        exact ⟨_, List.mem_cons_of_mem _ List.mem_cons_self, rfl⟩
      · cases h
  group_prefix := by
    intro p d h
    split at h
    · cases h
      exact ⟨"zelda", by decide⟩
    · split at h
      · cases h
        exact ⟨"metroid", by decide⟩
      · cases h
  container_closed := by
    intro p q d e h hcontained
    split at h
    · cases h
      exact absurd hcontained (by decide)
    · split at h
      · cases h
        exact absurd hcontained (by decide)
      · cases h
  container_group := by
    intro p q d e h _ hcontained
    split at h
    · cases h
      exact absurd hcontained (by decide)
    · split at h
      · cases h
        exact absurd hcontained (by decide)
      · cases h

def twoLayoutService : Service := ⟨twoLayoutRegistry, ∅, fun _ => none⟩

/-- A running game wrote a save the device has not compared yet. -/
def dirtyGroup : SaveGroupState where
  groupId := "gba/metroid"
  layoutId := "gba"
  condition := .localDirty
  baseline := none
  localObserved := none
  remoteObserved := none
  dirtyPathHints := ["gba/metroid.srm"]
  verifiedAt := none

def dirtySides : Sides where
  localSide := Manifest.ofArtifacts [⟨"gba/metroid.srm", 32768, "bb"⟩, ⟨"snes/zelda.srm", 8192, "aa"⟩]
  remoteSide := Manifest.ofArtifacts [⟨"snes/zelda.srm", 8192, "aa"⟩]
  state :=
    { deviceId := "device"
      sharedManifest := ∅
      lastReconcile := none
      groups := (∅ : GroupTable).put dirtyGroup
      conflicts := []
      containerBaselines := ∅
      lastCompletedOperationId := none
      quickSyncCursorGeneration := some 3
      quickSyncReady := true }

/-- A call for the given layouts. -/
def layoutCall (layouts : Option (Finset LayoutId)) : ReconcileCall where
  selectedGroupIds := none
  selectedLayoutIds := layouts
  uploadOnly := false
  bootstrap := false
  isGroupActive := fun _ => false
  isLayoutActive := fun layoutId => layoutId = "gba"
  obsoleteConflictIds := []
  trustedGroupScope := false
  groupLayoutHints := ∅
  indexedRemotePaths := ∅

def quietEnv : ReconcileEnv where
  reachable := true
  stepError := none
  groupActiveLater := fun _ => false
  layoutActiveLater := fun _ => false
  operationId := "op"
  revision := "rev"
  timestamp := "now"
  appendedGeneration := none

/-- Whether a call returned a report, with sides that satisfy `p`. -/
def returnsWith (p : Sides → Bool) :
    Except SaveSyncError (Option (SaveReconcileReport × Sides)) → Bool
  | .ok (some (_, after)) => p after
  | _ => false

theorem exists_of_returnsWith {p : Sides → Bool}
    {result : Except SaveSyncError (Option (SaveReconcileReport × Sides))}
    (h : returnsWith p result = true) :
    ∃ report after, result = .ok (some (report, after)) ∧ p after = true := by
  unfold returnsWith at h
  split at h
  · exact ⟨_, _, rfl, h⟩
  · exact absurd h (by simp)

end RomCloud.SaveSync
