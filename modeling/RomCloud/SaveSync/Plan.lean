import RomCloud.SaveSync.Manifest

namespace RomCloud.SaveSync

open RomCloud.Lib

/-!
# The three-way reconciliation plan

`_reconcile_plan` compares, group by group, the local and the remote manifest with the last
manifest both sides shared (the **baseline**) and decides one action for each group.
`_reconcile_once` applies the plan to both sides, and `_reconciled_baseline` computes the
baseline the next comparison starts from.

* `reconcilePlan` — the plan; `groupDecision` is the decision for one group;
* `applyPlan` — the two manifests after the plan;
* `reconciledBaseline`, `uploadOnlyReconciledBaseline` — the next baseline.

Everything about a plan goes through `find?_reconcilePlan`: at every path the plan compares it
has exactly one entry, whose action is the decision for the path's group (`groupAction`), and
`groupAction_spec` says what each decision means path by path.
-/

/-- What a plan does with a group. -/
inductive SaveReconcileAction
  | upload
  | download
  | conflict
  | unchanged
deriving DecidableEq, Repr

/-- One path of a plan, with what the three sides hold there. -/
structure SaveReconcileEntry where
  relativePath : Path
  action : SaveReconcileAction
  localArtifact : Option SaveArtifact
  remoteArtifact : Option SaveArtifact
  baseArtifact : Option SaveArtifact
  local_keyed : ∀ a, localArtifact = some a → a.relativePath = relativePath
  remote_keyed : ∀ a, remoteArtifact = some a → a.relativePath = relativePath
  base_keyed : ∀ a, baseArtifact = some a → a.relativePath = relativePath

/-- Three-way comparison against the last state shared by both sides. -/
structure SaveReconcilePlan where
  entries : List SaveReconcileEntry
  excludedFiles : ℕ
  excludedBytes : ℕ
  optionalGroups : List (String × ℕ × ℕ)
  scope : String

/-- `_same_artifact`. -/
def sameArtifact (left right : Option SaveArtifact) : Bool :=
  match left, right with
  | some l, some r =>
    l.relativePath = r.relativePath && l.sizeBytes = r.sizeBytes
      && l.contentHash = r.contentHash
  | none, none => true
  | _, _ => false

@[simp] theorem sameArtifact_iff (left right : Option SaveArtifact) :
    sameArtifact left right = true ↔ left = right := by
  cases left with
  | none => cases right <;> simp [sameArtifact]
  | some l =>
    cases right with
    | none => simp [sameArtifact]
    | some r =>
      obtain ⟨p, n, h⟩ := l
      obtain ⟨q, m, k⟩ := r
      simp [sameArtifact, and_assoc]

/-- `_is_incomplete_local_materialization`: the remote still holds the baseline, and what the
    local side holds is a proper part of it. -/
def isIncompleteLocalMaterialization (localGroup remoteGroup baselineGroup : List SaveArtifact) :
    Bool :=
  if remoteGroup.isEmpty || baselineGroup.isEmpty
      || baselineGroup.length ≤ localGroup.length || remoteGroup ≠ baselineGroup then
    false
  else
    localGroup.all (fun artifact =>
      sameArtifact ((Manifest.ofArtifacts baselineGroup).get? artifact.relativePath)
        (some artifact))

/-- The decision of `_reconcile_plan` for one group. -/
def groupDecision (repairLocalGroupIds : Finset GroupId) (gid : GroupId)
    (localGroup remoteGroup baselineGroup : List SaveArtifact) : SaveReconcileAction :=
  if localGroup = remoteGroup then
    .unchanged
  else if gid ∈ repairLocalGroupIds
      ∧ isIncompleteLocalMaterialization localGroup remoteGroup baselineGroup then
    .download
  else if remoteGroup = baselineGroup then
    .upload
  else if localGroup = baselineGroup then
    .download
  else
    .conflict

/-- `_merge_optional_groups`: file and byte counts summed over the reports, by group. -/
def mergeOptionalGroups (reports : List ScanReport) : List (String × ℕ × ℕ) :=
  (reports.foldl (fun merged (report : ScanReport) =>
      report.optionalGroups.foldl (fun (merged : Dict String (ℕ × ℕ)) group =>
        let stats := (merged.get? group.1).getD (0, 0)
        merged.insert group.1 (stats.1 + group.2.1, stats.2 + group.2.2)) merged)
    (∅ : Dict String (ℕ × ℕ))).entries

/-- `sorted(set(local) | set(remote) | set(baseline))`. -/
def planPaths (localSide remoteSide baseline : Manifest) : List Path :=
  sortedSet (localSide.paths ++ remoteSide.paths ++ baseline.paths)

/-- `_reconcile_plan`. -/
def reconcilePlan (localReport remoteReport : ScanReport) (baseline : Manifest)
    (policy : SaveSelectionPolicy) (scope : String) (repairLocalGroupIds : Finset GroupId) :
    SaveReconcilePlan :=
  let localSide := localReport.artifacts
  let remoteSide := remoteReport.artifacts
  let groups := Dict.groupBy (groupId policy) (planPaths localSide remoteSide baseline)
  let entries := groups.entries.flatMap (fun group =>
    let action := groupDecision repairLocalGroupIds group.1
      (groupManifest localSide group.2) (groupManifest remoteSide group.2)
      (groupManifest baseline group.2)
    group.2.map (fun path =>
      { relativePath := path
        action := action
        localArtifact := localSide.get? path
        remoteArtifact := remoteSide.get? path
        baseArtifact := baseline.get? path
        local_keyed := localSide.keyed path
        remote_keyed := remoteSide.keyed path
        base_keyed := baseline.keyed path }))
  { entries := entries.insertionSort (fun x y => x.relativePath ≤ y.relativePath)
    excludedFiles := localReport.excludedFiles + remoteReport.excludedFiles
    excludedBytes := localReport.excludedBytes + remoteReport.excludedBytes
    optionalGroups := mergeOptionalGroups [localReport, remoteReport]
    scope := scope }

/-- The loop of `_reconcile_once` that applies a plan to the desired local and remote
    manifests. -/
def applyPlan (plan : SaveReconcilePlan) (uploadOnly : Bool) (desired : Manifest × Manifest) :
    Manifest × Manifest :=
  plan.entries.foldl (fun desired entry =>
    match entry.action with
    | .upload =>
      (desired.1, desired.2.assign entry.relativePath entry.localArtifact entry.local_keyed)
    | .download =>
      if uploadOnly then desired
      else (desired.1.assign entry.relativePath entry.remoteArtifact entry.remote_keyed,
        desired.2)
    | _ => desired) desired

/-- `entry.remote if entry.remote is not None else entry.local`. -/
def SaveReconcileEntry.remoteOrLocal (entry : SaveReconcileEntry) : Option SaveArtifact :=
  entry.remoteArtifact.or entry.localArtifact

theorem SaveReconcileEntry.remoteOrLocal_keyed (entry : SaveReconcileEntry) :
    ∀ a, entry.remoteOrLocal = some a → a.relativePath = entry.relativePath := by
  intro a h
  rw [SaveReconcileEntry.remoteOrLocal, Option.or_eq_some_iff] at h
  rcases h with h | ⟨_, h⟩
  · exact entry.remote_keyed a h
  · exact entry.local_keyed a h

/-- `_reconciled_baseline`. -/
def reconciledBaseline (plan : SaveReconcilePlan) (existing : Manifest) : Manifest :=
  plan.entries.foldl (fun baseline entry =>
    match entry.action with
    | .conflict => baseline.assign entry.relativePath entry.baseArtifact entry.base_keyed
    | .upload => baseline.assign entry.relativePath entry.localArtifact entry.local_keyed
    | _ => baseline.assign entry.relativePath entry.remoteOrLocal entry.remoteOrLocal_keyed)
    existing

/-- `_upload_only_reconciled_baseline`: only groups proven equal or successfully uploaded
    advance. -/
def uploadOnlyReconciledBaseline (plan : SaveReconcilePlan) (existing : Manifest) : Manifest :=
  plan.entries.foldl (fun baseline entry =>
    match entry.action with
    | .upload => baseline.assign entry.relativePath entry.localArtifact entry.local_keyed
    | .unchanged =>
      baseline.assign entry.relativePath (entry.localArtifact.or entry.remoteArtifact) (by
        intro a h
        rcases Option.or_eq_some_iff.mp h with h | ⟨_, h⟩
        · exact entry.local_keyed a h
        · exact entry.remote_keyed a h)
    | _ => baseline.assign entry.relativePath entry.baseArtifact entry.base_keyed) existing

/-! ### One entry for each path -/

section Entries

variable (policy : SaveSelectionPolicy) (repair : Finset GroupId)
variable (localSide remoteSide baseline : Manifest)

/-- The paths a plan compares for a group. -/
def groupPathsOf (gid : GroupId) : List Path :=
  (planPaths localSide remoteSide baseline).filter (fun p => groupId policy p = gid)

/-- The action of a plan for a group. -/
def groupAction (gid : GroupId) : SaveReconcileAction :=
  let paths := groupPathsOf policy localSide remoteSide baseline gid
  groupDecision repair gid (groupManifest localSide paths) (groupManifest remoteSide paths)
    (groupManifest baseline paths)

/-- The entry of a plan at a path. -/
def planEntry (path : Path) : SaveReconcileEntry where
  relativePath := path
  action := groupAction policy repair localSide remoteSide baseline (groupId policy path)
  localArtifact := localSide.get? path
  remoteArtifact := remoteSide.get? path
  baseArtifact := baseline.get? path
  local_keyed := localSide.keyed path
  remote_keyed := remoteSide.keyed path
  base_keyed := baseline.keyed path

end Entries

theorem mem_planPaths_iff (l r b : Manifest) (p : Path) :
    p ∈ planPaths l r b ↔ l.get? p ≠ none ∨ r.get? p ≠ none ∨ b.get? p ≠ none := by
  simp only [planPaths, mem_sortedSet, List.mem_append, ne_eq, Manifest.get?_eq_none_iff,
    not_not, or_assoc]

variable (policy : SaveSelectionPolicy) (repair : Finset GroupId) (scope : String)
variable (localReport remoteReport : ScanReport) (baseline : Manifest)

/-- The entries of a plan before they are sorted: one for each path of each group. -/
private theorem reconcilePlan_entries_perm :
    (reconcilePlan localReport remoteReport baseline policy scope repair).entries.Perm
      ((Dict.groupBy (groupId policy) (planPaths localReport.artifacts remoteReport.artifacts
          baseline)).entries.flatMap (fun group => group.2.map
            (planEntry policy repair localReport.artifacts remoteReport.artifacts baseline))) := by
  refine (List.perm_insertionSort _ _).trans (List.Perm.of_eq ?_)
  refine List.flatMap_congr ?_
  rintro ⟨gid, paths⟩ hmem
  obtain ⟨rfl, -⟩ := (Dict.mem_groupBy_entries _ _ _ _).mp hmem
  refine List.map_congr_left ?_
  intro p hp
  have hgid : groupId policy p = gid := by simpa using (List.mem_filter.mp hp).2
  subst hgid
  rfl

theorem mem_reconcilePlan_iff (entry : SaveReconcileEntry) :
    entry ∈ (reconcilePlan localReport remoteReport baseline policy scope repair).entries
      ↔ ∃ p ∈ planPaths localReport.artifacts remoteReport.artifacts baseline,
          entry = planEntry policy repair localReport.artifacts remoteReport.artifacts
            baseline p := by
  rw [(reconcilePlan_entries_perm policy repair scope localReport remoteReport baseline).mem_iff]
  simp only [List.mem_flatMap, List.mem_map, Prod.exists, Dict.mem_groupBy_entries]
  constructor
  · rintro ⟨gid, paths, ⟨rfl, -⟩, p, hp, rfl⟩
    exact ⟨p, (List.mem_filter.mp hp).1, rfl⟩
  · rintro ⟨p, hp, rfl⟩
    have hmem : p ∈ (planPaths localReport.artifacts remoteReport.artifacts baseline).filter
        (fun q => groupId policy q = groupId policy p) :=
      List.mem_filter.mpr ⟨hp, by simp⟩
    exact ⟨_, _, ⟨rfl, List.ne_nil_of_mem hmem⟩, p, hmem, rfl⟩

/-- The entries of a plan have distinct paths: a path belongs to one group. -/
theorem reconcilePlan_nodup :
    ((reconcilePlan localReport remoteReport baseline policy scope repair).entries.map
      SaveReconcileEntry.relativePath).Nodup := by
  rw [((reconcilePlan_entries_perm policy repair scope localReport remoteReport baseline).map
    _).nodup_iff, List.map_flatMap]
  have hid : (SaveReconcileEntry.relativePath ∘ planEntry policy repair localReport.artifacts
      remoteReport.artifacts baseline) = id := rfl
  simp only [List.map_map, hid, List.map_id]
  rw [List.nodup_flatMap]
  refine ⟨?_, ?_⟩
  · rintro ⟨gid, paths⟩ hmem
    obtain ⟨rfl, -⟩ := (Dict.mem_groupBy_entries _ _ _ _).mp hmem
    exact (sortedSet_nodup _).filter _
  · -- two groups share no path: the path would have two group ids
    have hsorted := (Dict.groupBy (groupId policy) (planPaths localReport.artifacts
      remoteReport.artifacts baseline)).sorted
    rw [List.pairwise_map] at hsorted
    refine hsorted.imp_of_mem ?_
    rintro ⟨g, ps⟩ ⟨h, qs⟩ hg hh hlt
    obtain ⟨rfl, -⟩ := (Dict.mem_groupBy_entries _ _ _ _).mp hg
    obtain ⟨rfl, -⟩ := (Dict.mem_groupBy_entries _ _ _ _).mp hh
    intro p hp hq
    have hpg : groupId policy p = g := by simpa using (List.mem_filter.mp hp).2
    have hph : groupId policy p = h := by simpa using (List.mem_filter.mp hq).2
    exact absurd (hpg.symm.trans hph) (ne_of_lt hlt)

/-- **One entry for each path.** At a path some side holds, the plan has the path's entry; at
    any other path it has none. -/
theorem find?_reconcilePlan (p : Path) :
    (reconcilePlan localReport remoteReport baseline policy scope repair).entries.find?
        (fun entry => entry.relativePath = p)
      = if p ∈ planPaths localReport.artifacts remoteReport.artifacts baseline then
          some (planEntry policy repair localReport.artifacts remoteReport.artifacts baseline p)
        else none := by
  split
  · next hp =>
    have hmem := (mem_reconcilePlan_iff policy repair scope localReport remoteReport baseline
      _).mpr ⟨p, hp, rfl⟩
    obtain ⟨entry, hfound⟩ : ∃ entry, (reconcilePlan localReport remoteReport baseline policy
        scope repair).entries.find? (fun entry => entry.relativePath = p) = some entry :=
      Option.isSome_iff_exists.mp (List.find?_isSome.mpr ⟨_, hmem, decide_eq_true rfl⟩)
    obtain ⟨q, -, rfl⟩ := (mem_reconcilePlan_iff policy repair scope localReport remoteReport
      baseline entry).mp (List.mem_of_find?_eq_some hfound)
    have hfind := List.find?_some hfound
    have hqp : q = p := of_decide_eq_true hfind
    rw [hfound, hqp]
  · next hp =>
    rw [List.find?_eq_none]
    rintro entry hentry
    obtain ⟨q, hq, rfl⟩ := (mem_reconcilePlan_iff policy repair scope localReport remoteReport
      baseline entry).mp hentry
    have hqp : q ≠ p := fun h => hp (h ▸ hq)
    exact (decide_eq_true_iff.not.mpr hqp)

/-! ### The plan, applied -/

/-- **Looking up a loop over a plan.** A loop that at each entry only touches the entry's path
    is looked up at the path's own entry. -/
theorem look_foldl_reconcilePlan {σ : Type*} (look : σ → Path → Option SaveArtifact)
    (step : σ → SaveReconcileEntry → σ)
    (new : SaveReconcileEntry → Option SaveArtifact → Option SaveArtifact)
    (hstep : ∀ s e p, look (step s e) p
      = if e.relativePath = p then new e (look s p) else look s p)
    (s : σ) (p : Path) :
    look ((reconcilePlan localReport remoteReport baseline policy scope repair).entries.foldl
        step s) p
      = if p ∈ planPaths localReport.artifacts remoteReport.artifacts baseline then
          new (planEntry policy repair localReport.artifacts remoteReport.artifacts baseline p)
            (look s p)
        else look s p := by
  rw [Dict.look_foldl_of_nodup look _ step new hstep _
    (reconcilePlan_nodup policy repair scope localReport remoteReport baseline),
    find?_reconcilePlan]
  by_cases hp : p ∈ planPaths localReport.artifacts remoteReport.artifacts baseline
  · rw [if_pos hp, if_pos hp]
  · rw [if_neg hp, if_neg hp]

/-- The local manifest after the plan: a download brings in what the remote holds, or its
    absence. -/
theorem get?_applyPlan_fst (uploadOnly : Bool) (desired : Manifest × Manifest) (p : Path) :
    (applyPlan (reconcilePlan localReport remoteReport baseline policy scope repair) uploadOnly
        desired).1.get? p
      = if p ∈ planPaths localReport.artifacts remoteReport.artifacts baseline
            ∧ groupAction policy repair localReport.artifacts remoteReport.artifacts baseline
                (groupId policy p) = .download ∧ uploadOnly = false then
          remoteReport.artifacts.get? p
        else desired.1.get? p := by
  refine (look_foldl_reconcilePlan policy repair scope localReport remoteReport baseline (fun d q => d.1.get? q) _
    (fun e old => if e.action = .download ∧ uploadOnly = false then e.remoteArtifact else old)
    ?_ desired p).trans ?_
  · intro d e q
    cases ha : e.action <;> cases uploadOnly <;> simp [eq_comm]
  · by_cases hp : p ∈ planPaths localReport.artifacts remoteReport.artifacts baseline
    · simp only [hp, if_true, true_and, planEntry]
      rfl
    · simp only [hp, if_false, false_and]

/-- The remote manifest after the plan: an upload brings in what the local side holds, or its
    absence. -/
theorem get?_applyPlan_snd (uploadOnly : Bool) (desired : Manifest × Manifest) (p : Path) :
    (applyPlan (reconcilePlan localReport remoteReport baseline policy scope repair) uploadOnly
        desired).2.get? p
      = if p ∈ planPaths localReport.artifacts remoteReport.artifacts baseline
            ∧ groupAction policy repair localReport.artifacts remoteReport.artifacts baseline
                (groupId policy p) = .upload then
          localReport.artifacts.get? p
        else desired.2.get? p := by
  refine (look_foldl_reconcilePlan policy repair scope localReport remoteReport baseline (fun d q => d.2.get? q) _
    (fun e old => if e.action = .upload then e.localArtifact else old)
    ?_ desired p).trans ?_
  · intro d e q
    cases ha : e.action <;> cases uploadOnly <;> simp [eq_comm]
  · by_cases hp : p ∈ planPaths localReport.artifacts remoteReport.artifacts baseline
    · simp only [hp, if_true, true_and, planEntry]
      rfl
    · simp only [hp, if_false, false_and]

/-- What a reconciled baseline holds at a path the plan compares. -/
def baselineValue (action : SaveReconcileAction) (l r b : Option SaveArtifact) :
    Option SaveArtifact :=
  match action with
  | .conflict => b
  | .upload => l
  | _ => r.or l

theorem get?_reconciledBaseline (existing : Manifest) (p : Path) :
    (reconciledBaseline (reconcilePlan localReport remoteReport baseline policy scope repair)
        existing).get? p
      = if p ∈ planPaths localReport.artifacts remoteReport.artifacts baseline then
          baselineValue (groupAction policy repair localReport.artifacts remoteReport.artifacts
              baseline (groupId policy p))
            (localReport.artifacts.get? p) (remoteReport.artifacts.get? p) (baseline.get? p)
        else existing.get? p := by
  refine look_foldl_reconcilePlan policy repair scope localReport remoteReport baseline
    Manifest.get? _
    (fun e _ => baselineValue e.action e.localArtifact e.remoteArtifact e.baseArtifact)
    ?_ existing p
  · intro b e q
    cases ha : e.action <;>
      simp [baselineValue, SaveReconcileEntry.remoteOrLocal, eq_comm]

/-- What an upload-only baseline holds at a path the plan compares. -/
def uploadOnlyBaselineValue (action : SaveReconcileAction) (l r b : Option SaveArtifact) :
    Option SaveArtifact :=
  match action with
  | .upload => l
  | .unchanged => l.or r
  | _ => b

theorem get?_uploadOnlyReconciledBaseline (existing : Manifest) (p : Path) :
    (uploadOnlyReconciledBaseline (reconcilePlan localReport remoteReport baseline policy scope
        repair) existing).get? p
      = if p ∈ planPaths localReport.artifacts remoteReport.artifacts baseline then
          uploadOnlyBaselineValue (groupAction policy repair localReport.artifacts
              remoteReport.artifacts baseline (groupId policy p))
            (localReport.artifacts.get? p) (remoteReport.artifacts.get? p) (baseline.get? p)
        else existing.get? p := by
  refine look_foldl_reconcilePlan policy repair scope localReport remoteReport baseline
    Manifest.get? _
    (fun e _ => uploadOnlyBaselineValue e.action e.localArtifact e.remoteArtifact
      e.baseArtifact) ?_ existing p
  · intro b e q
    cases ha : e.action <;> simp [uploadOnlyBaselineValue, eq_comm]

end RomCloud.SaveSync
