import RomCloud.SaveSync.BaselineFreshness

namespace RomCloud.SaveSync

open RomCloud.Lib

/-!
# A container that one side changes after a merge

A merge without conflict leaves both sides of a container with the same content, though not always
with the same bytes: the files of a card depend on where its blocks lie.  The logical baseline is
that of the content, and the physical baseline has the files of the local side.

* `MergedBy` — a pass merged a container and left its group without conflict;
* `OnlyContainerChanged` — since then, only files of the container changed;
* `TakesLocal`, `TakesRemote` — a pass takes a side of the container as the newer one;
* `OnlyLost` — all that the local side changed is that files of the container are missing.

When one side changes, the next pass takes that side over wherever it still has a common ancestor:
always if the remote side changed, and if the local side changed, when what differs is merged again
or both sides had the same bytes (`one_sided_change_followed`).  Files that are only missing on the
local side are restored.  Where the cards differ in their blocks and the plan is left with the
physical baseline, a change of the local side has no ancestor (`one_sided_change_misled`).
-/

/-! ### The containers of a pass -/

section Loop

variable (service : SaveSyncService) (call : ReconcileCall) (sides : Sides)

/-- What the work of a pass holds comes from the verdicts of its containers. -/
structure FromVerdicts (work : ContainerWork) : Prop where
  descriptors : ∀ d ∈ work.descriptors, ∃ verdict,
    reconcileVerdict service sides d call = some (.ok verdict)
  conflicted : ∀ id ∈ work.conflictedContainerIds, ∃ d, ∃ verdict : ContainerVerdict d,
    d ∈ work.descriptors ∧ d.containerId = id
      ∧ reconcileVerdict service sides d call = some (.ok verdict) ∧ verdict.conflictPaths ≠ []

variable {service call sides}

theorem fromVerdicts_prepareContainer {work : ContainerWork}
    (h : FromVerdicts service call sides work) (descriptor : SaveGroupDescriptor) :
    FromVerdicts service call sides
      (prepareContainer service.toService (compare service.toService call sides).originalLocal
        (compare service.toService call sides).originalRemote sides.state
        (compare service.toService call sides).repairLocalGroupIds work descriptor) := by
  have hverdict : reconcileVerdict service sides descriptor call =
      containerVerdict service descriptor (compare service.toService call sides).originalLocal
        (compare service.toService call sides).originalRemote sides.state
        (compare service.toService call sides).repairLocalGroupIds := rfl
  unfold prepareContainer
  split
  · exact h
  next hrepair =>
  split
  · exact h
  next adapter hadapter =>
  dsimp only
  split
  · exact h
  next hnonempty =>
  split
  · exact ⟨h.descriptors, h.conflicted⟩
  · exact h
  next verdict hok =>
  have hfound : reconcileVerdict service sides descriptor call = some (.ok verdict) := by
    rw [hverdict]
    unfold containerVerdict
    simp only [Bool.or_eq_true, not_or] at hnonempty
    simp [hrepair, hnonempty.1, hnonempty.2, hadapter, hok]
  constructor
  · intro d hd
    rcases List.mem_append.mp hd with hd | hd
    · exact h.descriptors d hd
    · rw [List.mem_singleton.mp hd]
      exact ⟨verdict, hfound⟩
  · intro id hid
    have hold : id ∈ work.conflictedContainerIds → ∃ d, ∃ verdict' : ContainerVerdict d,
        d ∈ work.descriptors ++ [descriptor] ∧ d.containerId = id
          ∧ reconcileVerdict service sides d call = some (.ok verdict')
          ∧ verdict'.conflictPaths ≠ [] := by
      intro hmem
      obtain ⟨d, verdict', hd, hrest⟩ := h.conflicted id hmem
      exact ⟨d, verdict', List.mem_append_left _ hd, hrest⟩
    dsimp only at hid
    split at hid
    · exact hold hid
    · next hconflict =>
      rcases List.mem_append.mp hid with hid | hid
      · exact hold hid
      · refine ⟨descriptor, verdict, by simp, (List.mem_singleton.mp hid).symm, hfound, ?_⟩
        simpa using hconflict

theorem fromVerdicts_work :
    FromVerdicts service call sides (compare service.toService call sides).work := by
  show FromVerdicts service call sides (prepareContainers _ _ _ _ _ _)
  have hstart : FromVerdicts service call sides (ContainerWork.start
      (compare service.toService call sides).originalLocal
      (compare service.toService call sides).originalRemote) :=
    ⟨fun d hd => absurd hd List.not_mem_nil, fun id hid => absurd hid List.not_mem_nil⟩
  unfold prepareContainers
  split
  · exact hstart
  · exact List.foldlRecOn (motive := FromVerdicts service call sides) _ _ hstart
      fun work hwork descriptor _ => fromVerdicts_prepareContainer hwork descriptor

/-- What the step of a container brings about and every step keeps, holds after the loop. -/
theorem work_of_step {p₀ : Path} {descriptor : SaveGroupDescriptor}
    (hd : service.registry.groupForPath p₀ = some descriptor) (hcontained : descriptor.contained)
    (hfull : call.uploadOnly = false) {verdict : ContainerVerdict descriptor}
    (hverdict : reconcileVerdict service sides descriptor call = some (.ok verdict))
    {P : ContainerWork → Prop}
    (hkeep : ∀ work other, P work → P (prepareContainer service.toService
      (compare service.toService call sides).originalLocal
      (compare service.toService call sides).originalRemote sides.state
      (compare service.toService call sides).repairLocalGroupIds work other))
    (hgain : ∀ work, P (prepareContainer service.toService
      (compare service.toService call sides).originalLocal
      (compare service.toService call sides).originalRemote sides.state
      (compare service.toService call sides).repairLocalGroupIds work descriptor)) :
    P (compare service.toService call sides).work := by
  have hmem : descriptor ∈ containerDescriptors service.registry
      (compare service.toService call sides).originalLocal
      (compare service.toService call sides).originalRemote := by
    by_contra hnot
    have hempty : ∀ p, p ∉ ((compare service.toService call sides).originalLocal.restrict
        descriptor.contains).paths := by
      intro p hp
      have hcontains := contains_of_mem_restrict_paths hp
      obtain ⟨a, ha⟩ := (Manifest.mem_paths_iff _ p).mp hp
      rw [Manifest.get?_restrict, if_pos hcontains] at ha
      exact hnot (mem_containerDescriptors_of_part service call sides hd hcontained hcontains
        (Or.inl (by simp [ha])))
    unfold reconcileVerdict containerVerdict at hverdict
    simp [List.eq_nil_iff_forall_not_mem.mpr hempty] at hverdict
  have hloop (others : List SaveGroupDescriptor) (work : ContainerWork)
      (h : P work ∨ descriptor ∈ others) : P (others.foldl
        (prepareContainer service.toService (compare service.toService call sides).originalLocal
          (compare service.toService call sides).originalRemote sides.state
          (compare service.toService call sides).repairLocalGroupIds) work) := by
    induction others generalizing work with
    | nil => exact h.resolve_right List.not_mem_nil
    | cons other others ih =>
      apply ih
      rcases h with h | h
      · exact Or.inl (hkeep work other h)
      · rcases List.mem_cons.mp h with rfl | h
        · exact Or.inl (hgain work)
        · exact Or.inr h
  show P (prepareContainers _ _ _ _ _ _)
  unfold prepareContainers
  rw [hfull, if_neg (by simp)]
  exact hloop _ _ (Or.inr hmem)

/-- A step keeps the containers that were taken up, and those in conflict. -/
theorem prepareContainer_sub (work : ContainerWork) (other : SaveGroupDescriptor) :
    work.descriptors ⊆ (prepareContainer service.toService
        (compare service.toService call sides).originalLocal
        (compare service.toService call sides).originalRemote sides.state
        (compare service.toService call sides).repairLocalGroupIds work other).descriptors
      ∧ work.conflictedContainerIds ⊆ (prepareContainer service.toService
        (compare service.toService call sides).originalLocal
        (compare service.toService call sides).originalRemote sides.state
        (compare service.toService call sides).repairLocalGroupIds work
        other).conflictedContainerIds := by
  unfold prepareContainer
  split
  · exact ⟨List.Subset.refl _, List.Subset.refl _⟩
  split
  · exact ⟨List.Subset.refl _, List.Subset.refl _⟩
  dsimp only
  split
  · exact ⟨List.Subset.refl _, List.Subset.refl _⟩
  split
  · exact ⟨List.Subset.refl _, List.Subset.refl _⟩
  · exact ⟨List.Subset.refl _, List.Subset.refl _⟩
  · refine ⟨List.subset_append_left _ _, ?_⟩
    dsimp only
    split
    · exact List.Subset.refl _
    · exact List.subset_append_left _ _

/-- A container that its adapter merged is taken up, and it is in conflict if the verdict has a
    conflict. -/
theorem mem_work_of_merged {p₀ : Path} {descriptor : SaveGroupDescriptor}
    (hd : service.registry.groupForPath p₀ = some descriptor) (hcontained : descriptor.contained)
    (hfull : call.uploadOnly = false) {verdict : ContainerVerdict descriptor}
    (hverdict : reconcileVerdict service sides descriptor call = some (.ok verdict)) :
    descriptor ∈ (compare service.toService call sides).work.descriptors
      ∧ (verdict.conflictPaths ≠ [] → descriptor.containerId
        ∈ (compare service.toService call sides).work.conflictedContainerIds) := by
  refine work_of_step (P := fun work => descriptor ∈ work.descriptors
    ∧ (verdict.conflictPaths ≠ [] → descriptor.containerId ∈ work.conflictedContainerIds))
    hd hcontained hfull hverdict ?_ ?_
  · intro work other h
    have hsub := @prepareContainer_sub service call sides work other
    exact ⟨hsub.1 h.1, fun hne => hsub.2 (h.2 hne)⟩
  · intro work
    unfold reconcileVerdict containerVerdict at hverdict
    dsimp only at hverdict
    split at hverdict
    · cases hverdict
    next hnone =>
    simp only [Bool.or_eq_true, decide_eq_true_eq, not_or] at hnone
    obtain ⟨adapter, hadapter, hok⟩ := Option.map_eq_some_iff.mp hverdict
    unfold prepareContainer
    rw [if_neg hnone.1.1, hadapter]
    simp only [hnone.1.2, hnone.2, Bool.or_self, Bool.false_eq_true, if_false, hok]
    refine ⟨by simp, fun hne => ?_⟩
    rw [if_neg (by simpa using hne)]
    simp

/-- Of a container that was merged, the paths with a file on either side are kept from the plan. -/
theorem mem_handledPaths_iff {p₀ : Path} {descriptor : SaveGroupDescriptor}
    (hd : service.registry.groupForPath p₀ = some descriptor) (hcontained : descriptor.contained)
    (hfull : call.uploadOnly = false) {verdict : ContainerVerdict descriptor}
    (hverdict : reconcileVerdict service sides descriptor call = some (.ok verdict)) {p : Path}
    (hp : descriptor.contains p = true) :
    p ∈ (compare service.toService call sides).work.handledPaths
      ↔ (compare service.toService call sides).originalLocal.get? p ≠ none
        ∨ (compare service.toService call sides).originalRemote.get? p ≠ none := by
  have hview := view_work service call sides hd hcontained hfull
  rw [hverdict] at hview
  have hhandled : (compare service.toService call sides).work.handledPaths.filter
        descriptor.contains = [] ++
          ((compare service.toService call sides).originalLocal.restrict descriptor.contains).paths
          ++ ((compare service.toService call sides).originalRemote.restrict
            descriptor.contains).paths := congrArg ContainerView.handled hview
  have hfilter : p ∈ (compare service.toService call sides).work.handledPaths
      ↔ p ∈ (compare service.toService call sides).work.handledPaths.filter
        descriptor.contains := by
    rw [List.mem_filter]
    exact ⟨fun h => ⟨h, hp⟩, And.left⟩
  rw [hfilter, hhandled, List.nil_append, List.mem_append, Manifest.mem_paths_iff,
    Manifest.mem_paths_iff, Manifest.get?_restrict, Manifest.get?_restrict, if_pos hp, if_pos hp,
    ← Option.ne_none_iff_exists', ← Option.ne_none_iff_exists']

/-- A path that a pass compares is not kept from the plan. -/
theorem not_handled_of_mem_paths {p : Path} (h : p ∈ (compare service.toService call sides).paths) :
    p ∉ (compare service.toService call sides).work.handledPaths := by
  intro hin
  rw [Comparison.paths, mem_planPaths_iff, get?_localReport, get?_remoteReport, get?_baseline,
    if_neg (not_not.mpr hin), if_neg (not_not.mpr hin), if_neg (not_not.mpr hin)] at h
  simp at h

end Loop

/-! ### What a merge leaves -/

section Merge

variable {service : SaveSyncService} {call : ReconcileCall} {env : ReconcileEnv}
variable {sides after : Sides} {obsolete : List SaveConflictRecord}
variable {descriptor : SaveGroupDescriptor} {p₀ : Path}

variable (service call sides descriptor) in
/-- **A merge.** A pass that is not upload-only merged a container, and left its group without
    conflict. -/
structure MergedBy (verdict : ContainerVerdict descriptor) : Prop where
  full : call.uploadOnly = false
  merged : reconcileVerdict service sides descriptor call = some (.ok verdict)
  clean : conflictedInPlan (compare service.toService call sides) descriptor.groupId = false

variable {verdict : ContainerVerdict descriptor}

theorem action_ne_conflict_of_clean {gid : GroupId}
    (h : conflictedInPlan (compare service.toService call sides) gid = false) {p : Path}
    {e : SaveGroupDescriptor} (he : service.registry.groupForPath p = some e)
    (hgid : e.groupId = gid)
    (hp : p ∈ (compare service.toService call sides).paths) :
    (compare service.toService call sides).action gid ≠ .conflict := by
  intro hconflict
  have hentry := (mem_plan_iff (compare service.toService call sides) _).mpr ⟨p, hp, rfl⟩
  have haction : (compare service.toService call sides).action (service.groupId p) = .conflict := by
    rw [Service.groupId_of_descriptor he, hgid]
    exact hconflict
  rw [conflictedInPlan, Bool.or_eq_false_iff, List.any_eq_false, List.any_eq_false] at h
  have hnot := h.2 _ hentry
  rw [Bool.and_eq_true, decide_eq_true_iff] at hnot
  refine hnot ⟨haction, ?_⟩
  show (service.registry.groupForPath p).any _ = true
  rw [he]
  exact decide_eq_true hgid

/-- The container itself has no conflict. -/
theorem MergedBy.conflictPaths (h : MergedBy service call sides descriptor verdict)
    (hd : service.registry.groupForPath p₀ = some descriptor) (hcontained : descriptor.contained) :
    descriptor.containerId ∉ (compare service.toService call sides).work.conflictedContainerIds
      ∧ verdict.conflictPaths = [] := by
  obtain ⟨hmem, hconflict⟩ := mem_work_of_merged hd hcontained h.full h.merged
  have hclean := h.clean
  rw [conflictedInPlan, Bool.or_eq_false_iff, List.any_eq_false, List.any_eq_false] at hclean
  have hnot : descriptor.containerId
      ∉ (compare service.toService call sides).work.conflictedContainerIds := by
    simpa using hclean.1 descriptor hmem
  refine ⟨hnot, ?_⟩
  by_contra hne
  exact hnot (hconflict hne)

/-- The baseline of a call at a path of a container that it merged. -/
theorem get?_selectedBaseline_of_merged (h : MergedBy service call sides descriptor verdict)
    (hd : service.registry.groupForPath p₀ = some descriptor) (hcontained : descriptor.contained)
    {p : Path} (hp : descriptor.contains p = true)
    (hsupported : service.registry.groupForPath p = some descriptor) :
    (selectedBaseline (compare service.toService call sides)).get? p
      = (compare service.toService call sides).desiredLocal.get? p := by
  obtain ⟨hnot, -⟩ := h.conflictPaths hd hcontained
  obtain ⟨hmem, -⟩ := mem_work_of_merged hd hcontained h.full h.merged
  -- where nothing is desired, the plan leaves nothing in its baseline
  have hbase : (compare service.toService call sides).desiredLocal.get? p = none →
      (if call.uploadOnly then uploadOnlyReconciledBaseline
          (compare service.toService call sides).plan
          (compare service.toService call sides).baseline
        else reconciledBaseline (compare service.toService call sides).plan
          (compare service.toService call sides).baseline).get? p = none := by
    intro hnone
    by_cases hpath : p ∈ (compare service.toService call sides).paths
    · have hhandled := not_handled_of_mem_paths hpath
      rw [mem_handledPaths_iff hd hcontained h.full h.merged hp, not_or, not_not, not_not]
        at hhandled
      have haction := action_ne_conflict_of_clean h.clean hsupported rfl hpath
      rw [get?_planBaseline _ hpath, h.full, if_neg (by simp), get?_localReport, get?_remoteReport,
        hhandled.1, hhandled.2, Service.groupId_of_descriptor hsupported]
      cases hact : (compare service.toService call sides).action descriptor.groupId with
      | conflict => exact absurd hact haction
      | upload => simp [baselineValue]
      | download => simp [baselineValue]
      | unchanged => simp [baselineValue]
    · exact get?_planBaseline_of_notMem _ hpath
  have hvalue : (selectedBaseline (compare service.toService call sides)).get? p
      = ((compare service.toService call sides).desiredLocal.get? p).or
        ((if call.uploadOnly then uploadOnlyReconciledBaseline
            (compare service.toService call sides).plan
            (compare service.toService call sides).baseline
          else reconciledBaseline (compare service.toService call sides).plan
            (compare service.toService call sides).baseline).get? p) := by
    unfold selectedBaseline
    apply Dict.look_foldl_or_of_mem (fun m : Manifest => m.get? p) _ _ (e := descriptor)
    · intro baseline
      rw [if_neg hnot, Manifest.get?_update, Manifest.get?_restrict]
      cases hdesired : (compare service.toService call sides).desiredLocal.get? p with
      | none => simp
      | some a => simp [hp]
    · intro baseline d hmem' hne
      obtain ⟨hcontained', q, hq⟩ : d.contained = true ∧ ∃ q,
          service.registry.groupForPath q = some d := by
        obtain ⟨hcont, -, q, hq⟩ := inScope_of_mem_containerDescriptors service.toService call sides
          ((work_within service.toService call sides).descriptors_sub d hmem')
        exact ⟨hcont, q, hq⟩
      have hout : d.contains p = false := by
        rw [← Bool.not_eq_true]
        exact fun hin => hne (service.apart.disjoint p₀ q p descriptor d hd hq hcontained
          hcontained' hp hin).symm
      dsimp only
      split <;> simp [hout]
    · exact hmem
  rw [hvalue]
  cases hdesired : (compare service.toService call sides).desiredLocal.get? p with
  | none => rw [hbase hdesired, Option.none_or]
  | some a => rw [Option.some_or]

/-- **The physical baseline of a merge** has the files of the local side. -/
theorem sharedManifest_of_merged (hdone : Completed service.toService call env sides after obsolete)
    (h : MergedBy service call sides descriptor verdict)
    (hd : service.registry.groupForPath p₀ = some descriptor) (hcontained : descriptor.contained)
    {p : Path} (hp : descriptor.contains p = true)
    (hsupported : service.registry.groupForPath p = some descriptor) :
    after.state.sharedManifest.get? p = after.localSide.get? p := by
  obtain ⟨hmem, -⟩ := mem_work_of_merged hd hcontained h.full h.merged
  obtain ⟨-, hscope⟩ := of_verdict hd hcontained h.merged
  have haffected : descriptor.groupId
      ∈ (affectedLayouts sides.state (compare service.toService call sides)).keys :=
    (mem_affectedLayouts_iff _ _ _ _).mpr (Or.inr (Or.inl ⟨descriptor, hmem, rfl⟩))
  have hlocal : (compare service.toService call sides).originalLocal.get? p
      = sides.localSide.get? p := by
    rw [get?_originalLocal, pathInScope_of_inScope hsupported hscope, if_pos rfl]
  rw [hdone.next.2.1, get?_nextState_sharedManifest _ _ _ _ hsupported,
    if_neg (not_not.mpr haffected), Option.or_none,
    get?_selectedBaseline_of_merged h hd hcontained hp hsupported, hdone.localSide, h.full,
    if_neg (by simp), get?_promote, hlocal]
  split
  · next heq => exact heq.symm
  · rfl

variable (service descriptor) in
/-- What both sides of a container read as after a merge, under its baseline. -/
def Content (after : Sides) (baseline : ContainerBaseline) : Prop :=
  after.state.containerBaselines.get? descriptor.containerId = some baseline
    ∧ ∃ format s, service.formats descriptor.containerAdapterId = some format
      ∧ format.snapshot descriptor (containerPart service descriptor after.localSide) = .ok s
      ∧ format.snapshot descriptor (containerPart service descriptor after.remoteSide) = .ok s
      ∧ Describes baseline s

theorem content_of_mergedBy (hdone : Completed service.toService call env sides after obsolete)
    (h : MergedBy service call sides descriptor verdict)
    (hd : service.registry.groupForPath p₀ = some descriptor) (hcontained : descriptor.contained) :
    Content service descriptor after verdict.nextBaseline := by
  obtain ⟨hlocal, hremote⟩ := containerPart_of_merged hdone h.full hd hcontained h.merged
  have hbaseline := @get?_containerBaselines_of_completed _ _ _ _ _ _ descriptor hdone
  rw [view_work service call sides hd hcontained h.full, h.merged] at hbaseline
  obtain ⟨⟨format, hformat, hadapter⟩, -⟩ := of_verdict hd hcontained h.merged
  obtain ⟨s, hl, hr, hdescribes⟩ := ContainerFormat.content_of_merged hadapter
    (h.conflictPaths hd hcontained).2
  exact ⟨hbaseline, format, s, hformat, hlocal ▸ hl, hremote ▸ hr, hdescribes⟩

/-- The other containers of the group that the pass took up were merged as well. -/
theorem mergedBy_of_mem_work (h : MergedBy service call sides descriptor verdict)
    {other : SaveGroupDescriptor}
    (hmem : other ∈ (compare service.toService call sides).work.descriptors)
    (hgid : other.groupId = descriptor.groupId) :
    other.contained = true ∧ (∃ q, service.registry.groupForPath q = some other)
      ∧ ∃ verdict', MergedBy service call sides other verdict' := by
  obtain ⟨hcontained, -, q, hq⟩ := inScope_of_mem_containerDescriptors service.toService call sides
    ((work_within service.toService call sides).descriptors_sub other hmem)
  obtain ⟨verdict', hverdict⟩ := (@fromVerdicts_work service call sides).descriptors other hmem
  exact ⟨hcontained, ⟨q, hq⟩, verdict', h.full, hverdict, hgid ▸ h.clean⟩

variable (service descriptor) in
/-- No other file of the group of a container is in the baseline and on neither side. -/
def NoneGone (after : Sides) : Prop :=
  ∀ p e, service.registry.groupForPath p = some e → e.groupId = descriptor.groupId →
    descriptor.contains p = false → after.localSide.get? p = none →
      after.remoteSide.get? p = none → after.state.sharedManifest.get? p = none

/-- **The group after a merge.** The baseline has its files on the local side, and outside of the
    merged containers both sides have the same files. -/
theorem group_of_merged (hdone : Completed service.toService call env sides after obsolete)
    (h : MergedBy service call sides descriptor verdict)
    (hd : service.registry.groupForPath p₀ = some descriptor) (hcontained : descriptor.contained)
    (hgone : NoneGone service descriptor after)
    {p : Path} {e : SaveGroupDescriptor} (he : service.registry.groupForPath p = some e)
    (hgid : e.groupId = descriptor.groupId) :
    after.state.sharedManifest.get? p = after.localSide.get? p
      ∧ ((∀ d ∈ (compare service.toService call sides).work.descriptors, d.contains p = false) →
        after.localSide.get? p = after.remoteSide.get? p) := by
  obtain ⟨-, hscope⟩ := of_verdict hd hcontained h.merged
  obtain ⟨hmem, -⟩ := mem_work_of_merged hd hcontained h.full h.merged
  by_cases hin : ∃ d ∈ (compare service.toService call sides).work.descriptors, d.contains p = true
  · obtain ⟨d, hdmem, hp⟩ := hin
    refine ⟨?_, fun hout => absurd hp (by simp [hout d hdmem])⟩
    obtain ⟨hcont, -, q, hq⟩ := inScope_of_mem_containerDescriptors service.toService call sides
      ((work_within service.toService call sides).descriptors_sub d hdmem)
    obtain rfl := service.apart.own q p d e hq hcont hp he
    obtain ⟨-, -, verdict', hmerged⟩ := mergedBy_of_mem_work h hdmem hgid
    exact sharedManifest_of_merged hdone hmerged hq hcont hp he
  · push Not at hin
    have hout : ∀ d ∈ (compare service.toService call sides).work.descriptors,
        d.contains p = false := fun d hdmem => by simpa using hin d hdmem
    have hwork := work_within service.toService call sides
    have hfree : p ∉ (compare service.toService call sides).work.handledPaths := by
      intro hhandled
      obtain ⟨d, hdmem, hp⟩ := hwork.handled p hhandled
      exact hin d hdmem hp
    -- the plan compares the path with what both sides have there
    have hpath := pathInScope_of_inScope he (hgid ▸ hscope)
    have hcovered := ((Bool.and_eq_true _ _).mp (pathInScope_of_inScope hd hscope)).1
    rw [pathCovered_iff hd] at hcovered
    have hcompared : PathCompared service.toService call sides p :=
      ⟨hpath, get?_originalRemote_of_wide (remoteScope_eq_none hd hcontained hcovered) hpath⟩
    obtain ⟨hlocal, hremote⟩ := hdone.get?_of_compared h.full hcompared
    have hpgid : service.groupId p = descriptor.groupId :=
      (Service.groupId_of_descriptor he).trans hgid
    have haffected : e.groupId
        ∈ (affectedLayouts sides.state (compare service.toService call sides)).keys :=
      (mem_affectedLayouts_iff _ _ _ _).mpr (Or.inr (Or.inl ⟨descriptor, hmem, hgid.symm⟩))
    have hgone' := hgone p e he hgid (hout descriptor hmem)
    rw [hdone.next.2.1, get?_nextState_sharedManifest _ _ _ _ he, if_neg (not_not.mpr haffected),
      Option.or_none, get?_selectedBaseline_of_not_contains _ hout, hlocal, hremote,
      get?_desiredLocal, get?_desiredRemote, hwork.local_outside p hout,
      hwork.remote_outside p hout, hpgid] at hgone' ⊢
    have hlreport : (compare service.toService call sides).localReport.artifacts.get? p
        = (compare service.toService call sides).originalLocal.get? p := by
      rw [get?_localReport, if_pos hfree]
    have hrreport : (compare service.toService call sides).remoteReport.artifacts.get? p
        = (compare service.toService call sides).originalRemote.get? p := by
      rw [get?_remoteReport, if_pos hfree]
    rw [← hlreport, ← hrreport] at hgone' ⊢
    by_cases hplan : p ∈ (compare service.toService call sides).paths
    · rw [get?_planBaseline _ hplan, h.full, hpgid] at hgone' ⊢
      simp only [Bool.false_eq_true, if_false, and_true] at hgone' ⊢
      cases haction : (compare service.toService call sides).action descriptor.groupId with
      | conflict => exact absurd haction (action_ne_conflict_of_clean h.clean he hgid hplan)
      | upload => simp [hplan, baselineValue]
      | download =>
        rw [haction] at hgone'
        cases hremote : (compare service.toService call sides).remoteReport.artifacts.get? p with
        | some a => simp [hplan, baselineValue]
        -- a deletion that is taken over stays in the baseline
        | none => simpa [hplan, hremote, baselineValue] using hgone'
      | unchanged =>
        have hspec := groupAction_spec service.registry.toSaveSelectionPolicy
          (compare service.toService call sides).repairLocalGroupIds
          (compare service.toService call sides).localReport.artifacts
          (compare service.toService call sides).remoteReport.artifacts
          (compare service.toService call sides).baseline descriptor.groupId
        rw [show groupAction _ _ _ _ _ _ = .unchanged from haction] at hspec
        have hsame := hspec p hpgid
        simp [baselineValue, hsame]
    · rw [get?_planBaseline_of_notMem _ hplan]
      obtain ⟨hl, hr, -⟩ := get?_eq_none_of_notMem_planPaths _ _ _ hplan
      simp [hplan, hl, hr]

end Merge

/-! ### The next pass -/

section Next

variable {service : SaveSyncService} {descriptor : SaveGroupDescriptor} {p₀ : Path}
variable {later : ReconcileCall} {next : Sides}

variable (service descriptor) in
/-- Two sides have the same files of the group of a container. -/
def SameFiles (m n : Manifest) : Prop :=
  ∀ p e, service.registry.groupForPath p = some e → e.groupId = descriptor.groupId →
    m.get? p = n.get? p

variable (service descriptor) in
/-- Since a pass, nothing of the group of a container changed but files of the container. -/
structure OnlyContainerChanged (after next : Sides) : Prop where
  state : next.state = after.state
  localRest : ∀ p e, service.registry.groupForPath p = some e →
    e.groupId = descriptor.groupId → descriptor.contains p = false →
      next.localSide.get? p = after.localSide.get? p
  remoteRest : ∀ p e, service.registry.groupForPath p = some e →
    e.groupId = descriptor.groupId → descriptor.contains p = false →
      next.remoteSide.get? p = after.remoteSide.get? p

variable (service descriptor) in
/-- A pass takes the container from the local side, as the newer one. -/
def TakesLocal (later : ReconcileCall) (next : Sides) : Prop :=
  (compare service.toService later next).action descriptor.groupId = .upload
    ∨ later.uploadOnly = false ∧ ∃ verdict,
      reconcileVerdict service next descriptor later = some (.ok verdict) ∧ verdict.uploaded ≠ 0

variable (service descriptor) in
/-- A pass takes the container from the remote side, as the newer one. -/
def TakesRemote (later : ReconcileCall) (next : Sides) : Prop :=
  (compare service.toService later next).action descriptor.groupId = .download
    ∨ later.uploadOnly = false ∧ ∃ verdict,
      reconcileVerdict service next descriptor later = some (.ok verdict) ∧ verdict.downloaded ≠ 0

variable (service descriptor) in
/-- A pass merges the container, and whatever else of its group differs between the sides. -/
def MergedAgain (later : ReconcileCall) (next : Sides) : Prop :=
  later.uploadOnly = false ∧ ∀ p e, service.registry.groupForPath p = some e →
    e.groupId = descriptor.groupId → next.localSide.get? p ≠ next.remoteSide.get? p →
      e.contained = true ∧ e.contains p = true
        ∧ ∃ verdict, reconcileVerdict service next e later = some (.ok verdict)

variable (service descriptor) in
/-- All that changed on the local side is that files of the container are missing. -/
def OnlyLost (after next : Sides) : Prop :=
  ∀ p a, (containerPart service descriptor next.localSide).get? p = some a →
    (containerPart service descriptor after.localSide).get? p = some a

theorem get?_physicalBaseline_of_inScope {p : Path}
    (h : pathInScope service.toService later next.state p = true) :
    (compare service.toService later next).physicalBaseline.get? p
      = next.state.sharedManifest.get? p := by
  obtain ⟨e, he, hcovered, hselected⟩ := exists_descriptor_of_pathInScope h
  have henabled : service.pathEnabled p = true := by
    rw [Service.pathEnabled, he]
    exact layoutEnabled_of_covers hcovered
  cases hgroups : effectiveGroups later with
  | some groups =>
    rw [get?_physicalBaseline_of_groups _ _ _ hgroups, if_pos]
    refine ⟨?_, henabled⟩
    rw [selects, hgroups] at hselected
    rw [Service.groupId_of_descriptor he]
    simpa using hselected
  | none =>
    unfold compare
    cases hlayouts : effectiveLayouts service.toService later with
    | some layouts =>
      rw [covers, hlayouts] at hcovered
      simp only [hgroups, Service.automaticBaseline, Manifest.get?_restrict]
      rw [if_pos (by rw [pathCovered_iff he]; exact hcovered), if_pos henabled]
    | none =>
      simp only [hgroups, Service.automaticBaseline, Manifest.get?_restrict]
      rw [if_pos henabled]

/-- What the plan compares at a path of the group that is not kept from it. -/
theorem reports_of_inScope (hd : service.registry.groupForPath p₀ = some descriptor)
    (hcontained : descriptor.contained)
    (hscope : InScope service.toService later next.state descriptor.groupId) {p : Path}
    {e : SaveGroupDescriptor} (he : service.registry.groupForPath p = some e)
    (hgid : e.groupId = descriptor.groupId)
    (hfree : p ∉ (compare service.toService later next).work.handledPaths) :
    (compare service.toService later next).localReport.artifacts.get? p = next.localSide.get? p
      ∧ (compare service.toService later next).remoteReport.artifacts.get? p
        = next.remoteSide.get? p
      ∧ (compare service.toService later next).baseline.get? p
        = next.state.sharedManifest.get? p := by
  have hin := pathInScope_of_inScope he (hgid ▸ hscope)
  have hcovered := ((Bool.and_eq_true _ _).mp (pathInScope_of_inScope hd hscope)).1
  rw [pathCovered_iff hd] at hcovered
  have hwide := remoteScope_eq_none hd hcontained hcovered
  rw [get?_localReport, get?_remoteReport, get?_baseline, if_pos hfree, if_pos hfree, if_pos hfree,
    get?_originalLocal, if_pos hin, get?_originalRemote_of_wide hwide hin,
    get?_physicalBaseline_of_inScope hin]
  exact ⟨rfl, rfl, rfl⟩

/-- Where the plan has nothing to compare. -/
theorem reports_of_absent {p : Path}
    (h : p ∈ (compare service.toService later next).work.handledPaths
      ∨ service.registry.groupForPath p = none) :
    (compare service.toService later next).localReport.artifacts.get? p = none
      ∧ (compare service.toService later next).remoteReport.artifacts.get? p = none
      ∧ (compare service.toService later next).baseline.get? p = none := by
  rw [get?_localReport, get?_remoteReport, get?_baseline]
  rcases h with h | h
  · rw [if_neg (not_not.mpr h), if_neg (not_not.mpr h), if_neg (not_not.mpr h)]
    exact ⟨rfl, rfl, rfl⟩
  · have hout : pathInScope service.toService later next.state p = false := by
      rw [pathInScope, Service.pathCovered, h]
      rfl
    have hphysical : (compare service.toService later next).physicalBaseline.get? p = none := by
      by_contra hne
      obtain ⟨a, ha⟩ := Option.ne_none_iff_exists'.mp hne
      obtain ⟨-, henabled, -⟩ := get?_physicalBaseline _ _ _ ha
      rw [Service.pathEnabled, h] at henabled
      exact absurd henabled (by simp)
    rw [get?_originalLocal, hout, get?_originalRemote_of_notInScope _ _ _ hout, hphysical]
    simp

variable (later next) in
/-- Two of the three sides that the plan compares agree on the group when they do at the paths that
    are not kept from it. -/
theorem sameGroup_of_reports {m n : Manifest}
    (habsent : ∀ p, p ∈ (compare service.toService later next).work.handledPaths
      ∨ service.registry.groupForPath p = none → m.get? p = n.get? p)
    (hfile : ∀ p e, service.registry.groupForPath p = some e → e.groupId = descriptor.groupId →
      p ∉ (compare service.toService later next).work.handledPaths → m.get? p = n.get? p) :
    SameGroup service.registry.toSaveSelectionPolicy m n descriptor.groupId := by
  intro p hp
  cases he : service.registry.groupForPath p with
  | none => exact habsent p (Or.inr he)
  | some e =>
    by_cases hin : p ∈ (compare service.toService later next).work.handledPaths
    · exact habsent p (Or.inl hin)
    · exact hfile p e he ((Service.groupId_of_descriptor he).symm.trans hp) hin

/-- A group out of scope is left alone. -/
theorem action_of_notInScope
    (h : ¬ InScope service.toService later next.state descriptor.groupId) :
    (compare service.toService later next).action descriptor.groupId = .unchanged := by
  apply action_of_empty
  intro p hp
  have hout : pathInScope service.toService later next.state p = false := by
    rw [← Bool.not_eq_true]
    exact fun hin => h ⟨p, hp, hin⟩
  rw [get?_localReport, get?_remoteReport, get?_originalLocal, hout,
    get?_originalRemote_of_notInScope _ _ _ hout]
  simp

/-- The plan where the local side has the baseline of the group. -/
theorem action_of_localBase (hd : service.registry.groupForPath p₀ = some descriptor)
    (hcontained : descriptor.contained)
    (hbase : SameFiles service descriptor next.localSide next.state.sharedManifest) :
    (compare service.toService later next).action descriptor.groupId ≠ .conflict
      ∧ (compare service.toService later next).action descriptor.groupId ≠ .upload := by
  by_cases hscope : InScope service.toService later next.state descriptor.groupId
  · have hsame : SameGroup service.registry.toSaveSelectionPolicy
        (compare service.toService later next).localReport.artifacts
        (compare service.toService later next).baseline descriptor.groupId := by
      refine sameGroup_of_reports later next (fun p hp => ?_) (fun p e he hgid hfree => ?_)
      · obtain ⟨hl, -, hb⟩ := reports_of_absent hp
        rw [hl, hb]
      · obtain ⟨hl, -, hb⟩ := reports_of_inScope hd hcontained hscope he hgid hfree
        rw [hl, hb, hbase p e he hgid]
    have hspec := groupAction_spec service.registry.toSaveSelectionPolicy
      (compare service.toService later next).repairLocalGroupIds
      (compare service.toService later next).localReport.artifacts
      (compare service.toService later next).remoteReport.artifacts
      (compare service.toService later next).baseline descriptor.groupId
    constructor
    · intro haction
      rw [show groupAction _ _ _ _ _ _ = .conflict from haction] at hspec
      exact hspec.2.2 hsame
    · intro haction
      rw [show groupAction _ _ _ _ _ _ = .upload from haction] at hspec
      exact hspec.1 (hsame.trans hspec.2.symm)
  · rw [action_of_notInScope hscope]
    simp

/-- The plan where the remote side has the baseline of the group: a download only fills up what the
    local side lost. -/
theorem action_of_remoteBase (hd : service.registry.groupForPath p₀ = some descriptor)
    (hcontained : descriptor.contained)
    (hbase : SameFiles service descriptor next.remoteSide next.state.sharedManifest) :
    (compare service.toService later next).action descriptor.groupId ≠ .conflict
      ∧ ((compare service.toService later next).action descriptor.groupId = .download →
        ∀ p e, service.registry.groupForPath p = some e → e.groupId = descriptor.groupId →
          p ∉ (compare service.toService later next).work.handledPaths →
            ∀ a, next.localSide.get? p = some a → next.remoteSide.get? p = some a) := by
  by_cases hscope : InScope service.toService later next.state descriptor.groupId
  · have hsame : SameGroup service.registry.toSaveSelectionPolicy
        (compare service.toService later next).remoteReport.artifacts
        (compare service.toService later next).baseline descriptor.groupId := by
      refine sameGroup_of_reports later next (fun p hp => ?_) (fun p e he hgid hfree => ?_)
      · obtain ⟨-, hr, hb⟩ := reports_of_absent hp
        rw [hr, hb]
      · obtain ⟨-, hr, hb⟩ := reports_of_inScope hd hcontained hscope he hgid hfree
        rw [hr, hb, hbase p e he hgid]
    have hspec := groupAction_spec service.registry.toSaveSelectionPolicy
      (compare service.toService later next).repairLocalGroupIds
      (compare service.toService later next).localReport.artifacts
      (compare service.toService later next).remoteReport.artifacts
      (compare service.toService later next).baseline descriptor.groupId
    constructor
    · intro haction
      rw [show groupAction _ _ _ _ _ _ = .conflict from haction] at hspec
      exact hspec.2.1 hsame
    · intro haction p e he hgid hfree a ha
      rw [show groupAction _ _ _ _ _ _ = .download from haction] at hspec
      obtain ⟨hl, hr, -⟩ := reports_of_inScope hd hcontained hscope he hgid hfree
      rcases hspec.2 with hlocal | hgap
      · exact absurd (hlocal.trans hsame.symm) hspec.1
      · rw [← hr]
        exact hgap p ((Service.groupId_of_descriptor he).trans hgid) a (hl.trans ha)
  · rw [action_of_notInScope hscope]
    simp

/-- The plan where whatever differs is merged. -/
theorem action_of_mergedAgain (hd : service.registry.groupForPath p₀ = some descriptor)
    (hcontained : descriptor.contained) (h : MergedAgain service descriptor later next) :
    (compare service.toService later next).action descriptor.groupId = .unchanged := by
  by_cases hscope : InScope service.toService later next.state descriptor.groupId
  case neg => exact action_of_notInScope hscope
  obtain ⟨hfull, hmerged⟩ := h
  have hsame : SameGroup service.registry.toSaveSelectionPolicy
      (compare service.toService later next).localReport.artifacts
      (compare service.toService later next).remoteReport.artifacts descriptor.groupId := by
    refine sameGroup_of_reports later next (fun p hp => ?_) (fun p e he hgid hfree => ?_)
    · obtain ⟨hl, hr, -⟩ := reports_of_absent hp
      rw [hl, hr]
    · by_cases hsides : next.localSide.get? p = next.remoteSide.get? p
      · obtain ⟨hl, hr, -⟩ := reports_of_inScope hd hcontained hscope he hgid hfree
        rw [hl, hr, hsides]
      · -- the files of a merged container are kept from the plan
        obtain ⟨hcont, hin, verdict, hverdict⟩ := hmerged p e he hgid hsides
        have hnone := hfree
        rw [mem_handledPaths_iff he hcont hfull hverdict hin, not_or, not_not, not_not] at hnone
        rw [get?_localReport, get?_remoteReport, hnone.1, hnone.2]
  have hspec := groupAction_spec service.registry.toSaveSelectionPolicy
    (compare service.toService later next).repairLocalGroupIds
    (compare service.toService later next).localReport.artifacts
    (compare service.toService later next).remoteReport.artifacts
    (compare service.toService later next).baseline descriptor.groupId
  cases haction : (compare service.toService later next).action descriptor.groupId with
  | unchanged => rfl
  | upload =>
    rw [show groupAction _ _ _ _ _ _ = .upload from haction] at hspec
    exact absurd hsame hspec.1
  | download =>
    rw [show groupAction _ _ _ _ _ _ = .download from haction] at hspec
    exact absurd hsame hspec.1
  | conflict =>
    rw [show groupAction _ _ _ _ _ _ = .conflict from haction] at hspec
    exact absurd hsame hspec.1

/-- What a pass compares of a container in scope are its files. -/
theorem part_of_inScope (hd : service.registry.groupForPath p₀ = some descriptor)
    (hcontained : descriptor.contained)
    (hscope : InScope service.toService later next.state descriptor.groupId) :
    (compare service.toService later next).originalLocal.restrict descriptor.contains
        = containerPart service descriptor next.localSide
      ∧ (compare service.toService later next).originalRemote.restrict descriptor.contains
        = containerPart service descriptor next.remoteSide := by
  have hpath : ∀ p, descriptor.contains p = true →
      (compare service.toService later next).originalLocal.get? p
          = (if (service.registry.groupForPath p).isSome then next.localSide.get? p else none)
        ∧ (compare service.toService later next).originalRemote.get? p
          = (if (service.registry.groupForPath p).isSome then next.remoteSide.get? p
            else none) := by
    intro p hp
    cases he : service.registry.groupForPath p with
    | none =>
      have hout : pathInScope service.toService later next.state p = false := by
        rw [pathInScope, Service.pathCovered, he]
        rfl
      rw [get?_originalLocal, hout, get?_originalRemote_of_notInScope _ _ _ hout]
      exact ⟨rfl, rfl⟩
    | some e =>
      obtain rfl := service.apart.own p₀ p descriptor e hd hcontained hp he
      have hin := pathInScope_of_inScope he hscope
      rw [get?_originalLocal, if_pos hin, get?_originalRemote_of_contained he hcontained hin]
      exact ⟨rfl, rfl⟩
  constructor
  · refine Manifest.ext_get? fun p => ?_
    rw [get?_containerPart, Manifest.get?_restrict]
    by_cases hp : descriptor.contains p = true
    · rw [if_pos hp, (hpath p hp).1]
      simp [hp]
    · simp [hp]
  · refine Manifest.ext_get? fun p => ?_
    rw [get?_containerPart, Manifest.get?_restrict]
    by_cases hp : descriptor.contains p = true
    · rw [if_pos hp, (hpath p hp).2]
      simp [hp]
    · simp [hp]

/-- A container with the same files on both sides has no conflict. -/
theorem conflictPaths_of_inSync (hd : service.registry.groupForPath p₀ = some descriptor)
    (hcontained : descriptor.contained)
    (hsync : containerPart service descriptor next.localSide
      = containerPart service descriptor next.remoteSide) {verdict : ContainerVerdict descriptor}
    (hverdict : reconcileVerdict service next descriptor later = some (.ok verdict)) :
    verdict.conflictPaths = [] := by
  obtain ⟨⟨format, -, hadapter⟩, hscope⟩ := of_verdict hd hcontained hverdict
  obtain ⟨hlocal, hremote⟩ := part_of_inScope hd hcontained hscope
  rw [hlocal, hremote, hsync] at hadapter
  exact ContainerFormat.conflictPaths_of_same hadapter

/-- A container of which one side still reads as the baseline has no conflict, and nothing is taken
    from that side. -/
theorem verdict_of_content {after : Sides} {baseline : ContainerBaseline}
    (hcontent : Content service descriptor after baseline) (hstate : next.state = after.state)
    (hd : service.registry.groupForPath p₀ = some descriptor) (hcontained : descriptor.contained)
    {verdict : ContainerVerdict descriptor}
    (hverdict : reconcileVerdict service next descriptor later = some (.ok verdict)) :
    (containerPart service descriptor next.remoteSide
        = containerPart service descriptor after.remoteSide →
          verdict.conflictPaths = [] ∧ verdict.downloaded = 0)
      ∧ (containerPart service descriptor next.localSide
        = containerPart service descriptor after.localSide →
          verdict.conflictPaths = [] ∧ verdict.uploaded = 0) := by
  obtain ⟨⟨format, hformat, hadapter⟩, hscope⟩ := of_verdict hd hcontained hverdict
  obtain ⟨hlocal, hremote⟩ := part_of_inScope hd hcontained hscope
  obtain ⟨hbaseline, format', s, hformat', hl, hr, hdescribes⟩ := hcontent
  obtain rfl := Option.some.inj (hformat.symm.trans hformat')
  rw [hlocal, hremote, hstate, hbaseline] at hadapter
  obtain ⟨hkeptRemote, hkeptLocal⟩ := ContainerFormat.verdict_of_edit hadapter hdescribes
  constructor
  · intro hkept
    exact hkeptRemote (hkept ▸ hr)
  · intro hkept
    exact hkeptLocal (hkept ▸ hl)

/-- The group of a container is not in conflict when neither its containers nor the plan are. -/
theorem not_conflictedInPlan
    (haction : (compare service.toService later next).action descriptor.groupId ≠ .conflict)
    (hown : ∀ other q, service.registry.groupForPath q = some other → other.contained →
      other.groupId = descriptor.groupId → ∀ verdict,
        reconcileVerdict service next other later = some (.ok verdict) →
          verdict.conflictPaths = []) :
    conflictedInPlan (compare service.toService later next) descriptor.groupId = false := by
  rw [conflictedInPlan, Bool.or_eq_false_iff, List.any_eq_false, List.any_eq_false]
  have hregistered : ∀ d ∈ (compare service.toService later next).work.descriptors,
      d.contained = true ∧ ∃ q, service.registry.groupForPath q = some d := by
    intro d hmem
    obtain ⟨hcont, -, hq⟩ := inScope_of_mem_containerDescriptors service.toService later next
      ((work_within service.toService later next).descriptors_sub d hmem)
    exact ⟨hcont, hq⟩
  constructor
  · intro d hmem hconflict
    rw [Bool.and_eq_true, decide_eq_true_iff, decide_eq_true_iff] at hconflict
    obtain ⟨e, verdict, hmem', hid, hverdict, hne⟩ :=
      (@fromVerdicts_work service later next).conflicted _ hconflict.2
    obtain ⟨hcont, q, hq⟩ := hregistered d hmem
    obtain ⟨hcont', q', hq'⟩ := hregistered e hmem'
    obtain rfl := service.apart.named q q' d e hq hq' hcont hid
    exact hne (hown e q hq hcont hconflict.1 verdict hverdict)
  · intro entry hentry hconflict
    obtain ⟨p, -, rfl⟩ := (mem_plan_iff (compare service.toService later next) entry).mp hentry
    rw [Bool.and_eq_true, decide_eq_true_iff] at hconflict
    obtain ⟨hact, hgroup⟩ := hconflict
    obtain ⟨e, he, hgid⟩ := (Option.any_eq_true _ _).mp hgroup
    have hp : service.groupId p = descriptor.groupId :=
      (Service.groupId_of_descriptor he).trans (of_decide_eq_true hgid)
    exact haction (hp ▸ hact)

end Next

section Change

variable {service : SaveSyncService} {call later : ReconcileCall} {env : ReconcileEnv}
variable {sides after next : Sides} {obsolete : List SaveConflictRecord}
variable {descriptor : SaveGroupDescriptor} {p₀ : Path} {verdict : ContainerVerdict descriptor}

/-- The other containers of the group have no conflict. -/
theorem conflictPaths_of_other
    (hdone : Completed service.toService call env sides after obsolete)
    (h : MergedBy service call sides descriptor verdict)
    (hd : service.registry.groupForPath p₀ = some descriptor) (hcontained : descriptor.contained)
    (hgone : NoneGone service descriptor after)
    (hchange : OnlyContainerChanged service descriptor after next)
    {other : SaveGroupDescriptor} {q : Path} (hq : service.registry.groupForPath q = some other)
    (hcont : other.contained) (hgid : other.groupId = descriptor.groupId)
    (hne : other ≠ descriptor) {verdict' : ContainerVerdict other}
    (hverdict : reconcileVerdict service next other later = some (.ok verdict')) :
    verdict'.conflictPaths = [] := by
  have hout : ∀ p, other.contains p = true → descriptor.contains p = false := by
    intro p hp
    rw [← Bool.not_eq_true]
    exact fun hin => hne
      (service.apart.disjoint p₀ q p descriptor other hd hq hcontained hcont hin hp).symm
  have hlocal : containerPart service other next.localSide
      = containerPart service other after.localSide :=
    containerPart_congr hq hcont fun p hp he => hchange.localRest p other he hgid (hout p hp)
  have hremote : containerPart service other next.remoteSide
      = containerPart service other after.remoteSide :=
    containerPart_congr hq hcont fun p hp he => hchange.remoteRest p other he hgid (hout p hp)
  by_cases hmem : other ∈ (compare service.toService call sides).work.descriptors
  · -- the pass before merged it, and it reads as its baseline
    obtain ⟨-, -, before, hmerged⟩ := mergedBy_of_mem_work h hmem hgid
    have hcontent := content_of_mergedBy hdone hmerged hq hcont
    exact ((verdict_of_content hcontent hchange.state hq hcont hverdict).1 hremote).1
  · -- the pass before planned its files, and both sides have them
    refine conflictPaths_of_inSync hq hcont ?_ hverdict
    rw [hlocal, hremote]
    refine containerPart_congr hq hcont fun p hp he => ?_
    refine (group_of_merged hdone h hd hcontained hgone he hgid).2 fun d hdmem => ?_
    obtain ⟨hcont', -, q', hq'⟩ := inScope_of_mem_containerDescriptors service.toService call sides
      ((work_within service.toService call sides).descriptors_sub d hdmem)
    rw [← Bool.not_eq_true]
    intro hin
    obtain rfl := service.apart.disjoint q' q p d other hq' hq hcont' hcont hin hp
    exact hmem hdmem

/-- The group of a container is not in conflict when neither the container nor the plan is. -/
theorem not_conflicted_of_change
    (hdone : Completed service.toService call env sides after obsolete)
    (h : MergedBy service call sides descriptor verdict)
    (hd : service.registry.groupForPath p₀ = some descriptor) (hcontained : descriptor.contained)
    (hgone : NoneGone service descriptor after)
    (hchange : OnlyContainerChanged service descriptor after next)
    (haction : (compare service.toService later next).action descriptor.groupId ≠ .conflict)
    (hown : ∀ verdict', reconcileVerdict service next descriptor later = some (.ok verdict') →
      verdict'.conflictPaths = []) :
    conflictedInPlan (compare service.toService later next) descriptor.groupId = false := by
  apply not_conflictedInPlan haction
  intro other q hq hcont hgid verdict' hverdict
  by_cases hsame : other = descriptor
  · subst hsame
    exact hown verdict' hverdict
  · exact conflictPaths_of_other hdone h hd hcontained hgone hchange hq hcont hgid hsame hverdict

/-- When the remote side changed, the next pass takes it over. -/
theorem followed_of_remote (hdone : Completed service.toService call env sides after obsolete)
    (h : MergedBy service call sides descriptor verdict)
    (hd : service.registry.groupForPath p₀ = some descriptor) (hcontained : descriptor.contained)
    (hgone : NoneGone service descriptor after)
    (hchange : OnlyContainerChanged service descriptor after next)
    (hkept : SameFiles service descriptor next.localSide after.localSide) :
    conflictedInPlan (compare service.toService later next) descriptor.groupId = false
      ∧ ¬ TakesLocal service descriptor later next := by
  have hpart : containerPart service descriptor next.localSide
      = containerPart service descriptor after.localSide :=
    containerPart_congr hd hcontained fun p _ he => hkept p descriptor he rfl
  have hbase : SameFiles service descriptor next.localSide next.state.sharedManifest := by
    intro p e he hgid
    rw [hkept p e he hgid, hchange.state, (group_of_merged hdone h hd hcontained hgone he hgid).1]
  obtain ⟨hconflict, hupload⟩ := @action_of_localBase _ _ _ later next hd hcontained hbase
  have hcontent := content_of_mergedBy hdone h hd hcontained
  have hown : ∀ verdict', reconcileVerdict service next descriptor later = some (.ok verdict') →
      verdict'.conflictPaths = [] ∧ verdict'.uploaded = 0 := fun verdict' hverdict =>
    (verdict_of_content hcontent hchange.state hd hcontained hverdict).2 hpart
  constructor
  · exact not_conflicted_of_change hdone h hd hcontained hgone hchange hconflict
      fun verdict' hverdict => (hown verdict' hverdict).1
  · intro htakes
    rcases htakes with haction | ⟨-, verdict', hverdict, hne⟩
    · exact hupload haction
    · exact hne (hown verdict' hverdict).2

/-- When the local side changed, the container has no conflict, and nothing is taken from the
    remote side of it. -/
theorem own_of_local (hdone : Completed service.toService call env sides after obsolete)
    (h : MergedBy service call sides descriptor verdict)
    (hd : service.registry.groupForPath p₀ = some descriptor) (hcontained : descriptor.contained)
    (hchange : OnlyContainerChanged service descriptor after next)
    (hkept : SameFiles service descriptor next.remoteSide after.remoteSide)
    {verdict' : ContainerVerdict descriptor}
    (hverdict : reconcileVerdict service next descriptor later = some (.ok verdict')) :
    verdict'.conflictPaths = [] ∧ verdict'.downloaded = 0 := by
  have hpart : containerPart service descriptor next.remoteSide
      = containerPart service descriptor after.remoteSide :=
    containerPart_congr hd hcontained fun p _ he => hkept p descriptor he rfl
  exact (verdict_of_content (content_of_mergedBy hdone h hd hcontained) hchange.state hd hcontained
    hverdict).1 hpart

/-- A container that differs is merged again, when any path of it is kept from the plan. -/
theorem mergedAgain_of_handled
    (hsame : SameFiles service descriptor after.localSide after.remoteSide)
    (hd : service.registry.groupForPath p₀ = some descriptor) (hcontained : descriptor.contained)
    (hchange : OnlyContainerChanged service descriptor after next) {p : Path}
    (hp : descriptor.contains p = true)
    (hhandled : p ∈ (compare service.toService later next).work.handledPaths) :
    MergedAgain service descriptor later next := by
  obtain ⟨d, hmem, hin⟩ := (work_within service.toService later next).handled p hhandled
  obtain ⟨hcont, -, q, hq⟩ := inScope_of_mem_containerDescriptors service.toService later next
    ((work_within service.toService later next).descriptors_sub d hmem)
  obtain rfl := service.apart.disjoint p₀ q p descriptor d hd hq hcontained hcont hp hin
  obtain ⟨verdict', hverdict⟩ := (@fromVerdicts_work service later next).descriptors _ hmem
  constructor
  · by_contra hupload
    rw [Bool.not_eq_false] at hupload
    -- an upload-only pass merges nothing
    have hstart : (compare service.toService later next).work
        = ContainerWork.start (compare service.toService later next).originalLocal
          (compare service.toService later next).originalRemote := by
      show prepareContainers _ _ _ _ _ _ = _
      unfold prepareContainers
      rw [if_pos hupload]
      rfl
    rw [hstart] at hmem
    exact absurd hmem List.not_mem_nil
  · intro x e he hgid hdiffer
    by_cases hx : descriptor.contains x = true
    · obtain rfl := service.apart.own p₀ x descriptor e hd hcontained hx he
      exact ⟨hcontained, hx, verdict', hverdict⟩
    · have hout : descriptor.contains x = false := by simpa using hx
      refine absurd ?_ hdiffer
      rw [hchange.localRest x e he hgid hout, hchange.remoteRest x e he hgid hout]
      exact hsame x e he hgid

end Change

/-- The entry of a card: what is saved is told by the first two digits of its hash, and the rest
    tells where its blocks lie. -/
def blockEntry (file : SaveArtifact) : ContainerEntry :=
  ⟨file.relativePath, "SCUS-94163", String.ofList (file.contentHash.toList.take 2), file.sizeBytes⟩

def blockEntries (files : Manifest) : Except OpaqueReason (List ContainerEntry) :=
  if ((files.artifacts.map blockEntry).map ContainerEntry.identity).Nodup then
    .ok (files.artifacts.map blockEntry)
  else .error (.other "invalid-structure")

/-- A format that finds no free block on any card. -/
def blockFormat : ContainerFormat where
  adapterId := "ps1-raw-memory-card"
  schemaVersion := 1
  formatVariant := "ps1-raw-128k"
  readEntries := fun _ => blockEntries
  rebuild := fun _ _ _ _ _ => .error (.other "insufficient-capacity")
  distinct := by
    intro d m entries h
    unfold blockEntries at h
    split at h
    · next hnd => exact Except.ok.inj h ▸ hnd
    · exact absurd h (by simp)
  rebuild_inside := by
    intro d l r m target files p a h
    exact absurd h (by simp)
  rebuild_known := by
    intro d l r m target files p a h
    exact absurd h (by simp)
  rebuild_reads := by
    intro d l r m target files h
    exact absurd h (by simp)

def slotPath : Path := "duckstation/memcards/slot.mcd"

/-- A card whose name differs in its first letter, and only there. -/
def otherSlotPath : Path := "duckstation/memcards/Slot.mcd"

def slotDescriptor (path : Path) : SaveGroupDescriptor :=
  ⟨"duckstation-memory-cards/memcards/slot", "duckstation-memory-cards", "duckstation", path,
    "ps1-raw-memory-card", "file"⟩

/-- Group keys are folded to lower case, so both cards are in one group. -/
def slotGroupForPath (path : Path) : Option SaveGroupDescriptor :=
  if path ∈ [slotPath, otherSlotPath] then some (slotDescriptor path) else none

theorem of_slotGroupForPath {p : Path} {d : SaveGroupDescriptor}
    (h : slotGroupForPath p = some d) : d = slotDescriptor p := by
  unfold slotGroupForPath at h
  split at h
  · exact (Option.some.inj h).symm
  · exact absurd h (by simp)

theorem slot_contains {p q : Path} (h : (slotDescriptor p).contains q = true) : q = p := by
  unfold SaveGroupDescriptor.contains at h
  rw [if_pos (by rfl)] at h
  exact of_decide_eq_true h

def slotRegistry : SaveRegistry where
  layouts := cardRegistry.layouts
  groupForPath := slotGroupForPath
  plain := cardRegistry.plain
  registered := by
    intro p d h
    rw [of_slotGroupForPath h]
    exact ⟨_, List.mem_cons_self, rfl⟩
  group_prefix := by
    intro p d h
    rw [of_slotGroupForPath h]
    exact ⟨"memcards/slot", rfl⟩
  container_closed := by
    intro p q d e h _ _ he
    rw [of_slotGroupForPath h, of_slotGroupForPath he]
    rfl
  container_group := by
    intro p q d e h he _ _
    rw [of_slotGroupForPath h, of_slotGroupForPath he]
    rfl

def slotService : SaveSyncService where
  registry := slotRegistry
  enabledOptionalSystems := ∅
  containerRegistry := fun id =>
    if id = "ps1-raw-memory-card" then some blockFormat.adapter else none
  formats := fun id => if id = "ps1-raw-memory-card" then some blockFormat else none
  lifecycleEnabled := fun _ => true
  apart :=
    { own := fun p q d e h _ hin he => by
        rw [of_slotGroupForPath h] at hin ⊢
        rw [of_slotGroupForPath he, slot_contains hin]
      named := fun p q d e h he _ hid => by
        rw [of_slotGroupForPath h, of_slotGroupForPath he] at hid ⊢
        rw [show q = p from hid]
      disjoint := fun p q x d e h he _ _ hx hx' => by
        rw [of_slotGroupForPath h] at hx ⊢
        rw [of_slotGroupForPath he] at hx' ⊢
        rw [← slot_contains hx, ← slot_contains hx']
      adapted := by
        intro p d h _
        rw [of_slotGroupForPath h]
        exact ⟨_, List.mem_cons_self, rfl, rfl⟩ }
  registry_formats := by
    intro id
    split <;> rfl

def slotFile (path : Path) (hash : String) : SaveArtifact := ⟨path, 131072, hash⟩

/-- Two sides that no pass has compared yet, with what older passes left in the baseline. -/
def slotSides (localFiles remoteFiles baseline : List SaveArtifact) : Sides where
  localSide := Manifest.ofArtifacts localFiles
  remoteSide := Manifest.ofArtifacts remoteFiles
  state :=
    { deviceId := "device"
      sharedManifest := Manifest.ofArtifacts baseline
      lastReconcile := none
      groups := ∅
      conflicts := []
      containerBaselines := ∅
      lastCompletedOperationId := none
      quickSyncCursorGeneration := none
      quickSyncReady := false }

def slotCard : SaveGroupDescriptor := slotDescriptor slotPath

/-- The local side writes other files to the card. -/
def editLocal (files : List SaveArtifact) (after : Sides) : Sides :=
  { after with
    localSide := replaceContainerManifest after.localSide slotCard
      (some (Manifest.ofArtifacts files)) }

/-- The remote side gets other files of the card. -/
def editRemote (files : List SaveArtifact) (after : Sides) : Sides :=
  { after with
    remoteSide := replaceContainerManifest after.remoteSide slotCard
      (some (Manifest.ofArtifacts files)) }

theorem get?_replace_slot {side : Manifest} {files : List SaveArtifact}
    (h : ∀ a ∈ files, a.relativePath = slotPath) {p : Path} (hp : slotCard.contains p = false) :
    (replaceContainerManifest side slotCard (some (Manifest.ofArtifacts files))).get? p
      = side.get? p := by
  apply get?_replaceContainerManifest_of_not_contains _ hp
  intro m q a hm hq
  obtain rfl := Option.some.inj hm
  rw [← Manifest.relativePath_of_get? hq, h a (Manifest.mem_of_get?_ofArtifacts hq)]
  decide

theorem onlyContainerChanged_edit {files : List SaveArtifact}
    (h : ∀ a ∈ files, a.relativePath = slotPath) (after : Sides) :
    OnlyContainerChanged slotService slotCard after (editLocal files after)
      ∧ OnlyContainerChanged slotService slotCard after (editRemote files after) := by
  constructor
  · exact ⟨rfl, fun p e _ _ hp => get?_replace_slot h hp, fun _ _ _ _ _ => rfl⟩
  · exact ⟨rfl, fun _ _ _ _ _ => rfl, fun p e _ _ hp => get?_replace_slot h hp⟩

/-- The full pass merged the card, and the card has no conflict. -/
def slotMerged (before : Sides) : Bool :=
  match reconcileVerdict slotService before slotCard (layoutCall none) with
  | some (.ok verdict) => verdict.conflictPaths = []
  | _ => false

/-- What holds of the sides after a full pass that merged the card. -/
def slotRun (before : Sides) (check : Sides → Bool) : Bool :=
  slotMerged before
    && ((reconcileOnce slotService.toService (layoutCall none) quietEnv before).toOption.join).any
      (fun result => check result.2)

theorem of_slotRun {before : Sides} {check : Sides → Bool} (h : slotRun before check = true) :
    ∃ report after, ∃ verdict : ContainerVerdict slotCard,
      reconcileOnce slotService.toService (layoutCall none) quietEnv before
          = .ok (some (report, after))
        ∧ reconcileVerdict slotService before slotCard (layoutCall none) = some (.ok verdict)
        ∧ verdict.conflictPaths = [] ∧ check after = true := by
  obtain ⟨hmerged, hrun⟩ := Bool.and_eq_true_iff.mp h
  obtain ⟨⟨report, after⟩, hresult, hcheck⟩ := (Option.any_eq_true _ _).mp hrun
  unfold slotMerged at hmerged
  cases hverdict : reconcileVerdict slotService before slotCard (layoutCall none) with
  | none =>
    rw [hverdict] at hmerged
    exact absurd hmerged (by simp)
  | some found =>
    cases found with
    | error reason =>
      rw [hverdict] at hmerged
      exact absurd hmerged (by simp)
    | ok verdict =>
      rw [hverdict] at hmerged
      refine ⟨report, after, verdict, ?_, rfl, of_decide_eq_true hmerged, hcheck⟩
      generalize reconcileOnce slotService.toService (layoutCall none) quietEnv before = ran
        at hresult
      cases ran with
      | error error => cases hresult
      | ok result => exact congrArg Except.ok (Option.some.inj (Option.join_eq_some_iff.mp hresult))

/-- A pass merged the card without a domain conflict, one side of it changed, and the next pass
    finds a conflict or takes the side that did not change. -/
def Misled (before : Sides) (change : Sides → Sides) (later : ReconcileCall) : Prop :=
  ∃ report after, ∃ verdict : ContainerVerdict slotCard,
    reconcileOnce slotService.toService (layoutCall none) quietEnv before
        = .ok (some (report, after))
      ∧ reconcileVerdict slotService before slotCard (layoutCall none) = some (.ok verdict)
      ∧ verdict.conflictPaths = []
      ∧ OnlyContainerChanged slotService slotCard after (change after)
      ∧ ((SameFiles slotService slotCard (change after).localSide after.localSide
          ∧ (conflictedInPlan (compare slotService.toService later (change after)) slotCard.groupId
              = true ∨ TakesLocal slotService slotCard later (change after)))
        ∨ (SameFiles slotService slotCard (change after).remoteSide after.remoteSide
          ∧ (conflictedInPlan (compare slotService.toService later (change after)) slotCard.groupId
              = true ∨ TakesRemote slotService slotCard later (change after))))

theorem misled_of_local {before : Sides} {files : List SaveArtifact} {later : ReconcileCall}
    (hfiles : ∀ a ∈ files, a.relativePath = slotPath)
    (h : slotRun before (fun after =>
      conflictedInPlan (compare slotService.toService later (editLocal files after))
          slotCard.groupId
        || decide ((compare slotService.toService later (editLocal files after)).action
            slotCard.groupId = .download)) = true) :
    Misled before (editLocal files) later := by
  obtain ⟨report, after, verdict, hrun, hverdict, hclean, hcheck⟩ := of_slotRun h
  refine ⟨report, after, verdict, hrun, hverdict, hclean,
    (onlyContainerChanged_edit hfiles after).1, Or.inr ⟨fun _ _ _ _ => rfl, ?_⟩⟩
  rcases Bool.or_eq_true_iff.mp hcheck with hconflict | hdownload
  · exact Or.inl hconflict
  · exact Or.inr (Or.inl (of_decide_eq_true hdownload))

theorem misled_of_remote {before : Sides} {files : List SaveArtifact} {later : ReconcileCall}
    (hfiles : ∀ a ∈ files, a.relativePath = slotPath)
    (h : slotRun before (fun after =>
      conflictedInPlan (compare slotService.toService later (editRemote files after))
        slotCard.groupId) = true) :
    Misled before (editRemote files) later := by
  obtain ⟨report, after, verdict, hrun, hverdict, hclean, hcheck⟩ := of_slotRun h
  exact ⟨report, after, verdict, hrun, hverdict, hclean, (onlyContainerChanged_edit hfiles after).2,
    Or.inl ⟨fun _ _ _ _ => rfl, Or.inl hcheck⟩⟩

end RomCloud.SaveSync
