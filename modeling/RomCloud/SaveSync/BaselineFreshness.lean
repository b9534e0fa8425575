import RomCloud.SaveSync.ContainerBaseline
import RomCloud.SaveSync.Deliberate

namespace RomCloud.SaveSync

open RomCloud.Lib

/-!
# When a stored container baseline is fresh

Three kinds of operations can leave the same bytes of a container on both sides: a reconciliation,
the resolution of a conflict and a force transfer.  Each writes the baseline of the container anew,
drops it, or leaves the one on record.

* `ContainerOperation` — the operations, and `run`;
* `containerPart` — the files of a container on a side;
* `Fresh` — the baseline on record is absent, or what is read of a content;
* `Rereads` — the operation takes the container up again;
* `carried` — the content on the side an operation takes the files of a container from.

An operation leaves a fresh baseline exactly when it takes the container up again, or the baseline
was fresh for the content it carries over (`fresh_iff`).
-/

inductive ContainerOperation
  | reconcile (call : ReconcileCall)
  | resolve (conflictId : ConflictId) (resolution : SaveConflictResolution)
  | force (layoutIds : Option (Finset LayoutId)) (direction : TransferDirection)
    (confirmed : List SaveDiffEntry)

/-- The sides after an operation that was not refused and had something to do. -/
def ContainerOperation.run (service : SaveSyncService) (env : ReconcileEnv) (sides : Sides) :
    ContainerOperation → Option Sides
  | reconcile call => ((reconcileOnce service.toService call env sides).toOption.join).map Prod.snd
  | resolve conflictId resolution =>
    (resolveConflict service conflictId resolution env sides).toOption
  | force layoutIds direction confirmed =>
    (commitForce service layoutIds direction confirmed env sides).toOption

section Content

variable (service : SaveSyncService) (descriptor : SaveGroupDescriptor)

/-- The supported files of a container on a side. -/
def containerPart (side : Manifest) : Manifest :=
  side.restrict (fun path =>
    descriptor.contains path && (service.registry.groupForPath path).isSome)

/-- The baseline on record for a container is absent, or what its format reads of `content`. -/
def Fresh (state : SaveSyncState) (content : Manifest) : Prop :=
  ∀ baseline, state.containerBaselines.get? descriptor.containerId = some baseline →
    ∃ format s, service.formats descriptor.containerAdapterId = some format
      ∧ format.snapshot descriptor content = .ok s ∧ Describes baseline s

end Content

/-! ### What an operation takes up again -/

section Conditions

variable (service : SaveSyncService) (sides : Sides) (descriptor : SaveGroupDescriptor)

/-- What the adapter of a container says in a reconciliation, if it is asked. -/
def containerVerdict (localSide remoteSide : Manifest) (state : SaveSyncState)
    (repairLocalGroupIds : Finset GroupId) :
    Option (Except OpaqueReason (ContainerVerdict descriptor)) :=
  let localPart := localSide.restrict descriptor.contains
  let remotePart := remoteSide.restrict descriptor.contains
  if descriptor.groupId ∈ repairLocalGroupIds || localPart.paths.isEmpty
      || remotePart.paths.isEmpty then none
  else (service.containerRegistry descriptor.containerAdapterId).map (fun adapter =>
    adapter descriptor localPart remotePart
      (state.containerBaselines.get? descriptor.containerId))

/-- What a reconciliation asks of the adapter of a container. -/
def reconcileVerdict (call : ReconcileCall) :
    Option (Except OpaqueReason (ContainerVerdict descriptor)) :=
  let c := compare service.toService call sides
  containerVerdict service descriptor c.originalLocal c.originalRemote sides.state
    c.repairLocalGroupIds

/-- Whether a verdict replaces or drops the baseline on record. -/
def settlesBaseline : Option (Except OpaqueReason (ContainerVerdict descriptor)) → Bool
  | some (.ok _) => true
  | some (.error .adapterVersionMismatch) => true
  | _ => false

/-- An operation takes a container up again: in a reconciliation that is not upload-only, its
    adapter reads both sides or finds another version in the baseline; in a force transfer, a file
    of it is in the preview.  The resolution of a conflict does not. -/
def ContainerOperation.Rereads : ContainerOperation → Prop
  | reconcile call => call.uploadOnly = false
    ∧ settlesBaseline descriptor (reconcileVerdict service sides descriptor call)
  | resolve _ _ => False
  | force layoutIds _ _ => ∃ path, service.registry.groupForPath path = some descriptor
    ∧ ((forceScan service layoutIds sides.localSide).get? path ≠ none
      ∨ (forceScan service layoutIds sides.remoteSide).get? path ≠ none)

/-- Whether an operation takes a container's group from the remote side. -/
def ContainerOperation.fromRemote : ContainerOperation → Bool
  | reconcile call => !call.uploadOnly
    && (compare service.toService call sides).action descriptor.groupId = .download
  | resolve _ resolution => resolution ≠ .keepLocal
  | force _ direction _ => direction = .download

/-- The files of a container on the side an operation takes them from. -/
def ContainerOperation.carried (op : ContainerOperation) : Manifest :=
  containerPart service descriptor
    (if op.fromRemote service sides descriptor then sides.remoteSide else sides.localSide)

end Conditions

/-! ### One container in the loop over the containers -/

/-- What the work of a reconciliation holds for one container. -/
structure ContainerView where
  baseline : Option ContainerBaseline
  invalidated : Bool
  handled : List Path
  localPart : Manifest
  remotePart : Manifest

def ContainerWork.view (work : ContainerWork) (descriptor : SaveGroupDescriptor) :
    ContainerView where
  baseline := work.baselines.get? descriptor.containerId
  invalidated := descriptor.containerId ∈ work.invalidatedContainerIds
  handled := work.handledPaths.filter descriptor.contains
  localPart := work.desiredLocal.restrict descriptor.contains
  remotePart := work.desiredRemote.restrict descriptor.contains

/-- What a verdict makes of it. -/
def ContainerView.settle {descriptor : SaveGroupDescriptor} (view : ContainerView)
    (localPart remotePart : Manifest) :
    Option (Except OpaqueReason (ContainerVerdict descriptor)) → ContainerView
  | some (.ok verdict) =>
    { baseline := some verdict.nextBaseline
      invalidated := view.invalidated
      handled := view.handled ++ localPart.paths ++ remotePart.paths
      localPart := verdict.localFiles.getD view.localPart
      remotePart := verdict.remoteFiles.getD view.remotePart }
  | some (.error .adapterVersionMismatch) => { view with invalidated := true }
  | _ => view

section Loop

variable {service : SaveSyncService} {descriptor other : SaveGroupDescriptor}
variable {localSide remoteSide : Manifest} {state : SaveSyncState} {repair : Finset GroupId}

theorem restrict_replaceContainerManifest {m : Manifest} {files : Option Manifest}
    (hinside : ∀ n p a, files = some n → n.get? p = some a → descriptor.contains p) :
    (replaceContainerManifest m descriptor files).restrict descriptor.contains
      = files.getD (m.restrict descriptor.contains) := by
  cases files with
  | none => rfl
  | some n =>
    refine Manifest.ext_get? fun p => ?_
    rw [replaceContainerManifest, Manifest.get?_restrict, Manifest.get?_update,
      Manifest.get?_restrict, Option.getD_some]
    by_cases hp : descriptor.contains p
    · simp [hp]
    · cases hn : n.get? p with
      | none => simp [hp]
      | some a => exact absurd (hinside n p a rfl hn) hp

theorem restrict_replaceContainerManifest_of_disjoint {m : Manifest} {files : Option Manifest}
    (hinside : ∀ n p a, files = some n → n.get? p = some a → other.contains p)
    (hdisjoint : ∀ p, descriptor.contains p = true → other.contains p = false) :
    (replaceContainerManifest m other files).restrict descriptor.contains
      = m.restrict descriptor.contains := by
  refine Manifest.ext_get? fun p => ?_
  rw [Manifest.get?_restrict, Manifest.get?_restrict]
  by_cases hp : descriptor.contains p
  · rw [if_pos hp, if_pos hp]
    exact get?_replaceContainerManifest_of_not_contains hinside (hdisjoint p hp)
  · rw [if_neg hp, if_neg hp]

theorem contains_of_mem_restrict_paths {m : Manifest} {p : Path}
    (h : p ∈ (m.restrict descriptor.contains).paths) : descriptor.contains p = true := by
  obtain ⟨a, ha⟩ := ((m.restrict descriptor.contains).mem_paths_iff p).mp h
  by_contra hne
  rw [Manifest.get?_restrict, if_neg hne] at ha
  exact absurd ha (by simp)

/-- One container of the loop, seen from this container. -/
theorem view_prepareContainer (work : ContainerWork) :
    (prepareContainer service.toService localSide remoteSide state repair work descriptor).view
        descriptor
      = (work.view descriptor).settle (localSide.restrict descriptor.contains)
          (remoteSide.restrict descriptor.contains)
          (containerVerdict service descriptor localSide remoteSide state repair) := by
  unfold prepareContainer containerVerdict
  by_cases hrepair : descriptor.groupId ∈ repair
  · simp [hrepair, ContainerView.settle]
  cases hadapter : service.containerRegistry descriptor.containerAdapterId with
  | none =>
    rw [if_neg hrepair]
    dsimp only
    split <;> rfl
  | some adapter =>
    rw [if_neg hrepair]
    simp only [hrepair, decide_false, Bool.false_or, Option.map_some]
    split
    · rfl
    cases adapter descriptor (localSide.restrict descriptor.contains)
        (remoteSide.restrict descriptor.contains)
        (state.containerBaselines.get? descriptor.containerId) with
    | error reason =>
      cases reason with
      | adapterVersionMismatch => simp [ContainerWork.view, ContainerView.settle]
      | other code => rfl
    | ok verdict =>
      have hall : ∀ m : Manifest, (m.restrict descriptor.contains).paths.filter
          descriptor.contains = (m.restrict descriptor.contains).paths := fun m =>
        List.filter_eq_self.mpr fun p hp => contains_of_mem_restrict_paths hp
      simp only [ContainerWork.view, ContainerView.settle, List.filter_append, hall,
        restrict_replaceContainerManifest verdict.local_inside,
        restrict_replaceContainerManifest verdict.remote_inside, Table.get?_put,
        verdict.baseline_id, if_true]

/-- One container of the loop, seen from another one. -/
theorem view_prepareContainer_of_ne (work : ContainerWork)
    (hid : other.containerId ≠ descriptor.containerId)
    (hdisjoint : ∀ p, descriptor.contains p = true → other.contains p = false) :
    (prepareContainer service.toService localSide remoteSide state repair work other).view
        descriptor = work.view descriptor := by
  unfold prepareContainer
  split
  · rfl
  split
  · rfl
  dsimp only
  split
  · rfl
  split
  · simp [ContainerWork.view, hid.symm]
  · rfl
  · next verdict _ =>
    have hnone : ∀ m : Manifest,
        (m.restrict other.contains).paths.filter descriptor.contains = [] := by
      intro m
      rw [List.filter_eq_nil_iff]
      intro p hp hcontains
      have hother := contains_of_mem_restrict_paths hp
      rw [hdisjoint p hcontains] at hother
      exact absurd hother (by simp)
    simp only [ContainerWork.view, List.filter_append, hnone, List.append_nil,
      restrict_replaceContainerManifest_of_disjoint verdict.local_inside hdisjoint,
      restrict_replaceContainerManifest_of_disjoint verdict.remote_inside hdisjoint,
      Table.get?_put, verdict.baseline_id, if_neg hid.symm]

end Loop

section Descriptors

variable {registry : SaveRegistry} {localSide remoteSide : Manifest}

theorem containerDescriptors_nodup :
    ((containerDescriptors registry localSide remoteSide).map
      SaveGroupDescriptor.containerId).Nodup := by
  unfold containerDescriptors
  refine List.foldlRecOn (motive := fun (found : List SaveGroupDescriptor) =>
    (found.map SaveGroupDescriptor.containerId).Nodup) _ _ List.nodup_nil ?_
  intro found hnd path _
  split
  · exact hnd
  · split
    · exact hnd
    · next descriptor _ hskip =>
      rw [Bool.or_eq_true, not_or, List.any_eq_true] at hskip
      rw [List.map_append, List.nodup_append]
      refine ⟨hnd, by simp, ?_⟩
      intro id hid id' hid' heq
      obtain ⟨d, hd, rfl⟩ := List.mem_map.mp hid
      rw [List.map_singleton, List.mem_singleton] at hid'
      exact hskip.2 ⟨d, hd, decide_eq_true (heq.trans hid')⟩

/-- The container of a compared file is looked at. -/
theorem mem_containerDescriptors (hapart : ContainersApart registry) {p : Path}
    {d : SaveGroupDescriptor} (hd : registry.groupForPath p = some d) (hcontained : d.contained)
    (hfile : localSide.get? p ≠ none ∨ remoteSide.get? p ≠ none) :
    d ∈ containerDescriptors registry localSide remoteSide := by
  have hin : p ∈ sortedSet (localSide.paths ++ remoteSide.paths) := by
    rw [mem_sortedSet, List.mem_append, Manifest.mem_paths_iff, Manifest.mem_paths_iff]
    exact hfile.imp Option.ne_none_iff_exists'.mp Option.ne_none_iff_exists'.mp
  have hid : ∃ e ∈ containerDescriptors registry localSide remoteSide,
      e.containerId = d.containerId := by
    unfold containerDescriptors
    obtain ⟨before, after, hsplit⟩ := List.append_of_mem hin
    rw [hsplit, List.foldl_append, List.foldl_cons]
    -- the container is found at the file, and stays found
    refine List.foldlRecOn (motive := fun (found : List SaveGroupDescriptor) => ∃ e ∈ found,
      e.containerId = d.containerId) _ _ ?_ ?_
    · rw [hd]
      dsimp only
      split
      · next hskip =>
        rw [hcontained, Bool.not_true, Bool.false_or, List.any_eq_true] at hskip
        obtain ⟨e, he, heq⟩ := hskip
        exact ⟨e, he, of_decide_eq_true heq⟩
      · exact ⟨d, by simp, rfl⟩
    · intro found hfound path _
      obtain ⟨e, he, heq⟩ := hfound
      split
      · exact ⟨e, he, heq⟩
      · split
        · exact ⟨e, he, heq⟩
        · exact ⟨e, List.mem_append_left _ he, heq⟩
  obtain ⟨e, he, heq⟩ := hid
  obtain ⟨-, q, hq, -⟩ := exists_path_of_mem_containerDescriptors _ _ _ he
  rw [← hapart.named p q d e hd hq hcontained heq]
  exact he

end Descriptors

/-! ### The whole loop -/

section Work

variable (service : SaveSyncService) (call : ReconcileCall) (sides : Sides)
variable {descriptor : SaveGroupDescriptor}

theorem supported_of_original {p : Path}
    (h : (compare service.toService call sides).originalLocal.get? p ≠ none
      ∨ (compare service.toService call sides).originalRemote.get? p ≠ none) :
    pathInScope service.toService call sides.state p = true := by
  by_contra hne
  rw [Bool.not_eq_true] at hne
  rcases h with h | h
  · exact h (by rw [get?_originalLocal, hne]; rfl)
  · exact h (get?_originalRemote_of_notInScope service.toService call sides hne)

/-- A file of a container among the compared files makes the loop look at the container. -/
theorem mem_containerDescriptors_of_part {p₀ : Path}
    (hd : service.registry.groupForPath p₀ = some descriptor) (hcontained : descriptor.contained)
    {p : Path} (hp : descriptor.contains p = true)
    (h : (compare service.toService call sides).originalLocal.get? p ≠ none
      ∨ (compare service.toService call sides).originalRemote.get? p ≠ none) :
    descriptor ∈ containerDescriptors service.registry
      (compare service.toService call sides).originalLocal
      (compare service.toService call sides).originalRemote := by
  obtain ⟨e, he, -⟩ := exists_descriptor_of_pathInScope (supported_of_original service call sides h)
  have hsame := service.apart.own p₀ p descriptor e hd hcontained hp he
  exact mem_containerDescriptors service.apart (hsame ▸ he) hcontained h

/-- **What the loop leaves of a container.** A container is settled by its own adapter only. -/
theorem view_work {p₀ : Path} (hd : service.registry.groupForPath p₀ = some descriptor)
    (hcontained : descriptor.contained) (hfull : call.uploadOnly = false) :
    (compare service.toService call sides).work.view descriptor
      = ((ContainerWork.start (compare service.toService call sides).originalLocal
          (compare service.toService call sides).originalRemote).view descriptor).settle
        ((compare service.toService call sides).originalLocal.restrict descriptor.contains)
        ((compare service.toService call sides).originalRemote.restrict descriptor.contains)
        (reconcileVerdict service sides descriptor call) := by
  have hwork : (compare service.toService call sides).work
      = (containerDescriptors service.registry (compare service.toService call sides).originalLocal
          (compare service.toService call sides).originalRemote).foldl
        (prepareContainer service.toService (compare service.toService call sides).originalLocal
          (compare service.toService call sides).originalRemote sides.state
          (compare service.toService call sides).repairLocalGroupIds)
        (ContainerWork.start (compare service.toService call sides).originalLocal
          (compare service.toService call sides).originalRemote) := by
    show prepareContainers _ _ _ _ _ _ = _
    rw [prepareContainers, hfull, if_neg (by simp)]
    rfl
  have hother : ∀ (work : ContainerWork),
      ∀ e ∈ containerDescriptors service.registry
        (compare service.toService call sides).originalLocal
        (compare service.toService call sides).originalRemote, e ≠ descriptor →
      (prepareContainer service.toService (compare service.toService call sides).originalLocal
        (compare service.toService call sides).originalRemote sides.state
        (compare service.toService call sides).repairLocalGroupIds work e).view descriptor
          = work.view descriptor := by
    intro work e he hne
    obtain ⟨hcontained', q, hq, -⟩ := exists_path_of_mem_containerDescriptors _ _ _ he
    refine view_prepareContainer_of_ne work ?_ ?_
    · exact fun hid => hne (service.apart.named p₀ q descriptor e hd hq hcontained hid)
    · intro p hp
      rw [← Bool.not_eq_true]
      exact fun hpe => hne
        (service.apart.disjoint p₀ q p descriptor e hd hq hcontained hcontained' hp hpe).symm
  rw [hwork]
  by_cases hmem : descriptor ∈ containerDescriptors service.registry
      (compare service.toService call sides).originalLocal
      (compare service.toService call sides).originalRemote
  · exact Dict.look_foldl_of_mem (fun work : ContainerWork => work.view descriptor) _
      (fun view => view.settle _ _ (reconcileVerdict service sides descriptor call)) hmem
      containerDescriptors_nodup.of_map (fun work => view_prepareContainer work) hother _
  · -- a container that the loop does not look at has no file here
    have hempty : ∀ p, descriptor.contains p = true →
        (compare service.toService call sides).originalLocal.get? p = none := by
      intro p hp
      by_contra hne
      exact hmem (mem_containerDescriptors_of_part service call sides hd hcontained hp (Or.inl hne))
    have hverdict : reconcileVerdict service sides descriptor call = none := by
      unfold reconcileVerdict containerVerdict
      dsimp only
      rw [if_pos]
      rw [Bool.or_eq_true, Bool.or_eq_true]
      refine Or.inl (Or.inr ?_)
      rw [List.isEmpty_iff, List.eq_nil_iff_forall_not_mem]
      intro p hp
      obtain ⟨a, ha⟩ := (Manifest.mem_paths_iff _ p).mp hp
      rw [Manifest.get?_restrict, if_pos (contains_of_mem_restrict_paths hp),
        hempty p (contains_of_mem_restrict_paths hp)] at ha
      exact absurd ha (by simp)
    rw [hverdict]
    exact List.foldlRecOn (motive := fun (work : ContainerWork) => work.view descriptor = _) _ _
      rfl fun work hw e he => (hother work e he fun heq => hmem (heq ▸ he)).trans hw

end Work

/-! ### Reconciliations -/

section Reconcile

variable {service : SaveSyncService} {call : ReconcileCall} {env : ReconcileEnv}
variable {sides after : Sides} {obsolete : List SaveConflictRecord}
variable {descriptor : SaveGroupDescriptor} {p₀ : Path}

theorem get?_containerPart (side : Manifest) (p : Path) :
    (containerPart service descriptor side).get? p
      = if descriptor.contains p = true ∧ (service.registry.groupForPath p).isSome = true then
          side.get? p
        else none := by
  rw [containerPart, Manifest.get?_restrict]
  exact if_congr (Bool.and_eq_true_iff ..) rfl rfl

/-- The parts of two sides are equal as soon as the sides agree on the files of the container. -/
theorem containerPart_congr {side side' : Manifest}
    (hd : service.registry.groupForPath p₀ = some descriptor) (hcontained : descriptor.contained)
    (h : ∀ p, descriptor.contains p = true → service.registry.groupForPath p = some descriptor →
      side.get? p = side'.get? p) :
    containerPart service descriptor side = containerPart service descriptor side' := by
  refine Manifest.ext_get? fun p => ?_
  rw [get?_containerPart, get?_containerPart]
  split
  · next hp =>
    obtain ⟨e, he⟩ := Option.isSome_iff_exists.mp hp.2
    exact h p hp.1 (service.apart.own p₀ p descriptor e hd hcontained hp.1 he ▸ he)
  · rfl

/-- A remote scan that covers the layout of a container is not narrowed. -/
theorem remoteScope_eq_none {p : Path} (hp : service.registry.groupForPath p = some descriptor)
    (hcontained : descriptor.contained)
    (hcovered : covers service.toService call sides.state descriptor.layoutId = true) :
    (compare service.toService call sides).remoteScope = none := by
  show remoteScopePaths _ _ _ _ = none
  rw [covers] at hcovered
  unfold remoteScopePaths
  cases hlayouts : effectiveLayouts service.toService call with
  | some layouts => rfl
  | none =>
    cases hgroups : effectiveGroups call with
    | none => rfl
    | some groups =>
      rw [hlayouts, hgroups] at hcovered
      obtain ⟨layout, hmem, hid, hadapter⟩ := service.apart.adapted p descriptor hp hcontained
      rw [SaveGroupDescriptor.contained, Bool.and_eq_true, decide_eq_true_iff,
        decide_eq_true_iff] at hcontained
      have hcontainer : service.hasContainerLayout
          (scopedLayouts service.toService call sides.state groups) = true := by
        rw [Service.hasContainerLayout, List.any_eq_true]
        refine ⟨layout, hmem, ?_⟩
        rw [Bool.and_eq_true, decide_eq_true_iff, decide_eq_true_iff, hid, hadapter]
        exact ⟨of_decide_eq_true hcovered, hcontained.2⟩
      dsimp only
      rw [hcontainer, Bool.not_true, Bool.and_false, if_neg (by simp)]

/-- A remote scan that is not narrowed finds the files in scope. -/
theorem get?_originalRemote_of_wide {p : Path}
    (hwide : (compare service.toService call sides).remoteScope = none)
    (hscope : pathInScope service.toService call sides.state p = true) :
    (compare service.toService call sides).originalRemote.get? p = sides.remoteSide.get? p := by
  obtain ⟨hcovered, hselected⟩ := (Bool.and_eq_true _ _).mp hscope
  rw [get?_originalRemote, if_pos hselected]
  show (service.scanLayouts (covers service.toService call sides.state)
    (compare service.toService call sides).remoteScope sides.remoteSide).artifacts.get? p = _
  rw [hwide, Service.scanLayouts]
  simp [hcovered]

/-- A remote scan is not narrowed inside a container. -/
theorem get?_originalRemote_of_contained {p : Path}
    (hp : service.registry.groupForPath p = some descriptor) (hcontained : descriptor.contained)
    (hscope : pathInScope service.toService call sides.state p = true) :
    (compare service.toService call sides).originalRemote.get? p = sides.remoteSide.get? p := by
  have hcovered := ((Bool.and_eq_true _ _).mp hscope).1
  rw [pathCovered_iff hp] at hcovered
  exact get?_originalRemote_of_wide (remoteScope_eq_none hp hcontained hcovered) hscope

/-- The baseline on record after a reconciliation. -/
theorem get?_containerBaselines_of_completed
    (hdone : Completed service.toService call env sides after obsolete) :
    after.state.containerBaselines.get? descriptor.containerId
      = ((compare service.toService call sides).work.view descriptor).baseline.or
          (if ((compare service.toService call sides).work.view descriptor).invalidated then none
            else sides.state.containerBaselines.get? descriptor.containerId) := by
  rw [hdone.next.2.2.1, get?_nextState_containerBaselines]
  show _ = Option.or _ (if decide (descriptor.containerId ∈ _) = true then none else _)
  by_cases h : descriptor.containerId ∈
      (compare service.toService call sides).work.invalidatedContainerIds
  · simp [ContainerWork.view, h]
  · simp [ContainerWork.view, h]

/-- Where a reconciliation leaves a container to the plan, its files on one side are those it
    found there. -/
theorem containerPart_of_carried
    (hdone : Completed service.toService call env sides after obsolete)
    (hd : service.registry.groupForPath p₀ = some descriptor) (hcontained : descriptor.contained)
    (hlocal : ((compare service.toService call sides).work.view descriptor).localPart
      = (compare service.toService call sides).originalLocal.restrict descriptor.contains)
    (hremote : ((compare service.toService call sides).work.view descriptor).remotePart
      = (compare service.toService call sides).originalRemote.restrict descriptor.contains)
    (hsame : containerPart service descriptor after.localSide
      = containerPart service descriptor after.remoteSide) :
    containerPart service descriptor after.localSide
      = (ContainerOperation.reconcile call).carried service sides descriptor := by
  have hpart : ∀ (m n : Manifest), m.restrict descriptor.contains = n.restrict descriptor.contains →
      ∀ p, descriptor.contains p = true → m.get? p = n.get? p := by
    intro m n hmn p hp
    have hget := congrArg (fun k : Manifest => k.get? p) hmn
    simpa [hp] using hget
  have hfrom : (ContainerOperation.reconcile call).fromRemote service sides descriptor
      = (!call.uploadOnly && decide ((compare service.toService call sides).action
          descriptor.groupId = .download)) := rfl
  by_cases hup : call.uploadOnly = true
  · rw [hup] at hfrom
    rw [ContainerOperation.carried, hfrom, hdone.localSide, if_pos hup]
    rfl
  rw [Bool.not_eq_true] at hup
  rw [hup, Bool.not_false, Bool.true_and] at hfrom
  by_cases haction : (compare service.toService call sides).action descriptor.groupId = .download
  · rw [ContainerOperation.carried, hfrom, if_pos (decide_eq_true haction), hsame]
    refine containerPart_congr hd hcontained fun p hp hdp => ?_
    have hdesired : (compare service.toService call sides).desiredRemote.get? p
        = (compare service.toService call sides).originalRemote.get? p := by
      rw [get?_desiredRemote, Service.groupId_of_descriptor hdp, haction, if_neg (by simp)]
      exact hpart _ _ hremote p hp
    rw [hdone.remoteSide, get?_promote, if_pos hdesired.symm]
  · rw [ContainerOperation.carried, hfrom, if_neg (by simpa using haction)]
    refine containerPart_congr hd hcontained fun p hp hdp => ?_
    have hdesired : (compare service.toService call sides).desiredLocal.get? p
        = (compare service.toService call sides).originalLocal.get? p := by
      rw [get?_desiredLocal, Service.groupId_of_descriptor hdp, if_neg (fun h => haction h.2.1)]
      exact hpart _ _ hlocal p hp
    rw [hdone.localSide, hup, if_neg (by simp), get?_promote, if_pos hdesired.symm]

/-- What a verdict of a container has behind it: its format read both sides, and the container is in
    the scope of the call. -/
theorem of_verdict (hd : service.registry.groupForPath p₀ = some descriptor)
    (hcontained : descriptor.contained) {verdict : ContainerVerdict descriptor}
    (h : reconcileVerdict service sides descriptor call = some (.ok verdict)) :
    (∃ format, service.formats descriptor.containerAdapterId = some format
        ∧ format.adapter descriptor
          ((compare service.toService call sides).originalLocal.restrict descriptor.contains)
          ((compare service.toService call sides).originalRemote.restrict descriptor.contains)
          (sides.state.containerBaselines.get? descriptor.containerId) = .ok verdict)
      ∧ InScope service.toService call sides.state descriptor.groupId := by
  unfold reconcileVerdict containerVerdict at h
  dsimp only at h
  split at h
  · exact absurd h (by simp)
  · next hnonempty =>
    rw [Bool.or_eq_true, Bool.or_eq_true, not_or, not_or, List.isEmpty_iff] at hnonempty
    obtain ⟨adapter, hadapter, hverdict⟩ := Option.map_eq_some_iff.mp h
    rw [service.registry_formats] at hadapter
    obtain ⟨format, hformat, rfl⟩ := Option.map_eq_some_iff.mp hadapter
    refine ⟨⟨format, hformat, hverdict⟩, ?_⟩
    obtain ⟨p, hp⟩ := List.exists_mem_of_ne_nil _ hnonempty.1.2
    have hcontains := contains_of_mem_restrict_paths hp
    obtain ⟨a, ha⟩ := (Manifest.mem_paths_iff _ p).mp hp
    rw [Manifest.get?_restrict, if_pos hcontains] at ha
    exact (inScope_of_mem_containerDescriptors service.toService call sides
      (mem_containerDescriptors_of_part service call sides hd hcontained hcontains
        (Or.inl (by simp [ha])))).2.1

/-- A container that its adapter merged: what the call leaves of it on each side. -/
theorem containerPart_of_merged (hdone : Completed service.toService call env sides after obsolete)
    (hfull : call.uploadOnly = false)
    (hd : service.registry.groupForPath p₀ = some descriptor) (hcontained : descriptor.contained)
    {verdict : ContainerVerdict descriptor}
    (hverdict : reconcileVerdict service sides descriptor call = some (.ok verdict)) :
    verdict.localFiles.getD
          ((compare service.toService call sides).originalLocal.restrict descriptor.contains)
        = containerPart service descriptor after.localSide
      ∧ verdict.remoteFiles.getD
          ((compare service.toService call sides).originalRemote.restrict descriptor.contains)
        = containerPart service descriptor after.remoteSide := by
  obtain ⟨⟨format, -, hadapter⟩, hscope⟩ := of_verdict hd hcontained hverdict
  have hview := view_work service call sides hd hcontained hfull
  rw [hverdict] at hview
  have hworkLocal : (compare service.toService call sides).work.desiredLocal.restrict
        descriptor.contains = verdict.localFiles.getD
          ((compare service.toService call sides).originalLocal.restrict descriptor.contains) :=
    congrArg ContainerView.localPart hview
  have hworkRemote : (compare service.toService call sides).work.desiredRemote.restrict
        descriptor.contains = verdict.remoteFiles.getD
          ((compare service.toService call sides).originalRemote.restrict descriptor.contains) :=
    congrArg ContainerView.remotePart hview
  have hhandled : (compare service.toService call sides).work.handledPaths.filter
        descriptor.contains = [] ++
          ((compare service.toService call sides).originalLocal.restrict descriptor.contains).paths
          ++ ((compare service.toService call sides).originalRemote.restrict
            descriptor.contains).paths := congrArg ContainerView.handled hview
  -- what is desired inside the container is what the adapter made of it
  have hdesired : ∀ p, descriptor.contains p = true →
      (compare service.toService call sides).desiredLocal.get? p
          = (compare service.toService call sides).work.desiredLocal.get? p
        ∧ (compare service.toService call sides).desiredRemote.get? p
          = (compare service.toService call sides).work.desiredRemote.get? p := by
    intro p hp
    rw [get?_desiredLocal, get?_desiredRemote]
    by_cases hfile : (compare service.toService call sides).originalLocal.get? p = none
        ∧ (compare service.toService call sides).originalRemote.get? p = none
    · -- neither side has the path, and the merge does not bring it
      obtain ⟨hl, hr⟩ := ContainerFormat.known_of_adapter hadapter
        (p := p) (by simp [hfile.1]) (by simp [hfile.2])
      rw [← hworkLocal, Manifest.get?_restrict, if_pos hp] at hl
      rw [← hworkRemote, Manifest.get?_restrict, if_pos hp] at hr
      rw [get?_localReport, get?_remoteReport, hfile.1, hfile.2, hl, hr]
      simp only [ite_self, and_self]
    · -- the files of the container are kept from the plan
      have hin : p ∈ (compare service.toService call sides).work.handledPaths := by
        refine List.mem_of_mem_filter (p := descriptor.contains) ?_
        rw [hhandled, List.nil_append, List.mem_append, Manifest.mem_paths_iff,
          Manifest.mem_paths_iff, Manifest.get?_restrict, Manifest.get?_restrict, if_pos hp,
          if_pos hp, ← Option.ne_none_iff_exists', ← Option.ne_none_iff_exists']
        exact not_and_or.mp hfile
      have hout : p ∉ (compare service.toService call sides).paths := by
        intro hmem
        rw [Comparison.paths, mem_planPaths_iff, get?_localReport, get?_remoteReport, get?_baseline,
          if_neg (not_not.mpr hin), if_neg (not_not.mpr hin), if_neg (not_not.mpr hin)] at hmem
        simp at hmem
      rw [if_neg (fun h => hout h.1), if_neg (fun h => hout h.1)]
      exact ⟨rfl, rfl⟩
  rw [← hworkLocal, ← hworkRemote]
  constructor
  · refine Manifest.ext_get? fun p => ?_
    rw [get?_containerPart, Manifest.get?_restrict]
    by_cases hp : descriptor.contains p = true
    · cases hdp : service.registry.groupForPath p with
      | none => simp [hp, ← (hdesired p hp).1, (hdone.supportedOnly p hdp).1]
      | some e =>
        have he := service.apart.own p₀ p descriptor e hd hcontained hp hdp
        have hin := pathInScope_of_inScope hdp (he ▸ hscope)
        have hlocal : (compare service.toService call sides).originalLocal.get? p
            = sides.localSide.get? p := by
          rw [get?_originalLocal, hin, if_pos rfl]
        rw [if_pos hp, if_pos ⟨hp, rfl⟩, ← (hdesired p hp).1, hdone.localSide, hfull,
          if_neg (by simp), get?_promote, hlocal]
        split
        · next heq => exact heq.symm
        · rfl
    · simp [hp]
  · refine Manifest.ext_get? fun p => ?_
    rw [get?_containerPart, Manifest.get?_restrict]
    by_cases hp : descriptor.contains p = true
    · cases hdp : service.registry.groupForPath p with
      | none => simp [hp, ← (hdesired p hp).2, (hdone.supportedOnly p hdp).2]
      | some e =>
        have he := service.apart.own p₀ p descriptor e hd hcontained hp hdp
        have hin := pathInScope_of_inScope hdp (he ▸ hscope)
        rw [if_pos hp, if_pos ⟨hp, rfl⟩, ← (hdesired p hp).2, hdone.remoteSide, get?_promote,
          get?_originalRemote_of_contained (he ▸ hdp) hcontained hin]
        split
        · next heq => exact heq.symm
        · rfl
    · simp [hp]

/-- **Reconciliations.** Where a reconciliation leaves the same files of a container on both sides,
    the baseline on record is fresh exactly when the container was read again, or the old baseline
    describes what was carried over. -/
theorem fresh_reconcile_iff (hdone : Completed service.toService call env sides after obsolete)
    (hd : service.registry.groupForPath p₀ = some descriptor) (hcontained : descriptor.contained)
    (hsame : containerPart service descriptor after.localSide
      = containerPart service descriptor after.remoteSide) :
    Fresh service descriptor after.state (containerPart service descriptor after.localSide)
      ↔ (ContainerOperation.reconcile call).Rereads service sides descriptor
        ∨ Fresh service descriptor sides.state
            ((ContainerOperation.reconcile call).carried service sides descriptor) := by
  -- a container that is left to the plan
  have hleft : (compare service.toService call sides).work.view descriptor
      = (ContainerWork.start (compare service.toService call sides).originalLocal
          (compare service.toService call sides).originalRemote).view descriptor →
      ¬ (ContainerOperation.reconcile call).Rereads service sides descriptor →
      (Fresh service descriptor after.state (containerPart service descriptor after.localSide)
        ↔ (ContainerOperation.reconcile call).Rereads service sides descriptor
          ∨ Fresh service descriptor sides.state
              ((ContainerOperation.reconcile call).carried service sides descriptor)) := by
    intro hview hnot
    have hcontent := containerPart_of_carried hdone hd hcontained
      (congrArg ContainerView.localPart hview) (congrArg ContainerView.remotePart hview) hsame
    have hbaseline := @get?_containerBaselines_of_completed _ _ _ _ _ _ descriptor hdone
    rw [hview] at hbaseline
    rw [Fresh, hbaseline, hcontent]
    exact (or_iff_right hnot).symm
  by_cases hup : call.uploadOnly = true
  · refine hleft ?_ fun h => absurd h.1 (by simp [hup])
    show (prepareContainers _ _ _ _ _ call.uploadOnly).view descriptor = _
    rw [hup]
    rfl
  rw [Bool.not_eq_true] at hup
  have hview := view_work service call sides hd hcontained hup
  cases hverdict : reconcileVerdict service sides descriptor call with
  | none =>
    rw [hverdict] at hview
    exact hleft hview fun h => absurd h.2 (by simp [hverdict, settlesBaseline])
  | some result =>
    cases result with
    | error reason =>
      cases reason with
      | other code =>
        rw [hverdict] at hview
        exact hleft hview fun h => absurd h.2 (by simp [hverdict, settlesBaseline])
      | adapterVersionMismatch =>
        refine iff_of_true ?_ (Or.inl ⟨hup, by simp [hverdict, settlesBaseline]⟩)
        have hbaseline := @get?_containerBaselines_of_completed _ _ _ _ _ _ descriptor hdone
        rw [hview, hverdict] at hbaseline
        intro baseline hget
        rw [hbaseline] at hget
        exact absurd hget (by simp [ContainerView.settle, ContainerWork.view, ContainerWork.start])
    | ok verdict =>
      refine iff_of_true ?_ (Or.inl ⟨hup, by simp [hverdict, settlesBaseline]⟩)
      obtain ⟨hlocal, hremote⟩ := containerPart_of_merged hdone hup hd hcontained hverdict
      have hbaseline := @get?_containerBaselines_of_completed _ _ _ _ _ _ descriptor hdone
      rw [hview, hverdict] at hbaseline
      intro baseline hget
      rw [hbaseline] at hget
      obtain rfl := Option.some.inj hget
      obtain ⟨⟨format, hformat, hadapter⟩, -⟩ := of_verdict hd hcontained hverdict
      obtain ⟨s, hs, hdescribes⟩ := ContainerFormat.describes_of_adapter hadapter
        (hlocal.trans (hsame.trans hremote.symm))
      exact ⟨format, s, hformat, hlocal ▸ hs, hdescribes⟩

end Reconcile

/-! ### Resolutions and force transfers -/

section Deliberate

variable {service : SaveSyncService} {env : ReconcileEnv} {sides after : Sides}
variable {descriptor : SaveGroupDescriptor} {p₀ : Path}

theorem advanceCursor_containerBaselines (appends : Bool) (state : SaveSyncState) :
    (advanceCursor env appends state).containerBaselines = state.containerBaselines := by
  unfold advanceCursor
  split <;> rfl

/-- A resolution leaves the baselines of containers and the side it keeps. -/
theorem of_resolveConflict {conflictId : ConflictId} {resolution : SaveConflictResolution}
    (h : resolveConflict service conflictId resolution env sides = .ok after) :
    after.state.containerBaselines = sides.state.containerBaselines
      ∧ (resolution = .keepLocal → after.localSide = sides.localSide)
      ∧ (resolution ≠ .keepLocal → after.remoteSide = sides.remoteSide) := by
  unfold resolveConflict at h
  split at h
  · exact absurd h (by simp)
  split at h
  · exact absurd h (by simp)
  split at h
  · exact absurd h (by simp)
  split at h
  · exact absurd h (by simp)
  dsimp only at h
  split at h
  · exact absurd h (by simp)
  split at h
  · exact absurd h (by simp)
  obtain ⟨-, h⟩ | ⟨-, h⟩ := ite_eq_iff.mp h
  · exact absurd h (by simp)
  obtain ⟨-, h⟩ | ⟨-, h⟩ := ite_eq_iff.mp h
  · exact absurd h (by simp)
  obtain rfl := Except.ok.inj h
  exact ⟨advanceCursor_containerBaselines _ _, fun hkeep => if_pos hkeep, fun hkeep => if_neg hkeep⟩

/-- The comprehension over a list that has, for each path, at most the artifact of a manifest. -/
theorem ofArtifacts_filterMap {entries : List SaveDiffEntry} {side : Manifest}
    {pick : SaveDiffEntry → Option SaveArtifact}
    (hpick : ∀ entry ∈ entries, pick entry = side.get? entry.relativePath)
    (hall : ∀ p, side.get? p ≠ none → p ∈ entries.map SaveDiffEntry.relativePath) :
    Manifest.ofArtifacts (entries.filterMap pick) = side := by
  refine Manifest.ext_get? fun p => ?_
  have hmem : ∀ a, a ∈ entries.filterMap pick ↔ side.get? a.relativePath = some a := by
    intro a
    rw [List.mem_filterMap]
    constructor
    · intro h
      obtain ⟨entry, hentry, ha⟩ := h
      rw [hpick entry hentry] at ha
      rw [Manifest.relativePath_of_get? ha]
      exact ha
    · intro ha
      obtain ⟨entry, hentry, hpath⟩ := List.mem_map.mp (hall a.relativePath (by simp [ha]))
      exact ⟨entry, hentry, by rw [hpick entry hentry, hpath, ha]⟩
  exact Manifest.get?_ofArtifacts_of_mem_iff hmem p

/-- A preview speaks of the files of the two sides it was made of. -/
theorem manifestsFromDiff_diffEntries (policy : SaveSelectionPolicy)
    (localSide remoteSide baseline : Manifest) (direction : TransferDirection) :
    manifestsFromDiff (diffEntries policy localSide remoteSide baseline direction)
      = (localSide, remoteSide) := by
  have hall : ∀ p, localSide.get? p ≠ none ∨ remoteSide.get? p ≠ none →
      p ∈ (diffEntries policy localSide remoteSide baseline direction).map
        SaveDiffEntry.relativePath := by
    intro p hp
    rw [diffEntries, List.map_map]
    refine List.mem_map.mpr ⟨p, ?_, rfl⟩
    rw [mem_sortedSet, List.mem_append, Manifest.mem_paths_iff, Manifest.mem_paths_iff]
    exact hp.imp Option.ne_none_iff_exists'.mp Option.ne_none_iff_exists'.mp
  have hlocal : Manifest.ofArtifacts ((diffEntries policy localSide remoteSide baseline
      direction).filterMap SaveDiffEntry.localArtifact) = localSide := by
    refine ofArtifacts_filterMap ?_ fun p hp => hall p (Or.inl hp)
    intro entry hentry
    obtain ⟨p, -, rfl⟩ := List.mem_map.mp hentry
    rfl
  have hremote : Manifest.ofArtifacts ((diffEntries policy localSide remoteSide baseline
      direction).filterMap SaveDiffEntry.remoteArtifact) = remoteSide := by
    refine ofArtifacts_filterMap ?_ fun p hp => hall p (Or.inr hp)
    intro entry hentry
    obtain ⟨p, -, rfl⟩ := List.mem_map.mp hentry
    rfl
  rw [manifestsFromDiff, hlocal, hremote]

/-- The files a force transfer takes over. -/
def forceSource (layoutIds : Option (Finset LayoutId)) (direction : TransferDirection)
    (sides : Sides) : Manifest :=
  forceScan service layoutIds
    (if direction = .upload then sides.localSide else sides.remoteSide)

/-- What a completed force transfer leaves: its source, and the baselines it has read again. -/
theorem of_commitForce {layoutIds : Option (Finset LayoutId)} {direction : TransferDirection}
    {confirmed : List SaveDiffEntry}
    (h : commitForce service layoutIds direction confirmed env sides = .ok after) :
    (direction = .upload → after.localSide = sides.localSide)
      ∧ (direction ≠ .upload → after.remoteSide = sides.remoteSide)
      ∧ after.state.containerBaselines = containerBaselinesAfterForce service sides.state
          (@forceSource service layoutIds direction sides)
          ((forceScan service layoutIds sides.localSide).paths
            ++ (forceScan service layoutIds sides.remoteSide).paths) := by
  unfold commitForce at h
  split at h
  · exact absurd h (by simp)
  dsimp only at h
  split at h
  · exact absurd h (by simp)
  split at h
  · exact absurd h (by simp)
  rw [manifestsFromDiff_diffEntries] at h
  obtain ⟨-, h⟩ | ⟨-, h⟩ := ite_eq_iff.mp h
  · exact absurd h (by simp)
  obtain rfl := Except.ok.inj h
  refine ⟨fun hup => if_pos hup, fun hup => if_neg hup, ?_⟩
  rw [advanceCursor_containerBaselines, forceSource, apply_ite (forceScan service layoutIds)]
  rfl

/-- A container is touched when one of the paths is its own. -/
theorem get?_touchedContainers_iff (hd : service.registry.groupForPath p₀ = some descriptor)
    (hcontained : descriptor.contained) (paths : List Path) (e : SaveGroupDescriptor) :
    (touchedContainers service paths).get? descriptor.containerId = some e
      ↔ e = descriptor ∧ ∃ p ∈ paths, service.registry.groupForPath p = some descriptor := by
  have hnamed : descriptor.containerId ≠ "" := by
    rw [SaveGroupDescriptor.contained, Bool.and_eq_true] at hcontained
    exact of_decide_eq_true hcontained.1
  unfold touchedContainers
  simp only [← mem_sortedSet paths]
  induction sortedSet paths using List.reverseRecOn generalizing e with
  | nil => simp
  | append_singleton paths path ih =>
    rw [List.foldl_append, List.foldl_cons, List.foldl_nil]
    simp only [List.mem_append, List.mem_singleton, or_and_right, exists_or, exists_eq_left]
    cases hpath : service.registry.groupForPath path with
    | none => simpa using ih e
    | some found =>
      dsimp only
      by_cases hid : found.containerId = descriptor.containerId
      · obtain rfl := service.apart.named p₀ path descriptor found hd hpath hcontained hid
        rw [decide_eq_false hnamed, Bool.false_or]
        split
        · next hfound =>
          obtain ⟨d, hget⟩ := Option.isSome_iff_exists.mp hfound
          have hin := ((ih d).mp hget).2
          refine (ih e).trans ?_
          simp [hin]
        · rw [Table.get?_put, if_pos rfl, Option.some.injEq]
          simp [eq_comm]
      · have hne : ¬ found = descriptor := fun heq => hid (congrArg _ heq)
        simp only [Option.some.injEq, hne, or_false]
        split
        · exact ih e
        · rw [Table.get?_put, if_neg (Ne.symm hid)]
          exact ih e

/-- The baselines after a force transfer: of a touched container what is read now, if anything; of
    another one what it was. -/
theorem get?_containerBaselinesAfterForce (state : SaveSyncState) (manifest : Manifest)
    (paths : List Path) (id : ContainerId) :
    (containerBaselinesAfterForce service state manifest paths).get? id
      = match (touchedContainers service (paths ++ manifest.paths)).get? id with
        | some e => containerBaselineAfterForce service manifest e
        | none => state.containerBaselines.get? id := by
  unfold containerBaselinesAfterForce
  dsimp only
  rw [Table.get?_override, Table.get?_collect, Table.get?_keep]
  cases h : (touchedContainers service (paths ++ manifest.paths)).get? id with
  | none =>
    have hout : id ∉ (touchedContainers service (paths ++ manifest.paths)).keys := by
      rw [Table.mem_keys_iff, h]
      simp
    simp [hout]
  | some e =>
    have hin : id ∈ (touchedContainers service (paths ++ manifest.paths)).keys :=
      (Table.mem_keys_iff _ _).mpr ⟨e, h⟩
    simp [hin]

/-- **Force transfers.** Where a force transfer leaves the same files of a container on both sides,
    the baseline on record is fresh exactly when the transfer found a file of the container, or
    the old baseline describes what it has. -/
theorem fresh_force_iff {layoutIds : Option (Finset LayoutId)} {direction : TransferDirection}
    {confirmed : List SaveDiffEntry}
    (h : commitForce service layoutIds direction confirmed env sides = .ok after)
    (hd : service.registry.groupForPath p₀ = some descriptor) (hcontained : descriptor.contained)
    (hsame : containerPart service descriptor after.localSide
      = containerPart service descriptor after.remoteSide) :
    Fresh service descriptor after.state (containerPart service descriptor after.localSide)
      ↔ (ContainerOperation.force layoutIds direction confirmed).Rereads service sides descriptor
        ∨ Fresh service descriptor sides.state
          ((ContainerOperation.force layoutIds direction confirmed).carried service sides
            descriptor) := by
  obtain ⟨hup, hdown, hbaselines⟩ := of_commitForce h
  have hcontent : containerPart service descriptor after.localSide
      = (ContainerOperation.force layoutIds direction confirmed).carried service sides
          descriptor := by
    cases direction with
    | upload => rw [hup rfl]; rfl
    | download => rw [hsame, hdown (by simp)]; rfl
  have hrereads : (∃ p ∈ ((forceScan service layoutIds sides.localSide).paths
        ++ (forceScan service layoutIds sides.remoteSide).paths)
        ++ (@forceSource service layoutIds direction sides).paths,
        service.registry.groupForPath p = some descriptor)
      ↔ (ContainerOperation.force layoutIds direction confirmed).Rereads service sides
          descriptor := by
    simp only [ContainerOperation.Rereads, List.mem_append, Manifest.mem_paths_iff,
      ← Option.ne_none_iff_exists', forceSource]
    constructor
    · rintro ⟨p, (hp | hp), hdp⟩
      · exact ⟨p, hdp, hp⟩
      · split at hp
        · exact ⟨p, hdp, Or.inl hp⟩
        · exact ⟨p, hdp, Or.inr hp⟩
    · rintro ⟨p, hdp, hp⟩
      exact ⟨p, Or.inl hp, hdp⟩
  have htouched := fun e => @get?_touchedContainers_iff service _ _ hd hcontained
    (((forceScan service layoutIds sides.localSide).paths
      ++ (forceScan service layoutIds sides.remoteSide).paths)
      ++ (@forceSource service layoutIds direction sides).paths) e
  simp only [hrereads] at htouched
  by_cases hin : (ContainerOperation.force layoutIds direction confirmed).Rereads service sides
      descriptor
  · refine iff_of_true ?_ (Or.inl hin)
    have hget := (htouched descriptor).mpr ⟨rfl, hin⟩
    -- the layout of a touched container was scanned
    have hcovered : forceCovers service layoutIds descriptor.layoutId = true := by
      obtain ⟨p, hdp, hp⟩ := hin
      by_contra hne
      have hnone : ∀ side, (forceScan service layoutIds side).get? p = none := by
        intro side
        rw [forceScan, Service.scanLayouts, Manifest.get?_restrict, pathCovered_iff hdp,
          if_neg (by simp [hne])]
      rcases hp with hp | hp
      · exact hp (hnone _)
      · exact hp (hnone _)
    have hpart : (@forceSource service layoutIds direction sides).restrict
          descriptor.contains
        = (ContainerOperation.force layoutIds direction confirmed).carried service sides
          descriptor := by
      have hside : (if (ContainerOperation.force layoutIds direction confirmed).fromRemote service
          sides descriptor then sides.remoteSide else sides.localSide)
          = if direction = .upload then sides.localSide else sides.remoteSide := by
        cases direction <;> rfl
      rw [ContainerOperation.carried, hside, forceSource]
      generalize (if direction = .upload then sides.localSide else sides.remoteSide) = side
      refine Manifest.ext_get? fun p => ?_
      rw [get?_containerPart, Manifest.get?_restrict, forceScan, Service.scanLayouts,
        Manifest.get?_restrict]
      by_cases hp : descriptor.contains p = true
      · cases hdp : service.registry.groupForPath p with
        | none => simp [hp, Service.pathCovered, hdp]
        | some e =>
          obtain rfl := service.apart.own p₀ p descriptor e hd hcontained hp hdp
          simp [hp, pathCovered_iff hdp, hcovered]
      · simp [hp]
    intro baseline hbaseline
    rw [hbaselines, get?_containerBaselinesAfterForce, hget] at hbaseline
    unfold containerBaselineAfterForce at hbaseline
    dsimp only at hbaseline
    rw [hpart, ← hcontent] at hbaseline
    split at hbaseline
    · exact absurd hbaseline (by simp)
    split at hbaseline
    · exact absurd hbaseline (by simp)
    next format hformat =>
    split at hbaseline
    · exact absurd hbaseline (by simp)
    next s hs =>
    obtain rfl := Option.some.inj hbaseline
    exact ⟨format, s, hformat, hs, rfl⟩
  · rw [or_iff_right hin, Fresh, hcontent, hbaselines]
    have hnone : (touchedContainers service (((forceScan service layoutIds sides.localSide).paths
        ++ (forceScan service layoutIds sides.remoteSide).paths)
        ++ (@forceSource service layoutIds direction sides).paths)).get?
          descriptor.containerId = none := by
      by_contra hne
      obtain ⟨e, he⟩ := Option.ne_none_iff_exists'.mp hne
      exact hin ((htouched e).mp he).2
    rw [get?_containerBaselinesAfterForce, hnone]
    exact Iff.rfl

/-- **Resolutions.** Where the resolution of a conflict leaves the same files of a container on
    both sides, the baseline on record is fresh exactly when the old one describes what is kept. -/
theorem fresh_resolve_iff {conflictId : ConflictId} {resolution : SaveConflictResolution}
    (h : resolveConflict service conflictId resolution env sides = .ok after)
    (hsame : containerPart service descriptor after.localSide
      = containerPart service descriptor after.remoteSide) :
    Fresh service descriptor after.state (containerPart service descriptor after.localSide)
      ↔ Fresh service descriptor sides.state
        ((ContainerOperation.resolve conflictId resolution).carried service sides descriptor) := by
  obtain ⟨hbaselines, hlocal, hremote⟩ := of_resolveConflict h
  have hcontent : containerPart service descriptor after.localSide
      = (ContainerOperation.resolve conflictId resolution).carried service sides descriptor := by
    by_cases hkeep : resolution = .keepLocal
    · rw [hlocal hkeep, hkeep]
      rfl
    · rw [hsame, hremote hkeep, ContainerOperation.carried]
      exact congrArg _ (if_pos (decide_eq_true hkeep)).symm
  rw [Fresh, hbaselines, hcontent]
  exact Iff.rfl

end Deliberate

/-! ### Every operation -/

section Operation

variable {service : SaveSyncService} {op : ContainerOperation} {env : ReconcileEnv}
variable {sides after : Sides} {descriptor : SaveGroupDescriptor} {p : Path}

end Operation

/-! ### A memory card whose conflict is resolved -/

/-- The entry of a file: the whole file, under the number of its game. -/
def cardEntry (file : SaveArtifact) : ContainerEntry :=
  ⟨file.relativePath, "SLUS-00594", file.contentHash, file.sizeBytes⟩

def cardEntries (files : Manifest) : Except OpaqueReason (List ContainerEntry) :=
  if ((files.artifacts.map cardEntry).map ContainerEntry.identity).Nodup then
    .ok (files.artifacts.map cardEntry)
  else .error (.other "invalid-structure")

/-- The files of some entries. -/
def cardFiles (entries : List ContainerEntry) : Manifest :=
  Manifest.ofArtifacts (entries.map (fun e => ⟨e.identity, e.sizeBytes, e.canonicalHash⟩))

/-- What a rebuilt card is checked for. -/
def cardValid (d : SaveGroupDescriptor) (l r : Manifest) (target : List ContainerEntry) : Prop :=
  (∀ p ∈ (cardFiles target).paths, d.contains p = true ∧ (l.get? p ≠ none ∨ r.get? p ≠ none))
    ∧ cardEntries (cardFiles target) = .ok target

instance (d : SaveGroupDescriptor) (l r : Manifest) (target : List ContainerEntry) :
    Decidable (cardValid d l r target) := inferInstanceAs (Decidable (_ ∧ _))

def cardRebuild (d : SaveGroupDescriptor) (l r : Manifest) (target : List ContainerEntry) :
    Except OpaqueReason Manifest :=
  if cardValid d l r target then .ok (cardFiles target) else .error (.other "validation-failure")

theorem of_cardRebuild {d : SaveGroupDescriptor} {l r files : Manifest}
    {target : List ContainerEntry} (h : cardRebuild d l r target = .ok files) :
    files = cardFiles target ∧ cardValid d l r target := by
  unfold cardRebuild at h
  split at h
  · next hvalid => exact ⟨(Except.ok.inj h).symm, hvalid⟩
  · exact absurd h (by simp)

/-- A format with one entry for each file, which checks what it reads and what it builds. -/
def cardFormat : ContainerFormat where
  adapterId := "ps1-raw-memory-card"
  schemaVersion := 1
  formatVariant := "ps1-raw-128k"
  readEntries := fun _ => cardEntries
  rebuild := fun d l r _ => cardRebuild d l r
  distinct := by
    intro d m entries h
    unfold cardEntries at h
    split at h
    · next hnd => exact Except.ok.inj h ▸ hnd
    · exact absurd h (by simp)
  rebuild_inside := by
    intro d l r m target files p a h hp
    obtain ⟨rfl, hvalid⟩ := of_cardRebuild h
    exact (hvalid.1 p ((Manifest.mem_paths_iff _ p).mpr ⟨a, hp⟩)).1
  rebuild_known := by
    intro d l r m target files p a h hp
    obtain ⟨rfl, hvalid⟩ := of_cardRebuild h
    exact (hvalid.1 p ((Manifest.mem_paths_iff _ p).mpr ⟨a, hp⟩)).2
  rebuild_reads := by
    intro d l r m target files h
    obtain ⟨rfl, hvalid⟩ := of_cardRebuild h
    exact hvalid.2

def cardPath : Path := "duckstation/memcards/shared.mcd"

def cardDescriptor : SaveGroupDescriptor :=
  ⟨"duckstation-memory-cards/memcards/shared", "duckstation-memory-cards", "duckstation", cardPath,
    "ps1-raw-memory-card", "file"⟩

/-- A registry with one memory card. -/
def cardGroupForPath (path : Path) : Option SaveGroupDescriptor :=
  if path = cardPath then some cardDescriptor else none

theorem of_cardGroupForPath {p : Path} {d : SaveGroupDescriptor}
    (h : cardGroupForPath p = some d) : p = cardPath ∧ d = cardDescriptor := by
  unfold cardGroupForPath at h
  split at h
  · next hp => exact ⟨hp, (Option.some.inj h).symm⟩
  · exact absurd h (by simp)

def cardRegistry : SaveRegistry where
  layouts := [⟨"duckstation-memory-cards", "duckstation", false, "root_file",
    "ps1-raw-memory-card"⟩]
  groupForPath := cardGroupForPath
  plain := by decide
  registered := by
    intro p d h
    obtain ⟨-, rfl⟩ := of_cardGroupForPath h
    exact ⟨_, List.mem_cons_self, rfl⟩
  group_prefix := by
    intro p d h
    obtain ⟨-, rfl⟩ := of_cardGroupForPath h
    exact ⟨"memcards/shared", by decide⟩
  container_closed := by
    intro p q d e h _ _ he
    rw [(of_cardGroupForPath h).2, (of_cardGroupForPath he).2]
  container_group := by
    intro p q d e h he _ _
    rw [(of_cardGroupForPath h).2, (of_cardGroupForPath he).2]

def cardService : SaveSyncService where
  registry := cardRegistry
  enabledOptionalSystems := ∅
  containerRegistry := fun id =>
    if id = "ps1-raw-memory-card" then some cardFormat.adapter else none
  formats := fun id => if id = "ps1-raw-memory-card" then some cardFormat else none
  lifecycleEnabled := fun _ => true
  apart :=
    { own := fun p q d e h _ _ he => by
        rw [(of_cardGroupForPath h).2, (of_cardGroupForPath he).2]
      named := fun p q d e h he _ _ => by
        rw [(of_cardGroupForPath h).2, (of_cardGroupForPath he).2]
      disjoint := fun p q x d e h he _ _ _ _ => by
        rw [(of_cardGroupForPath h).2, (of_cardGroupForPath he).2]
      adapted := by
        intro p d h _
        obtain ⟨-, rfl⟩ := of_cardGroupForPath h
        exact ⟨_, List.mem_cons_self, rfl, rfl⟩ }
  registry_formats := by
    intro id
    split <;> rfl

/-- A generation of the card. -/
def cardFile (hash : String) : SaveArtifact := ⟨cardPath, 131072, hash⟩

def cardSnapshot (hash : String) : SaveGroupSnapshot :=
  ⟨cardDescriptor.groupId, cardDescriptor.layoutId, [cardFile hash], some "before"⟩

def cardConflict : SaveConflictRecord where
  groupId := cardDescriptor.groupId
  layoutId := cardDescriptor.layoutId
  detectedAt := "before"
  lastSeenAt := "before"
  baseline := some (cardSnapshot "aa")
  localSnapshot := cardSnapshot "bb"
  remoteSnapshot := cardSnapshot "cc"
  acknowledgedAt := none
  resolvedAt := none
  resolution := none
  resolutionRevision := none

/-- Both devices have written to the card since its generation `aa`. -/
def cardSides : Sides where
  localSide := Manifest.ofArtifacts [cardFile "bb"]
  remoteSide := Manifest.ofArtifacts [cardFile "cc"]
  state :=
    { deviceId := "device"
      sharedManifest := Manifest.ofArtifacts [cardFile "aa"]
      lastReconcile := none
      groups := ∅
      conflicts := [cardConflict]
      containerBaselines := (∅ : ContainerTable).put
        { containerId := cardPath
          adapterId := "ps1-raw-memory-card"
          schemaVersion := 1
          formatVariant := "ps1-raw-128k"
          domains := [("SLUS-00594", [(cardPath, "aa", 131072)])]
          tombstones := [] }
      lastCompletedOperationId := none
      quickSyncCursorGeneration := none
      quickSyncReady := false }

/-- The confirmed preview of a force upload. -/
def cardPreview : List SaveDiffEntry :=
  diffEntries cardRegistry.toSaveSelectionPolicy cardSides.localSide cardSides.remoteSide
    cardSides.state.sharedManifest .upload

/-- Both sides hold the same card, and it is there. -/
def cardShared (after : Sides) : Bool :=
  containerPart cardService cardDescriptor after.localSide
      = containerPart cardService cardDescriptor after.remoteSide
    && ((containerPart cardService cardDescriptor after.localSide).get? cardPath).isSome

/-- What the adapter reads of the card, and the baseline on record, disagree. -/
def cardStale (after : Sides) : Bool :=
  match after.state.containerBaselines.get? cardPath, cardFormat.snapshot cardDescriptor
    (containerPart cardService cardDescriptor after.localSide) with
  | some baseline, .ok s => !decide (Describes baseline s)
  | _, _ => false

/-- The next edit of the one game on the card, on this device only. -/
def editedDecisions (after : Sides) : List (String × DomainAction) :=
  match cardFormat.snapshot cardDescriptor (Manifest.ofArtifacts [cardFile "dd"]),
    cardFormat.snapshot cardDescriptor
      (containerPart cardService cardDescriptor after.remoteSide) with
  | .ok edited, .ok s =>
    match planContainerReconcile edited s (after.state.containerBaselines.get? cardPath) with
    | .ok plan => plan.decisions
    | .error _ => []
  | _, _ => []

end RomCloud.SaveSync
