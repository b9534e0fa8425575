import RomCloud.SaveSync.ReconcileScope

namespace RomCloud.SaveSync

open RomCloud.Lib

/-!
# What a reconciliation achieves

A group that a call compared in full is settled when the call returns: both sides hold the same
files, or the conflict is on record, or a container adapter merged it (`settled_of_compared`).

* `PathCompared`, `GroupCompared` — a path, a group, was looked at on both sides;
* `GroupSettled` — what the call then leaves.
-/

variable (service : Service) (call : ReconcileCall) (sides after : Sides)

/-- The call scanned a path for a group it selects, and the remote scan did not leave it out. -/
def PathCompared (p : Path) : Prop :=
  pathInScope service call sides.state p = true
    ∧ (compare service call sides).originalRemote.get? p = sides.remoteSide.get? p

/-- The call compared every path of a group. -/
def GroupCompared (gid : GroupId) : Prop :=
  ∀ p d, service.registry.groupForPath p = some d → d.groupId = gid →
    PathCompared service call sides p

/-- Both sides hold the same files of a group, or its conflict is on record, or an adapter merged
    one of its containers. -/
def GroupSettled (gid : GroupId) : Prop :=
  (∀ p d, service.registry.groupForPath p = some d → d.groupId = gid →
      after.localSide.get? p = after.remoteSide.get? p)
    ∨ (∃ conflict ∈ after.state.activeConflicts, conflict.groupId = gid)
    ∨ ∃ d ∈ (compare service call sides).work.descriptors, d.groupId = gid

variable {service call sides after}

/-! ### Conflicts on record -/

/-- A group has an active conflict. -/
def Conflicted (state : SaveSyncState) (gid : GroupId) : Prop :=
  ∃ conflict ∈ state.activeConflicts, conflict.groupId = gid

theorem mem_activeConflicts_iff (state : SaveSyncState) (conflict : SaveConflictRecord) :
    conflict ∈ state.activeConflicts ↔ conflict ∈ state.conflicts ∧ conflict.resolved = false := by
  rw [SaveSyncState.activeConflicts, List.mem_filter, Bool.not_eq_true']

theorem conflicted_recordConflict (state : SaveSyncState) (group : SaveGroupState)
    (l r : SaveGroupSnapshot) (timestamp : String) :
    Conflicted (recordConflict state group l r timestamp) group.groupId := by
  unfold recordConflict
  dsimp only
  refine ⟨_, (mem_activeConflicts_iff _ _).mpr ⟨List.mem_append_right _ List.mem_cons_self, ?_⟩, ?_⟩
  · split
    · next existing hfound =>
      have hactive := List.find?_some hfound
      rw [Bool.and_eq_true, Bool.not_eq_true'] at hactive
      exact hactive.2
    · rfl
  · split
    · next existing hfound =>
      have hid := List.find?_some hfound
      rw [Bool.and_eq_true, decide_eq_true_iff] at hid
      exact congrArg ConflictId.groupId hid.1
    · rfl

/-- Recording a conflict of any group keeps the group of a conflict on record. -/
theorem Conflicted.recordConflict {state : SaveSyncState} {gid : GroupId}
    (h : Conflicted state gid) (group : SaveGroupState) (l r : SaveGroupSnapshot)
    (timestamp : String) :
    Conflicted (SaveSync.recordConflict state group l r timestamp) gid := by
  by_cases hgid : group.groupId = gid
  · exact hgid ▸ conflicted_recordConflict state group l r timestamp
  · obtain ⟨conflict, hmem, hgroup⟩ := h
    obtain ⟨hin, hactive⟩ := (mem_activeConflicts_iff _ _).mp hmem
    have hne : ¬ conflict.groupId = group.groupId := fun heq => hgid (heq.symm.trans hgroup)
    refine ⟨conflict, (mem_activeConflicts_iff _ _).mpr ⟨List.mem_append_left _ ?_, hactive⟩, hgroup⟩
    refine List.mem_map.mpr ⟨conflict, List.mem_filter.mpr ⟨hin, ?_⟩, ?_⟩
    · rw [decide_eq_true_iff]
      exact fun hid => hne (congrArg ConflictId.groupId hid)
    · refine if_neg ?_
      rw [Bool.and_eq_true, decide_eq_true_iff]
      exact fun hsame => hne hsame.1

/-- A list of conflicting groups is on record once the loop over it ends. -/
theorem conflicted_foldl_recordGroupConflict (timestamp : String) {groups : List SaveGroupState}
    {group : SaveGroupState} (hmem : group ∈ groups) (hl : group.localObserved.isSome)
    (hr : group.remoteObserved.isSome) (state : SaveSyncState) :
    Conflicted (groups.foldl (recordGroupConflict timestamp) state) group.groupId := by
  have hkeep : ∀ (next : SaveSyncState) (g : SaveGroupState), Conflicted next group.groupId →
      Conflicted (recordGroupConflict timestamp next g) group.groupId := by
    intro next g h
    unfold recordGroupConflict
    split
    · exact h.recordConflict _ _ _ _
    · exact h
  induction groups using List.reverseRecOn with
  | nil => exact absurd hmem (by simp)
  | append_singleton groups g ih =>
    rw [List.foldl_append, List.foldl_cons, List.foldl_nil]
    rcases List.mem_append.mp hmem with hin | hlast
    · exact hkeep _ g (ih hin)
    · rw [List.mem_singleton.mp hlast] at hl hr ⊢
      obtain ⟨l, hl⟩ := Option.isSome_iff_exists.mp hl
      obtain ⟨r, hr⟩ := Option.isSome_iff_exists.mp hr
      unfold recordGroupConflict
      rw [hl, hr]
      exact conflicted_recordConflict _ g l r timestamp

/-! ### A compared group is settled -/

section Settled

variable {env : ReconcileEnv} {obsolete : List SaveConflictRecord}

/-- Group files are equal exactly when the manifests agree on the group. -/
theorem groupFiles_eq_iff {policy : SaveSelectionPolicy} {m n : Manifest} {gid : GroupId} :
    groupFiles policy m gid = groupFiles policy n gid ↔ SameGroup policy m n gid := by
  constructor
  · intro h p hp
    have htransfer : ∀ (m n : Manifest), groupFiles policy m gid = groupFiles policy n gid →
        ∀ a, m.get? p = some a → n.get? p = some a := by
      intro m n hmn a ha
      have hin : a ∈ groupFiles policy m gid := by
        refine (mem_groupManifest_iff _ _ _).mpr ⟨p, ?_, ha⟩
        rw [List.mem_filter, Manifest.mem_paths_iff, decide_eq_true_iff]
        exact ⟨⟨a, ha⟩, hp⟩
      rw [hmn] at hin
      obtain ⟨q, -, hq⟩ := (mem_groupManifest_iff _ _ _).mp hin
      have hqp : q = p :=
        (Manifest.relativePath_of_get? hq).symm.trans (Manifest.relativePath_of_get? ha)
      rwa [hqp] at hq
    apply Option.ext
    intro a
    exact ⟨htransfer m n h a, htransfer n m h.symm a⟩
  · exact groupFiles_congr

/-- A group whose containers no adapter took up: what the plan sees of it is what the call
    scanned, and the containers leave it alone. -/
theorem report_of_not_contained {gid : GroupId}
    (hfree : ∀ d ∈ (compare service call sides).work.descriptors, d.groupId ≠ gid) {p : Path}
    {e : SaveGroupDescriptor} (he : service.registry.groupForPath p = some e)
    (hgid : e.groupId = gid) :
    (∀ d ∈ (compare service call sides).work.descriptors, d.contains p = false)
      ∧ (compare service call sides).localReport.artifacts.get? p
        = (compare service call sides).originalLocal.get? p
      ∧ (compare service call sides).remoteReport.artifacts.get? p
        = (compare service call sides).originalRemote.get? p
      ∧ (compare service call sides).baseline.get? p
        = (compare service call sides).physicalBaseline.get? p := by
  have hwork := work_within service call sides
  have hout : ∀ d ∈ (compare service call sides).work.descriptors, d.contains p = false := by
    intro d hd
    rw [← Bool.not_eq_true]
    intro hcontains
    obtain ⟨hcontained, -, q, hq⟩ := inScope_of_mem_containerDescriptors service call sides
      (hwork.descriptors_sub d hd)
    exact hfree d hd
      ((service.registry.container_closed q p d e hq hcontained hcontains he).symm.trans hgid)
  have hhandled : p ∉ (compare service call sides).work.handledPaths := by
    intro hmem
    obtain ⟨d, hd, hcontains⟩ := hwork.handled p hmem
    exact absurd (hout d hd) (by simp [hcontains])
  refine ⟨hout, ?_, ?_, ?_⟩
  · rw [get?_localReport, if_pos hhandled]
  · rw [get?_remoteReport, if_pos hhandled]
  · rw [get?_baseline, if_pos hhandled]

/-- A completed call leaves, at a path it compared, what it desired. -/
theorem Completed.get?_of_compared (h : Completed service call env sides after obsolete)
    (hfull : call.uploadOnly = false) {p : Path} (hp : PathCompared service call sides p) :
    after.localSide.get? p = (compare service call sides).desiredLocal.get? p
      ∧ after.remoteSide.get? p = (compare service call sides).desiredRemote.get? p := by
  have hlocal : (compare service call sides).originalLocal.get? p = sides.localSide.get? p := by
    rw [get?_originalLocal, hp.1]
    rfl
  constructor
  · rw [h.localSide, hfull, if_neg (by simp), get?_promote, hlocal]
    split
    · next heq => exact heq
    · rfl
  · rw [h.remoteSide, get?_promote, hp.2]
    split
    · next heq => exact heq
    · rfl

/-- What the baseline of the compared paths holds lies in a supported layout. -/
theorem supported_of_selectedBaseline (hsup : SupportedOnly (compare service call sides)) {p : Path}
    (h : (selectedBaseline (compare service call sides)).get? p ≠ none) :
    (service.registry.groupForPath p).isSome := by
  rw [Option.isSome_iff_ne_none]
  intro hnone
  have hout : pathInScope service call sides.state p = false := by
    rw [pathInScope, Service.pathCovered, hnone]
    rfl
  have hphysical : (compare service call sides).physicalBaseline.get? p = none := by
    by_contra hne
    obtain ⟨a, ha⟩ := Option.ne_none_iff_exists'.mp hne
    obtain ⟨-, henabled, -⟩ := get?_physicalBaseline service call sides ha
    rw [Service.pathEnabled, hnone] at henabled
    exact absurd henabled (by simp)
  have hplan : p ∉ (compare service call sides).paths := by
    intro hmem
    rw [Comparison.paths, mem_planPaths_iff, get?_localReport, get?_remoteReport, get?_baseline,
      get?_originalLocal, get?_originalRemote_of_notInScope _ _ _ hout, hout, hphysical] at hmem
    simp at hmem
  refine h ?_
  unfold selectedBaseline
  refine List.foldlRecOn (motive := fun (m : Manifest) => m.get? p = none) _ _
    (get?_planBaseline_of_notMem _ hplan) ?_
  intro m hm d _
  dsimp only
  split
  · rw [Manifest.get?_update, Manifest.get?_restrict, hphysical, ite_self, hm]
    rfl
  · rw [Manifest.get?_update, Manifest.get?_restrict, (hsup p hnone).1, ite_self, hm]
    rfl

/-- In a group that the plan leaves as a conflict, without container, the desired manifests and
    the new baseline are what the plan compared. -/
theorem sameGroup_of_conflict (hsup : SupportedOnly (compare service call sides)) {gid : GroupId}
    (hfree : ∀ d ∈ (compare service call sides).work.descriptors, d.groupId ≠ gid)
    (hact : (compare service call sides).action gid = .conflict) :
    SameGroup service.registry.toSaveSelectionPolicy (compare service call sides).desiredLocal
        (compare service call sides).localReport.artifacts gid
      ∧ SameGroup service.registry.toSaveSelectionPolicy (compare service call sides).desiredRemote
        (compare service call sides).remoteReport.artifacts gid
      ∧ SameGroup service.registry.toSaveSelectionPolicy
        (selectedBaseline (compare service call sides)) (compare service call sides).baseline
        gid := by
  have hwork := work_within service call sides
  rw [SameGroup, SameGroup, SameGroup, ← forall_and, ← forall_and]
  intro p
  rw [← forall_and, ← forall_and]
  intro hp
  cases hd : service.registry.groupForPath p with
  | none =>
    -- an unsupported path is nowhere
    have hout : pathInScope service call sides.state p = false := by
      rw [pathInScope, Service.pathCovered, hd]
      rfl
    have hphysical : (compare service call sides).physicalBaseline.get? p = none := by
      by_contra hne
      obtain ⟨a, ha⟩ := Option.ne_none_iff_exists'.mp hne
      obtain ⟨-, henabled, -⟩ := get?_physicalBaseline service call sides ha
      rw [Service.pathEnabled, hd] at henabled
      exact absurd henabled (by simp)
    have hselected : (selectedBaseline (compare service call sides)).get? p = none := by
      by_contra hne
      exact absurd (supported_of_selectedBaseline hsup hne) (by simp [hd])
    rw [(hsup p hd).1, (hsup p hd).2, hselected, get?_localReport, get?_remoteReport, get?_baseline,
      get?_originalLocal, get?_originalRemote_of_notInScope _ _ _ hout, hout, hphysical]
    simp only [Bool.false_eq_true, if_false, ite_self, and_self]
  | some e =>
    have hgid : e.groupId = gid := by
      rw [← hp]
      exact (Service.groupId_of_descriptor hd).symm
    have hact' : (compare service call sides).action (service.groupId p) = .conflict := by
      rw [Service.groupId_of_descriptor hd, hgid]
      exact hact
    obtain ⟨hout, hlocal, hremote, -⟩ := report_of_not_contained hfree hd hgid
    refine ⟨?_, ?_, ?_⟩
    · rw [get?_desiredLocal, hact', if_neg (by simp), hwork.local_outside p hout, hlocal]
    · rw [get?_desiredRemote, hact', if_neg (by simp), hwork.remote_outside p hout, hremote]
    · rw [get?_selectedBaseline_of_not_contains _ hout]
      by_cases hmem : p ∈ (compare service call sides).paths
      · rw [get?_planBaseline _ hmem, hact']
        split <;> rfl
      · rw [get?_planBaseline_of_notMem _ hmem]
        exact (get?_eq_none_of_notMem_planPaths _ _ _ hmem).2.2.symm

/-- **A conflict of the plan is recorded as one.** A group that the plan leaves as a conflict,
    without container, is refreshed with the condition conflict. -/
theorem refreshed_of_conflict (env : ReconcileEnv) (hsup : SupportedOnly (compare service call sides)) {gid : GroupId}
    (hfree : ∀ d ∈ (compare service call sides).work.descriptors, d.groupId ≠ gid)
    (hact : (compare service call sides).action gid = .conflict) :
    ∃ g, (refreshedGroups env sides.state (compare service call sides)).get? gid = some g
      ∧ g.condition = .conflict ∧ g.localObserved.isSome ∧ g.remoteObserved.isSome := by
  have hspec := groupAction_spec service.registry.toSaveSelectionPolicy
    (compare service call sides).repairLocalGroupIds
    (compare service call sides).localReport.artifacts
    (compare service call sides).remoteReport.artifacts (compare service call sides).baseline gid
  rw [show groupAction _ _ _ _ _ gid = .conflict from hact] at hspec
  obtain ⟨hl, hr, hb⟩ := sameGroup_of_conflict hsup hfree hact
  obtain ⟨hlr, hrb, hlb⟩ := hspec
  have hdlr : ¬ SameGroup service.registry.toSaveSelectionPolicy
      (compare service call sides).desiredLocal (compare service call sides).desiredRemote gid :=
    fun h => hlr (hl.symm.trans (h.trans hr))
  have hdrb : ¬ SameGroup service.registry.toSaveSelectionPolicy
      (compare service call sides).desiredRemote
      (selectedBaseline (compare service call sides)) gid :=
    fun h => hrb (hr.symm.trans (h.trans hb))
  have hdlb : ¬ SameGroup service.registry.toSaveSelectionPolicy
      (compare service call sides).desiredLocal
      (selectedBaseline (compare service call sides)) gid :=
    fun h => hlb (hl.symm.trans (h.trans hb))
  -- some supported file tells the two sides apart, so the group has a computed state
  obtain ⟨p, e, he, hgid, hfile⟩ : ∃ p e, service.registry.groupForPath p = some e
      ∧ e.groupId = gid ∧ ((compare service call sides).desiredLocal.get? p ≠ none
        ∨ (compare service call sides).desiredRemote.get? p ≠ none) := by
    rw [SameGroup] at hdlr
    push Not at hdlr
    obtain ⟨p, hp, hne⟩ := hdlr
    cases hd : service.registry.groupForPath p with
    | none => exact absurd ((hsup p hd).1.trans (hsup p hd).2.symm) hne
    | some e =>
      refine ⟨p, e, hd, ?_, ?_⟩
      · rw [← hp]
        exact (Service.groupId_of_descriptor hd).symm
      · by_contra hnone
        push Not at hnone
        exact hne (hnone.1.trans hnone.2.symm)
  have hcomputed : (groupStatesFromManifests service.registry.toSaveSelectionPolicy
      (selectedBaseline (compare service call sides)) (compare service call sides).desiredLocal
      (compare service call sides).desiredRemote env.timestamp).get? gid ≠ none := by
    rw [← hgid]
    intro hnone
    obtain ⟨-, h1, h2⟩ := groupStatesFromManifests_eq_none he hnone
    rcases hfile with hfile | hfile
    · exact hfile h1
    · exact hfile h2
  obtain ⟨g, hg⟩ := Option.ne_none_iff_exists'.mp hcomputed
  obtain ⟨paths, d, hstate, -, hpaths⟩ := groupStatesFromManifests_spec hg
  have hsupported : ∀ q, (compare service call sides).desiredLocal.get? q ≠ none
      ∨ (compare service call sides).desiredRemote.get? q ≠ none →
        (service.registry.groupForPath q).isSome := by
    intro q hq
    rw [Option.isSome_iff_ne_none]
    intro hnone
    rcases hq with hq | hq
    · exact hq (hsup q hnone).1
    · exact hq (hsup q hnone).2
  have hbase := hpaths (selectedBaseline (compare service call sides))
    (fun q hq => ⟨Or.inl hq, supported_of_selectedBaseline hsup hq⟩)
  have hlocal := hpaths (compare service call sides).desiredLocal
    (fun q hq => ⟨Or.inr (Or.inl hq), hsupported q (Or.inl hq)⟩)
  have hremote := hpaths (compare service call sides).desiredRemote
    (fun q hq => ⟨Or.inr (Or.inr hq), hsupported q (Or.inr hq)⟩)
  refine ⟨g, ?_, ?_, ?_, ?_⟩
  · unfold refreshedGroups
    rw [Table.get?_override]
    rcases Table.get?_putAll_cases (groupStatesFromManifests
        service.registry.toSaveSelectionPolicy (selectedBaseline (compare service call sides))
        (compare service call sides).desiredLocal (compare service call sides).desiredRemote
        env.timestamp) ((compare service call sides).work.descriptors.map
          (containerGroupState env sides.state (compare service call sides))) gid with
      ⟨-, hget⟩ | ⟨a, ha, hkey, -⟩
    · rw [hget, hg]
      rfl
    · obtain ⟨d', hd', rfl⟩ := List.mem_map.mp ha
      exact absurd hkey (hfree d' hd')
  · rw [hstate]
    unfold groupStateFromManifests
    dsimp only
    rw [hbase, hlocal, hremote, if_neg (mt groupFiles_eq_iff.mp hdlr),
      if_neg (mt groupFiles_eq_iff.mp hdrb), if_neg (mt groupFiles_eq_iff.mp hdlb)]
  · rw [hstate]
    rfl
  · rw [hstate]
    rfl

/-- **A compared group is settled.** When a full call returns, a group that it compared holds the
    same files on both sides, or its conflict is on record, or an adapter merged one of its
    containers. -/
theorem settled_of_compared (h : Completed service call env sides after obsolete)
    (hfull : call.uploadOnly = false) {gid : GroupId}
    (hcompared : GroupCompared service call sides gid) :
    GroupSettled service call sides after gid := by
  by_cases hcontainer : ∃ d ∈ (compare service call sides).work.descriptors, d.groupId = gid
  · exact Or.inr (Or.inr hcontainer)
  push Not at hcontainer
  by_cases hact : (compare service call sides).action gid = .conflict
  · obtain ⟨g, hg, hcondition, hl, hr⟩ :=
      refreshed_of_conflict env h.supportedOnly hcontainer hact
    have hid : g.groupId = gid := Table.key_of_get? hg
    refine Or.inr (Or.inl ?_)
    have hmem : g ∈ conflictedGroups env sides.state (compare service call sides) :=
      List.mem_filter.mpr ⟨(Table.mem_toList_iff _ g).mpr (hid ▸ hg), decide_eq_true hcondition⟩
    have hrecorded := conflicted_foldl_recordGroupConflict env.timestamp hmem hl hr
      (settledState env sides.state (compare service call sides) obsolete)
    rw [hid] at hrecorded
    obtain ⟨conflict, hactive, hgroup⟩ := hrecorded
    refine ⟨conflict, ?_, hgroup⟩
    rw [mem_activeConflicts_iff] at hactive ⊢
    rw [h.next.2.2.2]
    exact hactive
  · refine Or.inl ?_
    intro p e he hgid
    have hp := hcompared p e he hgid
    obtain ⟨hlocal, hremote⟩ := h.get?_of_compared hfull hp
    obtain ⟨hout, hlreport, hrreport, -⟩ := report_of_not_contained hcontainer he hgid
    have hwork := work_within service call sides
    have hspec := groupAction_spec service.registry.toSaveSelectionPolicy
      (compare service call sides).repairLocalGroupIds
      (compare service call sides).localReport.artifacts
      (compare service call sides).remoteReport.artifacts (compare service call sides).baseline gid
    have hpgid : service.groupId p = gid := (Service.groupId_of_descriptor he).trans hgid
    rw [hlocal, hremote, get?_desiredLocal, get?_desiredRemote, hpgid,
      hwork.local_outside p hout, hwork.remote_outside p hout, ← hlreport, ← hrreport]
    by_cases hmem : p ∈ (compare service call sides).paths
    · cases haction : (compare service call sides).action gid with
      | conflict => exact absurd haction hact
      | upload => simp [hmem]
      | download => simp [hmem, hfull]
      | unchanged =>
        rw [show groupAction _ _ _ _ _ gid = .unchanged from haction] at hspec
        simpa using hspec p hpgid
    · obtain ⟨hl, hr, -⟩ := get?_eq_none_of_notMem_planPaths _ _ _ hmem
      simp [hmem, hl, hr]

end Settled

end RomCloud.SaveSync
