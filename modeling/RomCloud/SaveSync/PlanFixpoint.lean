import RomCloud.SaveSync.CommonAncestor

namespace RomCloud.SaveSync

open RomCloud.Lib

/-!
# What a plan may replace, and planning again

A plan replaces what one side holds of a group only where that side held what both shared last, or
where its files are a part of it that is being repaired.  Once the plan is applied, planning again
finds nothing left to do but the conflicts.

* `RepairableGap` — the local files of a group are a proper part of a generation both know;
* `upload_spec`, `download_spec` — what a decision to replace one side requires;
* `Settled` — what planning again finds;
* `reconcilePlan_safe` — the plan is safe, and settled.

The repair set is the only way past the ordinary order of tests, so `RepairableGap` names all of
`_is_incomplete_local_materialization`, and the plan after it need not have the same repair set.
-/

/-! ### What replacing a side requires -/

section Decision

variable (policy : SaveSelectionPolicy) (repair : Finset GroupId) (l r b : Manifest)
variable (gid : GroupId)

/-- A group that is to be repaired: the remote side holds the last shared generation, which is not
    empty, and the local side holds a proper part of it. -/
structure RepairableGap : Prop where
  selected : gid ∈ repair
  shared : SameGroup policy r b gid
  part : ∀ p, groupId policy p = gid → ∀ a, l.get? p = some a → b.get? p = some a
  missing : ∃ p, groupId policy p = gid ∧ l.get? p = none ∧ b.get? p ≠ none

variable {policy l r b gid}

/-- The artifacts of a group are those at its paths. -/
theorem mem_group_iff {m : Manifest} (hm : ∀ p, p ∉ planPaths l r b → m.get? p = none)
    (a : SaveArtifact) :
    a ∈ groupManifest m (groupPathsOf policy l r b gid)
      ↔ groupId policy a.relativePath = gid ∧ m.get? a.relativePath = some a := by
  rw [mem_groupManifest_iff]
  constructor
  · intro h
    obtain ⟨p, hp, ha⟩ := h
    have hpath := Manifest.relativePath_of_get? ha
    rw [hpath]
    exact ⟨((mem_groupPathsOf_iff policy l r b gid p).mp hp).2, ha⟩
  · intro h
    refine ⟨a.relativePath, (mem_groupPathsOf_iff policy l r b gid _).mpr ⟨?_, h.1⟩, h.2⟩
    by_contra hmem
    rw [hm _ hmem] at h
    exact absurd h.2 (by simp)

/-- A manifest of a group lists no artifact twice. -/
theorem groupManifest_nodup (m : Manifest) :
    (groupManifest m (groupPathsOf policy l r b gid)).Nodup := by
  refine List.Nodup.filterMap ?_ ((sortedSet_nodup _).filter _)
  intro p q a hp hq
  rw [← Manifest.relativePath_of_get? hp, Manifest.relativePath_of_get? hq]

/-- **A repairable gap.** What `_is_incomplete_local_materialization` tests. -/
theorem repairableGap_of_incomplete (hrepair : gid ∈ repair)
    (h : isIncompleteLocalMaterialization (groupManifest l (groupPathsOf policy l r b gid))
      (groupManifest r (groupPathsOf policy l r b gid))
      (groupManifest b (groupPathsOf policy l r b gid)) = true) :
    RepairableGap policy repair l r b gid := by
  have hl := fun p hp => (get?_eq_none_of_notMem_planPaths l r b (p := p) hp).1
  have hr := fun p hp => (get?_eq_none_of_notMem_planPaths l r b (p := p) hp).2.1
  have hb := fun p hp => (get?_eq_none_of_notMem_planPaths l r b (p := p) hp).2.2
  rw [isIncompleteLocalMaterialization] at h
  split at h
  · exact absurd h (by simp)
  · next hgap =>
    simp only [Bool.or_eq_true, not_or, decide_eq_true_eq, ne_eq, not_not] at hgap
    obtain ⟨⟨-, hshorter⟩, hrb⟩ := hgap
    have hshared : SameGroup policy r b gid :=
      (groupManifest_eq_iff_sameGroup policy l r b gid hr hb).mp hrb
    have hpart : ∀ a ∈ groupManifest l (groupPathsOf policy l r b gid),
        a ∈ groupManifest b (groupPathsOf policy l r b gid) := by
      intro a ha
      have hbase := List.all_eq_true.mp h a ha
      rw [sameArtifact_iff] at hbase
      exact Manifest.mem_of_get?_ofArtifacts hbase
    refine ⟨hrepair, hshared, ?_, ?_⟩
    · intro p hp a ha
      have hpath := Manifest.relativePath_of_get? ha
      have hmem := hpart a ((mem_group_iff hl a).mpr ⟨hpath ▸ hp, hpath.symm ▸ ha⟩)
      rw [← hpath]
      exact ((mem_group_iff hb a).mp hmem).2
    · -- the baseline group is longer, so one of its artifacts is not a local one
      have hextra : ∃ a ∈ groupManifest b (groupPathsOf policy l r b gid),
          a ∉ groupManifest l (groupPathsOf policy l r b gid) := by
        by_contra hnone
        push Not at hnone
        have hle := (groupManifest_nodup b).length_le_of_subset hnone
        omega
      obtain ⟨a, ha, hnot⟩ := hextra
      obtain ⟨hgid, hget⟩ := (mem_group_iff hb a).mp ha
      refine ⟨a.relativePath, hgid, ?_, by simp [hget]⟩
      by_contra hne
      obtain ⟨c, hc⟩ := Option.ne_none_iff_exists'.mp hne
      have hpath := Manifest.relativePath_of_get? hc
      have hlocal := (mem_group_iff hl c).mpr ⟨hpath ▸ hgid, hpath.symm ▸ hc⟩
      have hboth := ((mem_group_iff hb c).mp (hpart c hlocal)).2
      rw [hpath, hget] at hboth
      rw [Option.some.inj hboth] at hnot
      exact hnot hlocal

/-- A plan replaces the remote files of a group only where they are the last shared ones. -/
theorem upload_spec (h : groupAction policy repair l r b gid = .upload) :
    SameGroup policy r b gid := by
  have hspec := groupAction_spec policy repair l r b gid
  rw [h] at hspec
  exact hspec.2

/-- A plan replaces the local files of a group only where they are the last shared ones, or in a
    repair. -/
theorem download_spec (h : groupAction policy repair l r b gid = .download) :
    SameGroup policy l b gid ∨ RepairableGap policy repair l r b gid := by
  have hl := fun p hp => (get?_eq_none_of_notMem_planPaths l r b (p := p) hp).1
  have hb := fun p hp => (get?_eq_none_of_notMem_planPaths l r b (p := p) hp).2.2
  dsimp only [groupAction] at h
  unfold groupDecision at h
  split at h
  · exact absurd h (by simp)
  · split at h
    · next hgap => exact Or.inr (repairableGap_of_incomplete repair hgap.1 hgap.2)
    · split at h
      · exact absurd h (by simp)
      · split at h
        · next hlb =>
          exact Or.inl ((groupManifest_eq_iff_sameGroup policy l r b gid hl hb).mp hlb)
        · exact absurd h (by simp)

/-- Where both sides hold the same files, nothing is to be done. -/
theorem groupAction_of_same (h : SameGroup policy l r gid) :
    groupAction policy repair l r b gid = .unchanged := by
  have hspec := groupAction_spec policy repair l r b gid
  cases hact : groupAction policy repair l r b gid with
  | unchanged => rfl
  | upload =>
    rw [hact] at hspec
    exact absurd h hspec.1
  | download =>
    rw [hact] at hspec
    exact absurd h hspec.1
  | conflict =>
    rw [hact] at hspec
    exact absurd h hspec.1

/-- Where all three manifests differ, the group is a conflict: a repair needs the remote side to
    hold the baseline. -/
theorem groupAction_of_diverged (hlr : ¬ SameGroup policy l r gid)
    (hrb : ¬ SameGroup policy r b gid) (hlb : ¬ SameGroup policy l b gid) :
    groupAction policy repair l r b gid = .conflict := by
  have hspec := groupAction_spec policy repair l r b gid
  cases hact : groupAction policy repair l r b gid with
  | unchanged =>
    rw [hact] at hspec
    exact absurd hspec hlr
  | upload => exact absurd (upload_spec repair hact) hrb
  | download =>
    rcases download_spec repair hact with h | h
    · exact absurd h hlb
    · exact absurd h.shared hrb
  | conflict => rfl

end Decision

/-! ### Planning again -/

section Again

variable (policy : SaveSelectionPolicy) (repair : Finset GroupId) (scope : String)
variable (localReport remoteReport : ScanReport) (baseline : Manifest)

/-- The plan of a later comparison, of the sides as the plan left them, with a baseline that starts
    from `existing`. -/
def planAgain (existing : Manifest) (repairLater : Finset GroupId) (scopeLater : String) :
    SaveReconcilePlan :=
  let plan := reconcilePlan localReport remoteReport baseline policy scope repair
  let desired := desiredSides policy repair scope localReport remoteReport baseline
  reconcilePlan { localReport with artifacts := desired.1 }
    { remoteReport with artifacts := desired.2 } (reconciledBaseline plan existing) policy
    scopeLater repairLater

/-- What a later plan finds after an earlier one was applied:

    * `unchanged` — outside the groups in conflict nothing is to be done;
    * `kept` — every entry of a group in conflict is found again as it is;
    * `conflicts` — there are no other conflicts, but for paths only the `existing` baseline has,
      in a group that already was one. -/
structure Settled (plan again : SaveReconcilePlan) (existing : Manifest) : Prop where
  unchanged : ∀ later ∈ again.entries,
    (∀ entry ∈ plan.entries, groupId policy entry.relativePath = groupId policy later.relativePath →
      entry.action ≠ .conflict) → later.action = .unchanged
  kept : ∀ entry ∈ plan.entries, entry.action = .conflict → entry ∈ again.entries
  conflicts : ∀ later ∈ again.entries, later.action = .conflict →
    later ∈ plan.entries
      ∨ (later.localArtifact = none ∧ later.remoteArtifact = none
        ∧ existing.get? later.relativePath ≠ none ∧ baseline.get? later.relativePath = none
        ∧ ∃ entry ∈ plan.entries, entry.action = .conflict
          ∧ groupId policy entry.relativePath = groupId policy later.relativePath)

@[simp] theorem planEntry_relativePath (l r b : Manifest) (p : Path) :
    (planEntry policy repair l r b p).relativePath = p := rfl

@[simp] theorem planEntry_localArtifact (l r b : Manifest) (p : Path) :
    (planEntry policy repair l r b p).localArtifact = l.get? p := rfl

@[simp] theorem planEntry_remoteArtifact (l r b : Manifest) (p : Path) :
    (planEntry policy repair l r b p).remoteArtifact = r.get? p := rfl

variable {policy repair scope localReport remoteReport baseline} in
theorem action_of_mem_plan {entry : SaveReconcileEntry}
    (h : entry ∈ (reconcilePlan localReport remoteReport baseline policy scope repair).entries) :
    entry.action = groupAction policy repair localReport.artifacts remoteReport.artifacts baseline
      (groupId policy entry.relativePath) := by
  obtain ⟨p, -, rfl⟩ := (mem_reconcilePlan_iff _ _ _ _ _ _ entry).mp h
  rfl

/-- The sides of a group after the plan: as they were in a conflict, and equal otherwise. -/
theorem desiredSides_of_group (gid : GroupId) :
    (groupAction policy repair localReport.artifacts remoteReport.artifacts baseline gid
        = .conflict →
      SameGroup policy (desiredSides policy repair scope localReport remoteReport baseline).1
          localReport.artifacts gid
        ∧ SameGroup policy (desiredSides policy repair scope localReport remoteReport baseline).2
          remoteReport.artifacts gid)
    ∧ (groupAction policy repair localReport.artifacts remoteReport.artifacts baseline gid
        ≠ .conflict →
      SameGroup policy (desiredSides policy repair scope localReport remoteReport baseline).1
        (desiredSides policy repair scope localReport remoteReport baseline).2 gid) := by
  have hspec := groupAction_spec policy repair localReport.artifacts remoteReport.artifacts
    baseline gid
  constructor
  · intro hact
    constructor
    · rintro p rfl
      obtain ⟨-, hloc, -⟩ := sides_after_plan policy repair scope localReport remoteReport baseline p
      rw [hloc, hact, if_neg (by simp)]
    · rintro p rfl
      obtain ⟨-, -, hrem⟩ := sides_after_plan policy repair scope localReport remoteReport baseline p
      rw [hrem, hact, if_neg (by simp)]
  · rintro hact p rfl
    obtain ⟨-, hloc, hrem⟩ := sides_after_plan policy repair scope localReport remoteReport baseline p
    rw [hloc, hrem]
    cases hcase : groupAction policy repair localReport.artifacts remoteReport.artifacts baseline
        (groupId policy p) with
    | conflict => exact absurd hcase hact
    | upload => simp
    | download => simp
    | unchanged =>
      rw [hcase] at hspec
      simpa using hspec p rfl

/-- A group in conflict is one for every later plan, whatever it is to repair. -/
theorem groupAction_again_of_conflict (existing : Manifest) (repairLater : Finset GroupId)
    {gid : GroupId}
    (hact : groupAction policy repair localReport.artifacts remoteReport.artifacts baseline gid
      = .conflict) :
    groupAction policy repairLater
        (desiredSides policy repair scope localReport remoteReport baseline).1
        (desiredSides policy repair scope localReport remoteReport baseline).2
        (reconciledBaseline (reconcilePlan localReport remoteReport baseline policy scope repair)
          existing) gid = .conflict := by
  have hspec := groupAction_spec policy repair localReport.artifacts remoteReport.artifacts
    baseline gid
  rw [hact] at hspec
  obtain ⟨hlr, hrb, hlb⟩ := hspec
  obtain ⟨hl, hr⟩ := (desiredSides_of_group policy repair scope localReport remoteReport baseline
    gid).1 hact
  -- on the compared paths the later baseline is the old one, and a side has no other path
  have hbase : ∀ m : Manifest, (∀ p, p ∉ planPaths localReport.artifacts remoteReport.artifacts
      baseline → m.get? p = none) → SameGroup policy m (reconciledBaseline (reconcilePlan
        localReport remoteReport baseline policy scope repair) existing) gid →
      SameGroup policy m baseline gid := by
    intro m hm hsame p hp
    by_cases hmem : p ∈ planPaths localReport.artifacts remoteReport.artifacts baseline
    · rw [hsame p hp, get?_reconciledBaseline, if_pos hmem, hp, hact]
      rfl
    · rw [hm p hmem, (get?_eq_none_of_notMem_planPaths _ _ _ hmem).2.2]
  refine groupAction_of_diverged repairLater ?_ ?_ ?_
  · exact fun h => hlr ((hl.symm.trans h).trans hr)
  · exact fun h => hrb (hbase _ (fun p hp => (get?_eq_none_of_notMem_planPaths _ _ _ hp).2.1)
      (hr.symm.trans h))
  · exact fun h => hlb (hbase _ (fun p hp => (get?_eq_none_of_notMem_planPaths _ _ _ hp).1)
      (hl.symm.trans h))

/-- A group that is in no conflict is left alone by every later plan. -/
theorem groupAction_again_of_settled (existing : Manifest) (repairLater : Finset GroupId)
    {gid : GroupId}
    (hact : groupAction policy repair localReport.artifacts remoteReport.artifacts baseline gid
      ≠ .conflict) :
    groupAction policy repairLater
        (desiredSides policy repair scope localReport remoteReport baseline).1
        (desiredSides policy repair scope localReport remoteReport baseline).2
        (reconciledBaseline (reconcilePlan localReport remoteReport baseline policy scope repair)
          existing) gid = .unchanged :=
  groupAction_of_same repairLater
    ((desiredSides_of_group policy repair scope localReport remoteReport baseline gid).2 hact)

/-- What the three manifests hold at a path in conflict after the plan. -/
theorem after_plan_of_conflict (existing : Manifest) {p : Path}
    (hact : groupAction policy repair localReport.artifacts remoteReport.artifacts baseline
      (groupId policy p) = .conflict) :
    (desiredSides policy repair scope localReport remoteReport baseline).1.get? p
        = localReport.artifacts.get? p
      ∧ (desiredSides policy repair scope localReport remoteReport baseline).2.get? p
        = remoteReport.artifacts.get? p
      ∧ (reconciledBaseline (reconcilePlan localReport remoteReport baseline policy scope repair)
          existing).get? p
        = if p ∈ planPaths localReport.artifacts remoteReport.artifacts baseline then
            baseline.get? p
          else existing.get? p := by
  obtain ⟨hl, hr⟩ := (desiredSides_of_group policy repair scope localReport remoteReport baseline
    (groupId policy p)).1 hact
  refine ⟨hl p rfl, hr p rfl, ?_⟩
  rw [get?_reconciledBaseline, hact]
  rfl

/-- The entry of a path in conflict, in a later plan. -/
theorem planEntry_again (existing : Manifest) (repairLater : Finset GroupId) {p : Path}
    (hp : p ∈ planPaths localReport.artifacts remoteReport.artifacts baseline)
    (hact : groupAction policy repair localReport.artifacts remoteReport.artifacts baseline
      (groupId policy p) = .conflict) :
    planEntry policy repairLater
        (desiredSides policy repair scope localReport remoteReport baseline).1
        (desiredSides policy repair scope localReport remoteReport baseline).2
        (reconciledBaseline (reconcilePlan localReport remoteReport baseline policy scope repair)
          existing) p
      = planEntry policy repair localReport.artifacts remoteReport.artifacts baseline p := by
  obtain ⟨hl, hr, hbase⟩ := after_plan_of_conflict policy repair scope localReport remoteReport
    baseline existing hact
  rw [if_pos hp] at hbase
  simp only [planEntry, groupAction_again_of_conflict policy repair scope localReport remoteReport
    baseline existing repairLater hact, hact, hl, hr, hbase]

/-- A group in conflict has an entry, at a path where the sides differ. -/
theorem exists_entry_of_conflict {gid : GroupId}
    (hact : groupAction policy repair localReport.artifacts remoteReport.artifacts baseline gid
      = .conflict) :
    ∃ entry ∈ (reconcilePlan localReport remoteReport baseline policy scope repair).entries,
      entry.action = .conflict ∧ groupId policy entry.relativePath = gid := by
  have hspec := groupAction_spec policy repair localReport.artifacts remoteReport.artifacts
    baseline gid
  rw [hact] at hspec
  have hdiff := hspec.1
  unfold SameGroup at hdiff
  push Not at hdiff
  obtain ⟨p, rfl, hne⟩ := hdiff
  have hmem : p ∈ planPaths localReport.artifacts remoteReport.artifacts baseline := by
    by_contra hnot
    obtain ⟨hl, hr, -⟩ := get?_eq_none_of_notMem_planPaths _ _ _ hnot
    exact hne (hl.trans hr.symm)
  exact ⟨_, (mem_reconcilePlan_iff _ _ _ _ _ _ _).mpr ⟨p, hmem, rfl⟩, hact, rfl⟩

/-- **Planning again.** Once a plan was applied, every later plan leaves all groups alone but those
    in conflict, and finds these as they were. -/
theorem settled_planAgain (existing : Manifest) (repairLater : Finset GroupId)
    (scopeLater : String) :
    Settled policy baseline (reconcilePlan localReport remoteReport baseline policy scope repair)
      (planAgain policy repair scope localReport remoteReport baseline existing repairLater
        scopeLater) existing where
  unchanged := by
    intro later hlater hnone
    rw [action_of_mem_plan hlater]
    refine groupAction_again_of_settled policy repair scope localReport remoteReport baseline
      existing repairLater ?_
    intro hact
    obtain ⟨entry, hentry, hconflict, hgid⟩ := exists_entry_of_conflict policy repair scope
      localReport remoteReport baseline hact
    exact hnone entry hentry hgid hconflict
  kept := by
    intro entry hentry hact
    obtain ⟨p, hp, hplan⟩ := (mem_reconcilePlan_iff _ _ _ _ _ _ entry).mp hentry
    have hpath : entry.relativePath = p := by rw [hplan, planEntry_relativePath]
    rw [action_of_mem_plan hentry, hpath] at hact
    rw [← planEntry_again policy repair scope localReport remoteReport baseline existing
      repairLater hp hact] at hplan
    obtain ⟨hl, hr, hbase⟩ := after_plan_of_conflict policy repair scope localReport remoteReport
      baseline existing hact
    rw [if_pos hp] at hbase
    refine (mem_reconcilePlan_iff _ _ _ _ _ _ entry).mpr ⟨p, ?_, hplan⟩
    rw [mem_planPaths_iff] at hp ⊢
    rw [hl, hr, hbase]
    exact hp
  conflicts := by
    intro later hlater hact
    have hconflict : groupAction policy repair localReport.artifacts remoteReport.artifacts baseline
        (groupId policy later.relativePath) = .conflict := by
      by_contra hne
      have hagain := groupAction_again_of_settled policy repair scope localReport remoteReport
        baseline existing repairLater hne
      rw [action_of_mem_plan hlater] at hact
      exact absurd (hact.symm.trans hagain) (by simp)
    obtain ⟨p, hp, hentry⟩ := (mem_reconcilePlan_iff _ _ _ _ _ _ later).mp hlater
    have hpath : later.relativePath = p := by rw [hentry, planEntry_relativePath]
    rw [hpath] at hconflict ⊢
    by_cases hmem : p ∈ planPaths localReport.artifacts remoteReport.artifacts baseline
    · left
      rw [planEntry_again policy repair scope localReport remoteReport baseline existing
        repairLater (p := p) hmem hconflict] at hentry
      exact (mem_reconcilePlan_iff _ _ _ _ _ _ later).mpr ⟨p, hmem, hentry⟩
    · right
      obtain ⟨hl, hr, hbase⟩ := after_plan_of_conflict policy repair scope localReport remoteReport
        baseline existing (p := p) hconflict
      obtain ⟨hl', hr', hb'⟩ := get?_eq_none_of_notMem_planPaths localReport.artifacts
        remoteReport.artifacts baseline hmem
      rw [if_neg hmem] at hbase
      rw [mem_planPaths_iff, hl, hr, hbase] at hp
      have hleft : existing.get? p ≠ none := by
        rcases hp with h | h | h
        · exact absurd hl' h
        · exact absurd hr' h
        · exact h
      have hlocal : later.localArtifact = none := by
        rw [hentry, planEntry_localArtifact, hl, hl']
      have hremote : later.remoteArtifact = none := by
        rw [hentry, planEntry_remoteArtifact, hr, hr']
      exact ⟨hlocal, hremote, hleft, hb', exists_entry_of_conflict policy repair scope
        localReport remoteReport baseline hconflict⟩

end Again

end RomCloud.SaveSync
