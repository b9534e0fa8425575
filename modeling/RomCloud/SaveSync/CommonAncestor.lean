import RomCloud.SaveSync.Plan

namespace RomCloud.SaveSync

open RomCloud.Lib

/-!
# The reconciled baseline as a common ancestor

After a reconciliation the baseline is meant to be the last content known to be identical on
both sides.  The purpose is stated here on whole groups, with no reference to how a plan is
computed:

* `SameGroup` — two manifests agree on a group;
* `CommonAncestor` — what the baseline after a plan is for: on every group that was not a
  conflict it is what both sides now hold, and therefore a later one-sided edit is not a
  conflict and a re-created file is not deleted again.

`groupAction_spec` connects the abstract reading with the code's decision.  The main result,
`commonAncestor_iff`, says exactly when the code's baseline is a common ancestor: when no group
left untouched on the local side lost a file on the remote side (`NoRemoteDeletion`).
For such a deletion `entry.remote if entry.remote is not None else entry.local` puts the
deleted local file back into the baseline (`commonAncestor_fails_on_remote_deletion`).
-/

/-- Two manifests hold the same files in a group. -/
def SameGroup (policy : SaveSelectionPolicy) (m n : Manifest) (gid : GroupId) : Prop :=
  ∀ p, groupId policy p = gid → m.get? p = n.get? p

namespace SameGroup

variable {policy : SaveSelectionPolicy} {l m n : Manifest} {gid : GroupId}

theorem refl : SameGroup policy m m gid := fun _ _ => rfl

theorem symm (h : SameGroup policy m n gid) : SameGroup policy n m gid :=
  fun p hp => (h p hp).symm

theorem trans (h : SameGroup policy l m gid) (h' : SameGroup policy m n gid) :
    SameGroup policy l n gid :=
  fun p hp => (h p hp).trans (h' p hp)

end SameGroup

/-! ### What a decision means -/

section Decision

variable (policy : SaveSelectionPolicy) (repair : Finset GroupId) (l r b : Manifest)
variable (gid : GroupId)

theorem mem_groupPathsOf_iff (p : Path) :
    p ∈ groupPathsOf policy l r b gid ↔ p ∈ planPaths l r b ∧ groupId policy p = gid := by
  rw [groupPathsOf, List.mem_filter, decide_eq_true_iff]

/-- Comparing the group manifests of two of the three sides is comparing them on the group. -/
theorem groupManifest_eq_iff_sameGroup {m n : Manifest}
    (hm : ∀ p, p ∉ planPaths l r b → m.get? p = none)
    (hn : ∀ p, p ∉ planPaths l r b → n.get? p = none) :
    groupManifest m (groupPathsOf policy l r b gid)
        = groupManifest n (groupPathsOf policy l r b gid) ↔ SameGroup policy m n gid := by
  rw [groupManifest_eq_iff]
  constructor
  · intro h p hp
    by_cases hmem : p ∈ planPaths l r b
    · exact h p ((mem_groupPathsOf_iff policy l r b gid p).mpr ⟨hmem, hp⟩)
    · rw [hm p hmem, hn p hmem]
  · intro h p hp
    exact h p ((mem_groupPathsOf_iff policy l r b gid p).mp hp).2

theorem get?_eq_none_of_notMem_planPaths {p : Path} (hp : p ∉ planPaths l r b) :
    l.get? p = none ∧ r.get? p = none ∧ b.get? p = none := by
  rw [mem_planPaths_iff] at hp
  push Not at hp
  exact hp

/-- A repairable gap: the local side holds only files the remote side holds too. -/
private theorem le_of_isIncompleteLocalMaterialization
    (h : isIncompleteLocalMaterialization (groupManifest l (groupPathsOf policy l r b gid))
      (groupManifest r (groupPathsOf policy l r b gid))
      (groupManifest b (groupPathsOf policy l r b gid)) = true)
    {p : Path} (hp : groupId policy p = gid) {a : SaveArtifact} (ha : l.get? p = some a) :
    r.get? p = some a := by
  rw [isIncompleteLocalMaterialization] at h
  split at h
  · exact absurd h (by simp)
  · next hgap =>
    simp only [Bool.or_eq_true, not_or, decide_eq_true_eq, ne_eq, not_not] at hgap
    have hmem : p ∈ groupPathsOf policy l r b gid := by
      rw [mem_groupPathsOf_iff, mem_planPaths_iff]
      exact ⟨Or.inl (by simp [ha]), hp⟩
    have hin : a ∈ groupManifest l (groupPathsOf policy l r b gid) :=
      (mem_groupManifest_iff _ _ _).mpr ⟨p, hmem, ha⟩
    have hbase := List.all_eq_true.mp h a hin
    rw [sameArtifact_iff] at hbase
    have hinr : a ∈ groupManifest r (groupPathsOf policy l r b gid) :=
      hgap.2 ▸ Manifest.mem_of_get?_ofArtifacts hbase
    obtain ⟨q, -, hq⟩ := (mem_groupManifest_iff _ _ _).mp hinr
    have hqp : q = p :=
      (Manifest.relativePath_of_get? hq).symm.trans (Manifest.relativePath_of_get? ha)
    rwa [hqp] at hq

/-- What an action says about the three sides of its group. -/
def ActionSpec : SaveReconcileAction → Prop
  | .unchanged => SameGroup policy l r gid
  | .upload => ¬ SameGroup policy l r gid ∧ SameGroup policy r b gid
  | .download => ¬ SameGroup policy l r gid ∧
      (SameGroup policy l b gid ∨
        ∀ p, groupId policy p = gid → ∀ a, l.get? p = some a → r.get? p = some a)
  | .conflict => ¬ SameGroup policy l r gid ∧ ¬ SameGroup policy r b gid
      ∧ ¬ SameGroup policy l b gid

/-- **What a decision means.** The action of a plan for a group, read path by path. -/
theorem groupAction_spec :
    ActionSpec policy l r b gid (groupAction policy repair l r b gid) := by
  have hl : ∀ p, p ∉ planPaths l r b → l.get? p = none :=
    fun p hp => (get?_eq_none_of_notMem_planPaths l r b hp).1
  have hr : ∀ p, p ∉ planPaths l r b → r.get? p = none :=
    fun p hp => (get?_eq_none_of_notMem_planPaths l r b hp).2.1
  have hb : ∀ p, p ∉ planPaths l r b → b.get? p = none :=
    fun p hp => (get?_eq_none_of_notMem_planPaths l r b hp).2.2
  have hlr := groupManifest_eq_iff_sameGroup policy l r b gid hl hr
  have hrb := groupManifest_eq_iff_sameGroup policy l r b gid hr hb
  have hlb := groupManifest_eq_iff_sameGroup policy l r b gid hl hb
  rw [groupAction, groupDecision]
  by_cases h1 : SameGroup policy l r gid
  · rw [if_pos (hlr.mpr h1)]
    exact h1
  · rw [if_neg (mt hlr.mp h1)]
    split
    · next hrepair =>
      exact ⟨h1, Or.inr fun p hp a ha =>
        le_of_isIncompleteLocalMaterialization policy l r b gid hrepair.2 hp ha⟩
    · by_cases h2 : SameGroup policy r b gid
      · rw [if_pos (hrb.mpr h2)]
        exact ⟨h1, h2⟩
      · rw [if_neg (mt hrb.mp h2)]
        by_cases h3 : SameGroup policy l b gid
        · rw [if_pos (hlb.mpr h3)]
          exact ⟨h1, Or.inl h3⟩
        · rw [if_neg (mt hlb.mp h3)]
          exact ⟨h1, h2, h3⟩

end Decision

/-! ### The purpose of a baseline -/

section Ancestor

variable (policy : SaveSelectionPolicy) (repair : Finset GroupId) (scope : String)
variable (localReport remoteReport : ScanReport) (baseline : Manifest)

/-- The desired local and remote manifests of an ordinary reconciliation. -/
def desiredSides : Manifest × Manifest :=
  applyPlan (reconcilePlan localReport remoteReport baseline policy scope repair) false
    (localReport.artifacts, remoteReport.artifacts)

/-- The baseline after an ordinary reconciliation. -/
def nextBaseline : Manifest :=
  reconciledBaseline (reconcilePlan localReport remoteReport baseline policy scope repair)
    baseline

/-- **Common ancestor.** In every group the plan compared and did not leave as a conflict:

    * `shared` — the next baseline is what both sides then hold;
    * `oneSided` — an edit made afterwards on one side only is never a conflict;
    * `recreated` — a file absent after the plan that a peer creates again, while the local side
      stands still, is never deleted by the next plan. -/
structure CommonAncestor : Prop where
  shared : ∀ entry ∈ (reconcilePlan localReport remoteReport baseline policy scope repair).entries,
    entry.action ≠ .conflict →
      SameGroup policy (nextBaseline policy repair scope localReport remoteReport baseline)
          (desiredSides policy repair scope localReport remoteReport baseline).1
          (groupId policy entry.relativePath)
        ∧ SameGroup policy (nextBaseline policy repair scope localReport remoteReport baseline)
          (desiredSides policy repair scope localReport remoteReport baseline).2
          (groupId policy entry.relativePath)
  oneSided : ∀ entry ∈ (reconcilePlan localReport remoteReport baseline policy scope repair).entries,
    entry.action ≠ .conflict → ∀ (localLater remoteLater : ScanReport) (repairLater : Finset GroupId)
      (scopeLater : String),
      SameGroup policy localLater.artifacts
          (desiredSides policy repair scope localReport remoteReport baseline).1
          (groupId policy entry.relativePath)
        ∨ SameGroup policy remoteLater.artifacts
          (desiredSides policy repair scope localReport remoteReport baseline).2
          (groupId policy entry.relativePath) →
      ∀ later ∈ (reconcilePlan localLater remoteLater
          (nextBaseline policy repair scope localReport remoteReport baseline) policy scopeLater
          repairLater).entries,
        groupId policy later.relativePath = groupId policy entry.relativePath →
          later.action ≠ .conflict
  recreated : ∀ entry ∈ (reconcilePlan localReport remoteReport baseline policy scope repair).entries,
    entry.action ≠ .conflict → ∀ (localLater remoteLater : ScanReport) (repairLater : Finset GroupId)
      (scopeLater : String) (p : Path),
      groupId policy p = groupId policy entry.relativePath →
      SameGroup policy localLater.artifacts
        (desiredSides policy repair scope localReport remoteReport baseline).1
        (groupId policy entry.relativePath) →
      (desiredSides policy repair scope localReport remoteReport baseline).1.get? p = none →
      remoteLater.artifacts.get? p ≠ none →
        (desiredSides policy repairLater scopeLater localLater remoteLater
          (nextBaseline policy repair scope localReport remoteReport baseline)).2.get? p ≠ none

/-- No group whose local files are those of the baseline lost a local path on the remote. -/
def NoRemoteDeletion (localSide remoteSide baseline : Manifest) : Prop :=
  ∀ gid, SameGroup policy localSide baseline gid →
    ∀ p, groupId policy p = gid → localSide.get? p ≠ none → remoteSide.get? p ≠ none

/-- The three manifests after a plan, at a path: the next baseline, the desired local and the
    desired remote one, by the action of the path's group. -/
theorem sides_after_plan (p : Path) :
    let act := groupAction policy repair localReport.artifacts remoteReport.artifacts baseline
      (groupId policy p)
    (nextBaseline policy repair scope localReport remoteReport baseline).get? p
        = baselineValue act (localReport.artifacts.get? p) (remoteReport.artifacts.get? p)
            (baseline.get? p)
      ∧ (desiredSides policy repair scope localReport remoteReport baseline).1.get? p
        = (if act = .download then remoteReport.artifacts.get? p
            else localReport.artifacts.get? p)
      ∧ (desiredSides policy repair scope localReport remoteReport baseline).2.get? p
        = (if act = .upload then localReport.artifacts.get? p
            else remoteReport.artifacts.get? p) := by
  intro act
  rw [nextBaseline, desiredSides, get?_reconciledBaseline, get?_applyPlan_fst,
    get?_applyPlan_snd]
  by_cases hp : p ∈ planPaths localReport.artifacts remoteReport.artifacts baseline
  · simp only [hp, if_true, true_and, and_true]
    exact ⟨rfl, rfl, rfl⟩
  · -- a path no side holds: every value is `none`
    obtain ⟨hl, hr, hb⟩ := get?_eq_none_of_notMem_planPaths _ _ _ hp
    simp only [hp, if_false, false_and, hl, hr, hb, ite_self, and_self, and_true]
    cases act <;> rfl

/-- A group with no remote deletion: after the plan the baseline is what both sides hold. -/
theorem shared_of_noRemoteDeletion
    (h : NoRemoteDeletion policy localReport.artifacts remoteReport.artifacts baseline)
    (gid : GroupId)
    (hact : groupAction policy repair localReport.artifacts remoteReport.artifacts baseline gid
      ≠ .conflict) :
    SameGroup policy (nextBaseline policy repair scope localReport remoteReport baseline)
        (desiredSides policy repair scope localReport remoteReport baseline).1 gid
      ∧ SameGroup policy (nextBaseline policy repair scope localReport remoteReport baseline)
        (desiredSides policy repair scope localReport remoteReport baseline).2 gid := by
  rw [SameGroup, SameGroup, ← forall_and]
  intro p
  rw [← forall_and]
  rintro rfl
  obtain ⟨hbase, hloc, hrem⟩ := sides_after_plan policy repair scope localReport remoteReport baseline p
  rw [hbase, hloc, hrem]
  have hspec := groupAction_spec policy repair localReport.artifacts remoteReport.artifacts
    baseline (groupId policy p)
  cases hcase : groupAction policy repair localReport.artifacts remoteReport.artifacts baseline
      (groupId policy p) with
  | conflict => exact absurd hcase hact
  | upload => simp [baselineValue]
  | unchanged =>
    rw [hcase] at hspec
    simp [baselineValue, hspec p rfl]
  | download =>
    -- only a local file absent on the remote could survive in the baseline
    rw [hcase] at hspec
    have hkept : localReport.artifacts.get? p ≠ none → remoteReport.artifacts.get? p ≠ none := by
      rcases hspec.2 with hlb | hgap
      · exact h _ hlb p rfl
      · intro hne
        obtain ⟨a, ha⟩ := Option.ne_none_iff_exists'.mp hne
        rw [hgap p rfl a ha]
        exact Option.some_ne_none a
    cases hr : remoteReport.artifacts.get? p with
    | some a => simp [baselineValue]
    | none =>
      have hl : localReport.artifacts.get? p = none := by
        by_contra hne
        exact hkept hne hr
      simp [baselineValue, hl]

/-- When the baseline is what one side holds, the group is not a conflict, whatever the other
    side does. -/
theorem groupAction_ne_conflict_of_sameGroup (l r b : Manifest) {gid : GroupId}
    (h : SameGroup policy l b gid ∨ SameGroup policy r b gid) :
    groupAction policy repair l r b gid ≠ .conflict := by
  intro hc
  have hspec := groupAction_spec policy repair l r b gid
  rw [hc] at hspec
  rcases h with h | h
  · exact hspec.2.2 h
  · exact hspec.2.1 h

/-- **The baseline is a common ancestor exactly without remote deletions.** For every pair of
    scans, every baseline, policy and repair set, the baseline after the plan is what both sides
    hold, no later one-sided edit is a conflict and no re-created file is deleted again, if and
    only if no group untouched on the local side lost a file on the remote side. -/
theorem commonAncestor_iff :
    CommonAncestor policy repair scope localReport remoteReport baseline
      ↔ NoRemoteDeletion policy localReport.artifacts remoteReport.artifacts baseline := by
  constructor
  · intro h gid hlb p hp hne hr
    subst hp
    -- the plan downloads the deletion, and the baseline keeps the deleted file
    have hmem : p ∈ planPaths localReport.artifacts remoteReport.artifacts baseline :=
      (mem_planPaths_iff _ _ _ p).mpr (Or.inl hne)
    have hentry := (mem_reconcilePlan_iff policy repair scope localReport remoteReport baseline
      _).mpr ⟨p, hmem, rfl⟩
    have hnc := groupAction_ne_conflict_of_sameGroup policy repair localReport.artifacts
      remoteReport.artifacts baseline (Or.inl hlb)
    obtain ⟨hbl, hbr⟩ := h.shared _ hentry hnc
    obtain ⟨hbase, hloc, hrem⟩ := sides_after_plan policy repair scope localReport remoteReport baseline p
    have hspec := groupAction_spec policy repair localReport.artifacts remoteReport.artifacts
      baseline (groupId policy p)
    have hl := hbl p rfl
    have hrr := hbr p rfl
    rw [hbase, hloc] at hl
    rw [hbase, hrem] at hrr
    cases hcase : groupAction policy repair localReport.artifacts remoteReport.artifacts baseline
        (groupId policy p) with
    | conflict => exact hnc hcase
    | unchanged =>
      rw [hcase] at hspec
      exact hne ((hspec p rfl).trans hr)
    | upload =>
      rw [hcase] at hspec
      exact hspec.1 (hlb.trans hspec.2.symm)
    | download =>
      simp only [hcase, baselineValue, hr, Option.none_or, if_true] at hl
      exact hne hl
  · intro h
    have hshared := fun gid hact => shared_of_noRemoteDeletion policy repair scope localReport
      remoteReport baseline h gid hact
    have hact : ∀ entry ∈ (reconcilePlan localReport remoteReport baseline policy scope
        repair).entries, entry.action = groupAction policy repair localReport.artifacts
          remoteReport.artifacts baseline (groupId policy entry.relativePath) := by
      intro entry hentry
      obtain ⟨p, -, rfl⟩ := (mem_reconcilePlan_iff _ _ _ _ _ _ entry).mp hentry
      rfl
    refine ⟨?_, ?_, ?_⟩
    · intro entry hentry hnc
      exact hshared _ (hact entry hentry ▸ hnc)
    · intro entry hentry hnc localLater remoteLater repairLater scopeLater hside later hlater hgid
      obtain ⟨hbl, hbr⟩ := hshared _ (hact entry hentry ▸ hnc)
      obtain ⟨q, -, rfl⟩ := (mem_reconcilePlan_iff _ _ _ _ _ _ later).mp hlater
      refine groupAction_ne_conflict_of_sameGroup _ _ _ _ _ ?_
      rw [show groupId policy q = groupId policy entry.relativePath from hgid]
      rcases hside with hl | hr
      · exact Or.inl (hl.trans hbl.symm)
      · exact Or.inr (hr.trans hbr.symm)
    · intro entry hentry hnc localLater remoteLater repairLater scopeLater p hp hstill habs hne
      obtain ⟨hbl, -⟩ := hshared _ (hact entry hentry ▸ hnc)
      obtain ⟨-, -, hrem⟩ := sides_after_plan policy repairLater scopeLater localLater remoteLater
        (nextBaseline policy repair scope localReport remoteReport baseline) p
      rw [hrem]
      split
      · -- an upload would need the remote to hold the baseline, where the file is absent
        next hup =>
        have hspec := groupAction_spec policy repairLater localLater.artifacts
          remoteLater.artifacts
          (nextBaseline policy repair scope localReport remoteReport baseline) (groupId policy p)
        rw [hup] at hspec
        have hrb := hspec.2 p rfl
        rw [hbl p hp, habs] at hrb
        exact absurd hrb hne
      · exact hne

end Ancestor

/-! ### A deletion by a peer -/

/-- A policy with one group, which every path belongs to. -/
def oneGroupPolicy : SaveSelectionPolicy where
  layouts := [⟨"snes", "snes", false, "stem", ""⟩]
  groupForPath := fun _ => some ⟨"snes/zelda", "snes", "snes", "", "", ""⟩

/-- A scan that found the given artifacts and nothing else. -/
def ScanReport.of (values : List SaveArtifact) : ScanReport :=
  ⟨Manifest.ofArtifacts values, 0, 0, []⟩

/-- A peer deleted the only file of a group nobody touched here: the plan deletes it locally and
    the next baseline still lists it. -/
theorem commonAncestor_fails_on_remote_deletion :
    ¬ CommonAncestor oneGroupPolicy ∅ "all_eligible"
        (ScanReport.of [⟨"snes/zelda.srm", 8192, "aa"⟩]) (ScanReport.of [])
        (Manifest.ofArtifacts [⟨"snes/zelda.srm", 8192, "aa"⟩]) := by
  intro h
  have hentry := (mem_reconcilePlan_iff oneGroupPolicy ∅ "all_eligible"
    (ScanReport.of [⟨"snes/zelda.srm", 8192, "aa"⟩]) (ScanReport.of [])
    (Manifest.ofArtifacts [⟨"snes/zelda.srm", 8192, "aa"⟩]) _).mpr
      ⟨"snes/zelda.srm", by decide, rfl⟩
  have hsame := (h.shared _ hentry (by decide)).1 "snes/zelda.srm" rfl
  exact absurd hsame (by decide)

/-! ### The upload-only sibling -/

section UploadOnly

variable (policy : SaveSelectionPolicy) (repair : Finset GroupId) (scope : String)
variable (localReport remoteReport : ScanReport) (baseline : Manifest)

/-- **Upload-only baselines.** The sibling of `reconciledBaseline` for upload-only passes never
    keeps a deleted file: in every group it advances, the baseline is what both sides hold. -/
theorem uploadOnlyReconciledBaseline_shared (gid : GroupId)
    (hact : groupAction policy repair localReport.artifacts remoteReport.artifacts baseline gid
        = .upload ∨
      groupAction policy repair localReport.artifacts remoteReport.artifacts baseline gid
        = .unchanged) :
    let plan := reconcilePlan localReport remoteReport baseline policy scope repair
    let desired := applyPlan plan true (localReport.artifacts, remoteReport.artifacts)
    SameGroup policy (uploadOnlyReconciledBaseline plan baseline) desired.1 gid
      ∧ SameGroup policy (uploadOnlyReconciledBaseline plan baseline) desired.2 gid := by
  intro plan desired
  rw [SameGroup, SameGroup, ← forall_and]
  intro p
  rw [← forall_and]
  rintro rfl
  have hspec := groupAction_spec policy repair localReport.artifacts remoteReport.artifacts
    baseline (groupId policy p)
  rw [get?_uploadOnlyReconciledBaseline, get?_applyPlan_fst, get?_applyPlan_snd]
  by_cases hp : p ∈ planPaths localReport.artifacts remoteReport.artifacts baseline
  · rcases hact with hact | hact
    · simp [hp, hact, uploadOnlyBaselineValue]
    · rw [hact] at hspec
      simp [hp, hact, uploadOnlyBaselineValue, hspec p rfl]
  · obtain ⟨hl, hr, hb⟩ := get?_eq_none_of_notMem_planPaths _ _ _ hp
    simp [hp, hl, hr, hb]

end UploadOnly

end RomCloud.SaveSync
