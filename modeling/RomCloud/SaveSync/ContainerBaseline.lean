import RomCloud.SaveSync.Container
import RomCloud.SaveSync.ReconcileOutcome

namespace RomCloud.SaveSync

open RomCloud.Lib

/-!
# Logical baselines of containers

A container whose two sides hold the same bytes has a **common content**.  The baseline stored for
it is to be absent, or what the adapter reads of this content; an older one would turn the next
edit of one domain into a conflict, or revert it.

* `Describes` — a baseline is what is read of a content;
* `describes_of_adapter` — the baseline of a merge that ends with the same bytes on both sides;
* `takesOverEdits_of_describes` — under such a baseline an edit of one side is taken over.
-/

/-! ### Reading a target back -/

theorem sortedByIdentity_perm (entries : List ContainerEntry) :
    (sortedByIdentity entries).Perm entries := List.perm_insertionSort _ _

theorem sortedByIdentity_pairwise (entries : List ContainerEntry) :
    (sortedByIdentity entries).Pairwise (fun a b => a.identity ≤ b.identity) :=
  List.pairwise_insertionSort _ _

/-- The domains of a snapshot: not empty, and ordered by identity. -/
def WellFormed (domains : LogicalDomains) : Prop :=
  ∀ domain entries, domains.get? domain = some entries →
    entries ≠ [] ∧ (entries.map Prod.fst).Pairwise (· < ·)

theorem get?_snapshotToDomains (s : ContainerSnapshot) (domain : String) :
    (snapshotToDomains s).get? domain
      = if domain ∈ s.entries.map ContainerEntry.mergeDomainId then
          some ((sortedByIdentity (s.entries.filter (fun entry =>
            entry.mergeDomainId = domain))).map ContainerEntry.logical)
        else none := Dict.get?_ofKeys ..

theorem snapshotToDomains_wellFormed {s : ContainerSnapshot}
    (h : (s.entries.map ContainerEntry.identity).Nodup) : WellFormed (snapshotToDomains s) := by
  intro domain entries hget
  rw [get?_snapshotToDomains] at hget
  split at hget
  · next hmem =>
    obtain rfl := Option.some.inj hget
    have hperm := sortedByIdentity_perm (s.entries.filter (fun entry =>
      entry.mergeDomainId = domain))
    constructor
    · obtain ⟨entry, hentry, hdomain⟩ := List.mem_map.mp hmem
      have hin := hperm.mem_iff.mpr (List.mem_filter.mpr ⟨hentry, decide_eq_true hdomain⟩)
      intro hnil
      rw [List.map_eq_nil_iff.mp hnil] at hin
      exact absurd hin (by simp)
    · have hnodup : ((sortedByIdentity (s.entries.filter (fun entry =>
          entry.mergeDomainId = domain))).map ContainerEntry.identity).Nodup :=
        (hperm.map _).nodup_iff.mpr (h.sublist (List.filter_sublist.map _))
      have hsorted := List.pairwise_map.mpr (sortedByIdentity_pairwise (s.entries.filter
        (fun entry => entry.mergeDomainId = domain)))
      rw [List.map_map]
      exact (hsorted.and hnodup).imp fun hpair => lt_of_le_of_ne hpair.1 hpair.2
  · exact absurd hget (by simp)

/-- The entry a domain and a logical entry stand for. -/
def entryOf (domain : String) (logical : LogicalEntryState) : ContainerEntry :=
  ⟨logical.1, domain, logical.2.1, logical.2.2⟩

theorem targetEntries_eq {observed : List ContainerEntry}
    {wanted : List (String × LogicalEntryState)} {entries : List ContainerEntry}
    (h : targetEntries observed wanted = .ok entries) :
    entries = wanted.map (fun entry => entryOf entry.1 entry.2) := by
  induction wanted generalizing entries with
  | nil =>
    cases h
    rfl
  | cons first rest ih =>
    obtain ⟨domain, logical⟩ := first
    rw [targetEntries] at h
    cases hfind : observed.find? (fun entry =>
        entry.mergeDomainId = domain && entry.logical = logical) with
    | none => simp [hfind] at h
    | some entry =>
      cases hrest : targetEntries observed rest with
      | error reason => simp [hfind, hrest] at h
      | ok others =>
        simp only [hfind, hrest, Except.ok.injEq] at h
        have hentry := List.find?_some hfind
        rw [Bool.and_eq_true, decide_eq_true_iff, decide_eq_true_iff] at hentry
        have hsame : entry = entryOf domain logical := by
          obtain ⟨rfl, rfl⟩ := hentry
          rfl
        rw [← h, ih hrest, List.map_cons, hsame]

/-- The entries of a domain, in a list that goes through a dictionary of domains. -/
theorem filter_entries (domains : LogicalDomains) (domain : String) :
    ((domains.entries.flatMap (fun item => item.2.map (fun entry => (item.1, entry)))).map
        (fun entry => entryOf entry.1 entry.2)).filter (fun entry => entry.mergeDomainId = domain)
      = ((domains.get? domain).getD []).map (entryOf domain) := by
  obtain ⟨items, hsorted⟩ := domains
  show (((items.flatMap _).map _).filter _) = (((items.find? _).map Prod.snd).getD []).map _
  induction items with
  | nil => rfl
  | cons item rest ih =>
    rw [List.map_cons, List.pairwise_cons] at hsorted
    have hhead : ((item.2.map (fun entry => (item.1, entry))).map (fun entry =>
        entryOf entry.1 entry.2)).filter (fun entry => entry.mergeDomainId = domain)
          = if item.1 = domain then item.2.map (entryOf domain) else [] := by
      rw [List.map_map]
      split
      · next hdomain =>
        subst hdomain
        refine List.filter_eq_self.mpr fun entry hentry => ?_
        obtain ⟨logical, -, rfl⟩ := List.mem_map.mp hentry
        exact decide_eq_true rfl
      · next hdomain =>
        refine List.filter_eq_nil_iff.mpr fun entry hentry => ?_
        obtain ⟨logical, -, rfl⟩ := List.mem_map.mp hentry
        exact fun h => hdomain (of_decide_eq_true h)
    rw [List.flatMap_cons, List.map_append, List.filter_append, hhead, ih hsorted.2]
    by_cases hdomain : item.1 = domain
    · -- no later item is for this domain
      have hnone : rest.find? (fun entry => entry.1 = domain) = none := by
        rw [List.find?_eq_none]
        intro other hother heq
        have hlt := hsorted.1 other.1 (List.mem_map_of_mem hother)
        rw [hdomain, of_decide_eq_true heq] at hlt
        exact lt_irrefl _ hlt
      simp [hdomain, hnone]
    · simp [hdomain]

/-- **A target reads back** as the domains it was made of. -/
theorem snapshotToDomains_targetSnapshot {desired : LogicalDomains}
    {localSnapshot remoteSnapshot target : ContainerSnapshot} (hwf : WellFormed desired)
    (h : targetSnapshot desired localSnapshot remoteSnapshot = .ok target) :
    snapshotToDomains target = desired := by
  unfold targetSnapshot at h
  split at h
  · exact absurd h (by simp)
  · next entries hentries =>
    obtain rfl := Except.ok.inj h
    have hfilter : ∀ domain,
        ((sortedByIdentity entries).filter (fun entry => entry.mergeDomainId = domain)).Perm
          (((desired.get? domain).getD []).map (entryOf domain)) := by
      intro domain
      rw [← filter_entries, ← targetEntries_eq hentries]
      exact (sortedByIdentity_perm entries).filter _
    refine Dict.ext_get? fun domain => ?_
    rw [get?_snapshotToDomains]
    show (if domain ∈ (sortedByIdentity entries).map ContainerEntry.mergeDomainId then _ else _) = _
    have hperm := hfilter domain
    cases hget : desired.get? domain with
    | none =>
      rw [hget, Option.getD_none, List.map_nil, List.perm_nil, List.filter_eq_nil_iff] at hperm
      rw [if_neg]
      intro hmem
      obtain ⟨entry, hentry, hdomain⟩ := List.mem_map.mp hmem
      exact hperm entry hentry (decide_eq_true hdomain)
    | some wanted =>
      obtain ⟨hne, hlt⟩ := hwf domain wanted hget
      rw [hget, Option.getD_some] at hperm
      rw [if_pos]
      · have hsort : sortedByIdentity ((sortedByIdentity entries).filter (fun entry =>
            entry.mergeDomainId = domain)) = wanted.map (entryOf domain) := by
          refine List.Perm.eq_of_pairwise ?_ (sortedByIdentity_pairwise _) ?_
            ((sortedByIdentity_perm _).trans hperm)
          · -- the identities of a domain are distinct
            intro a b ha hb hab hba
            obtain ⟨x, hx, rfl⟩ := List.mem_map.mp
              (((sortedByIdentity_perm _).trans hperm).mem_iff.mp ha)
            obtain ⟨y, hy, rfl⟩ := List.mem_map.mp hb
            rw [List.inj_on_of_nodup_map (hlt.imp fun h => h.ne) hx hy (le_antisymm hab hba)]
          · rw [List.pairwise_map]
            exact (List.pairwise_map.mp hlt).imp fun h => h.le
        rw [hsort, List.map_map]
        exact congrArg some (List.map_id _)
      · obtain ⟨first, hfirst⟩ := List.exists_mem_of_ne_nil wanted hne
        have hin := hperm.mem_iff.mpr (List.mem_map_of_mem hfirst)
        rw [List.mem_filter, decide_eq_true_iff] at hin
        exact List.mem_map.mpr ⟨_, hin⟩

/-! ### Plans that end with the same content -/

/-- A stored baseline, but for its tombstones, is the one of a snapshot. -/
def Describes (baseline : ContainerBaseline) (s : ContainerSnapshot) : Prop :=
  { baseline with tombstones := [] } = baselineFromSnapshot s

instance (baseline : ContainerBaseline) (s : ContainerSnapshot) :
    Decidable (Describes baseline s) := inferInstanceAs (Decidable (_ = _))

section Plan

variable {localSnapshot remoteSnapshot : ContainerSnapshot} {baseline : Option ContainerBaseline}
variable {plan : ContainerReconcilePlan}

theorem firstAction_eq_conflict {l r : Option (List LogicalEntryState)}
    (h : firstAction l r = .conflict) : l ≠ r := by
  unfold firstAction at h
  split at h
  · exact absurd h (by simp)
  · assumption

theorem domainAction_eq_conflict {b l r : Option (List LogicalEntryState)}
    (h : domainAction b l r = .conflict) : l ≠ r := by
  unfold domainAction at h
  split at h
  · exact absurd h (by simp)
  · assumption

/-- What a plan is made of: a decision for each domain, which is a conflict only where the sides
    differ. -/
theorem of_planContainerReconcile
    (h : planContainerReconcile localSnapshot remoteSnapshot baseline = .ok plan) :
    ∃ base tombstones keys action, plan = planDomains localSnapshot base
        (snapshotToDomains localSnapshot) (snapshotToDomains remoteSnapshot) tombstones keys action
      ∧ ∀ domain, action domain = .conflict →
        (snapshotToDomains localSnapshot).get? domain
          ≠ (snapshotToDomains remoteSnapshot).get? domain := by
  unfold planContainerReconcile at h
  split at h
  · exact absurd h (by simp)
  · cases baseline with
    | none => exact ⟨_, _, _, _, (Except.ok.inj h).symm, fun _ => firstAction_eq_conflict⟩
    | some baseline => exact ⟨_, _, _, _, (Except.ok.inj h).symm, fun _ => domainAction_eq_conflict⟩

/-- A desired domain is one of the local or of the remote side. -/
theorem desired_wellFormed
    (hl : (localSnapshot.entries.map ContainerEntry.identity).Nodup)
    (hr : (remoteSnapshot.entries.map ContainerEntry.identity).Nodup)
    (h : planContainerReconcile localSnapshot remoteSnapshot baseline = .ok plan) :
    WellFormed plan.desiredLocal ∧ WellFormed plan.desiredRemote := by
  obtain ⟨base, tombstones, keys, action, rfl, -⟩ := of_planContainerReconcile h
  constructor
  · intro domain entries hget
    rw [planDomains, Dict.get?_ofKeys] at hget
    split at hget
    · split at hget
      · exact snapshotToDomains_wellFormed hr domain entries hget
      · exact snapshotToDomains_wellFormed hl domain entries hget
    · exact absurd hget (by simp)
  · intro domain entries hget
    rw [planDomains, Dict.get?_ofKeys] at hget
    split at hget
    · split at hget
      · exact snapshotToDomains_wellFormed hl domain entries hget
      · exact snapshotToDomains_wellFormed hr domain entries hget
    · exact absurd hget (by simp)

/-- **Where both sides are to hold the same domains**, the next baseline has these. -/
theorem nextBaseline_domains
    (h : planContainerReconcile localSnapshot remoteSnapshot baseline = .ok plan)
    (hsame : plan.desiredLocal = plan.desiredRemote) :
    plan.nextBaseline.domains = plan.desiredLocal.entries := by
  obtain ⟨base, tombstones, keys, action, rfl, hconflict⟩ := of_planContainerReconcile h
  refine congrArg Dict.entries (Dict.ext_get? fun domain => ?_)
  rw [planDomains, Dict.get?_ofKeys, Dict.get?_ofKeys]
  split
  · next hkey =>
    rw [if_neg]
    intro haction
    have hget := congrArg (fun d : LogicalDomains => d.get? domain) hsame
    rw [planDomains] at hget
    dsimp only at hget
    rw [Dict.get?_ofKeys, Dict.get?_ofKeys, if_pos hkey, if_pos hkey, haction, if_neg (by simp),
      if_neg (by simp)] at hget
    exact hconflict domain haction hget
  · rfl

end Plan

theorem converged_of_firstAction {l r : Option (List LogicalEntryState)}
    (h : firstAction l r = .converged) : l = r := by
  unfold firstAction at h
  by_contra hne
  rw [if_neg hne] at h
  split at h
  · cases h
  · split at h
    · cases h
    · cases h

theorem converged_of_domainAction {b l r : Option (List LogicalEntryState)}
    (h : domainAction b l r = .converged) : l = r := by
  unfold domainAction at h
  by_contra hne
  rw [if_neg hne] at h
  split at h
  · cases h
  · split at h
    · cases h
    · cases h

/-- Where no domain is in conflict, both sides are to hold the same domains. -/
theorem desired_eq_of_no_conflict {localSnapshot remoteSnapshot : ContainerSnapshot}
    {baseline : Option ContainerBaseline} {plan : ContainerReconcilePlan}
    (h : planContainerReconcile localSnapshot remoteSnapshot baseline = .ok plan)
    (hnone : ∀ decision ∈ plan.decisions, decision.2 ≠ .conflict) :
    plan.desiredLocal = plan.desiredRemote := by
  have hplanned (base : LogicalDomains) (tombstones keys : List String)
      (action : String → DomainAction)
      (hconverged : ∀ domain, action domain = .converged →
        (snapshotToDomains localSnapshot).get? domain
          = (snapshotToDomains remoteSnapshot).get? domain)
      (hplan : plan = planDomains localSnapshot base (snapshotToDomains localSnapshot)
        (snapshotToDomains remoteSnapshot) tombstones keys action) :
      plan.desiredLocal = plan.desiredRemote := by
    subst hplan
    refine Dict.ext_get? fun domain => ?_
    unfold planDomains
    rw [Dict.get?_ofKeys, Dict.get?_ofKeys]
    by_cases hkey : domain ∈ keys
    · rw [if_pos hkey, if_pos hkey]
      have haction := hnone (domain, action domain)
        (List.mem_map.mpr ⟨domain, (mem_sortedSet _ _).mpr hkey, rfl⟩)
      cases hdomain : action domain with
      | converged => simpa [hdomain] using hconverged domain hdomain
      | useLocal => simp
      | useRemote => simp
      | conflict => exact absurd hdomain haction
    · rw [if_neg hkey, if_neg hkey]
  unfold planContainerReconcile at h
  split at h
  · exact absurd h (by simp)
  · cases baseline with
    | none => exact hplanned _ _ _ _ (fun _ => converged_of_firstAction) (Except.ok.inj h).symm
    | some baseline =>
      exact hplanned _ _ _ _ (fun _ => converged_of_domainAction) (Except.ok.inj h).symm

theorem decided_eq_nil_iff (plan : ContainerReconcilePlan) (action : DomainAction) :
    ContainerFormat.decided plan action = [] ↔ ∀ decision ∈ plan.decisions, decision.2 ≠ action := by
  unfold ContainerFormat.decided
  rw [List.map_eq_nil_iff, List.filter_eq_nil_iff]
  simp

/-! ### The baseline of a merge -/

namespace ContainerFormat

variable {format : ContainerFormat} {descriptor : SaveGroupDescriptor}
variable {localPart remotePart : Manifest} {baseline : Option ContainerBaseline}

/-- A staged side reads as its target. -/
theorem read_of_stageContainerTarget {destination : Manifest} {current target : ContainerSnapshot}
    {files : Option Manifest} (hcurrent : format.snapshot descriptor destination = .ok current)
    (h : format.stageContainerTarget descriptor localPart remotePart destination current target
      = .ok files) :
    format.readEntries descriptor (files.getD destination) = .ok target.entries := by
  unfold stageContainerTarget at h
  split at h
  · next hsame =>
    obtain rfl := Except.ok.inj h
    obtain ⟨entries, hread, rfl⟩ := map_eq_ok hcurrent
    rw [Option.getD_none, hread]
    exact congrArg Except.ok hsame
  · obtain ⟨built, hbuild, rfl⟩ := map_eq_ok h
    exact format.rebuild_reads _ _ _ _ _ _ hbuild

/-- Where both sides are to hold the same domains, they end with the same content, and the next
    baseline is that of it. -/
theorem content_of_staged {plan : ContainerReconcilePlan} {localFiles remoteFiles : Option Manifest}
    (h : format.staged descriptor localPart remotePart baseline = .ok (plan, localFiles, remoteFiles))
    (hdesired : plan.desiredLocal = plan.desiredRemote) :
    ∃ s, format.snapshot descriptor (localFiles.getD localPart) = .ok s
      ∧ format.snapshot descriptor (remoteFiles.getD remotePart) = .ok s
      ∧ Describes plan.nextBaseline s := by
  obtain ⟨localSnapshot, remoteSnapshot, localTarget, remoteTarget, hl, hr, hplan, hlt, hrt,
    hlf, hrf⟩ := of_staged h
  have hreadl := read_of_stageContainerTarget hl hlf
  have hreadr := read_of_stageContainerTarget hr hrf
  obtain ⟨localEntries, hlentries, hlocal⟩ := map_eq_ok hl
  obtain ⟨remoteEntries, hrentries, hremote⟩ := map_eq_ok hr
  have hwf := desired_wellFormed (hlocal ▸ format.distinct _ _ _ hlentries)
    (hremote ▸ format.distinct _ _ _ hrentries) hplan
  rw [← hdesired, hlt, Except.ok.injEq] at hrt
  subst hrt
  refine ⟨_, congrArg (Except.map _) hreadl, congrArg (Except.map _) hreadr, ?_⟩
  obtain ⟨hid, hadapter, hschema, hvariant⟩ := nextBaseline_identity hplan
  subst hlocal
  have hdomains : plan.nextBaseline.domains = (snapshotToDomains localTarget).entries := by
    rw [nextBaseline_domains hplan hdesired, snapshotToDomains_targetSnapshot hwf.1 hlt]
  unfold Describes baselineFromSnapshot
  rw [hid, hadapter, hschema, hvariant, hdomains]
  rfl

/-- **The baseline of a merge.** Where a merge leaves the same files on both sides, its baseline is
    that of their content. -/
theorem describes_of_adapter {verdict : ContainerVerdict descriptor}
    (h : format.adapter descriptor localPart remotePart baseline = .ok verdict)
    (hsame : verdict.localFiles.getD localPart = verdict.remoteFiles.getD remotePart) :
    ∃ s, format.snapshot descriptor (verdict.localFiles.getD localPart) = .ok s
      ∧ Describes verdict.nextBaseline s := by
  unfold adapter at h
  split at h
  · exact absurd h (by simp)
  · next plan localFiles remoteFiles hstaged =>
    obtain rfl := Except.ok.inj h
    dsimp only at hsame ⊢
    obtain ⟨localSnapshot, remoteSnapshot, localTarget, remoteTarget, hl, hr, hplan, hlt, hrt,
      hlf, hrf⟩ := of_staged hstaged
    have hreadl := read_of_stageContainerTarget hl hlf
    have hreadr := read_of_stageContainerTarget hr hrf
    rw [← hsame, hreadl, Except.ok.injEq] at hreadr
    obtain ⟨localEntries, hlentries, hlocal⟩ := map_eq_ok hl
    obtain ⟨remoteEntries, hrentries, hremote⟩ := map_eq_ok hr
    have hwf := desired_wellFormed (hlocal ▸ format.distinct _ _ _ hlentries)
      (hremote ▸ format.distinct _ _ _ hrentries) hplan
    have hdesired : plan.desiredLocal = plan.desiredRemote := by
      rw [← snapshotToDomains_targetSnapshot hwf.1 hlt, ← snapshotToDomains_targetSnapshot hwf.2 hrt]
      unfold snapshotToDomains
      rw [hreadr]
    obtain ⟨s, hs, -, hdescribes⟩ := content_of_staged hstaged hdesired
    exact ⟨s, hs, hdescribes⟩

/-- **A merge without conflict.** Both sides end with the same content, whatever their files are,
    and the baseline is that of it. -/
theorem content_of_merged {verdict : ContainerVerdict descriptor}
    (h : format.adapter descriptor localPart remotePart baseline = .ok verdict)
    (hclean : verdict.conflictPaths = []) :
    ∃ s, format.snapshot descriptor (verdict.localFiles.getD localPart) = .ok s
      ∧ format.snapshot descriptor (verdict.remoteFiles.getD remotePart) = .ok s
      ∧ Describes verdict.nextBaseline s := by
  unfold adapter at h
  split at h
  · exact absurd h (by simp)
  · next plan localFiles remoteFiles hstaged =>
    obtain rfl := Except.ok.inj h
    dsimp only at hclean ⊢
    obtain ⟨_, _, _, _, -, -, hplan, -⟩ := of_staged hstaged
    exact content_of_staged hstaged
      (desired_eq_of_no_conflict hplan ((decided_eq_nil_iff plan _).mp (List.map_eq_nil_iff.mp hclean)))

/-- A staged side has only files that one of the sides has. -/
theorem known_of_stageContainerTarget {destination files : Manifest}
    {current target : ContainerSnapshot} {p : Path} {a : SaveArtifact}
    (h : format.stageContainerTarget descriptor localPart remotePart destination current target
      = .ok (some files)) (hp : files.get? p = some a) :
    localPart.get? p ≠ none ∨ remotePart.get? p ≠ none := by
  unfold stageContainerTarget at h
  split at h
  · exact absurd h (by simp)
  · obtain ⟨built, hbuild, hfiles⟩ := map_eq_ok h
    obtain rfl := Option.some.inj hfiles
    exact format.rebuild_known _ _ _ _ _ _ _ _ hbuild hp

/-- A merge brings no file that neither side has. -/
theorem known_of_adapter {verdict : ContainerVerdict descriptor}
    (h : format.adapter descriptor localPart remotePart baseline = .ok verdict) {p : Path}
    (hl : localPart.get? p = none) (hr : remotePart.get? p = none) :
    (verdict.localFiles.getD localPart).get? p = none
      ∧ (verdict.remoteFiles.getD remotePart).get? p = none := by
  unfold adapter at h
  split at h
  · exact absurd h (by simp)
  · next plan localFiles remoteFiles hstaged =>
    obtain rfl := Except.ok.inj h
    obtain ⟨_, _, _, _, -, -, -, -, -, hlf, hrf⟩ := of_staged hstaged
    have hnone : ∀ (files destination : Manifest) (current target : ContainerSnapshot),
        format.stageContainerTarget descriptor localPart remotePart destination current target
          = .ok (some files) → files.get? p = none := by
      intro files destination current target hstage
      by_contra hne
      obtain ⟨a, ha⟩ := Option.ne_none_iff_exists'.mp hne
      rcases known_of_stageContainerTarget hstage ha with hfile | hfile
      · exact hfile hl
      · exact hfile hr
    constructor
    · cases localFiles with
      | none => exact hl
      | some files => exact hnone files _ _ _ hlf
    · cases remoteFiles with
      | none => exact hr
      | some files => exact hnone files _ _ _ hrf

end ContainerFormat

/-! ### Edits under a baseline of the content -/

section Edit

variable {localSnapshot remoteSnapshot content : ContainerSnapshot}
variable {baseline : ContainerBaseline} {plan : ContainerReconcilePlan}

theorem domainMap_of_describes (h : Describes baseline content) :
    domainMap baseline.domains = snapshotToDomains content := by
  have hdomains : baseline.domains = (snapshotToDomains content).entries :=
    congrArg ContainerBaseline.domains h
  rw [domainMap, hdomains]
  refine Dict.ext_get? fun domain => ?_
  generalize snapshotToDomains content = domains
  exact Dict.get?_insertAll_entries domains domain

/-- The decisions of a plan under a baseline of `content`. -/
theorem mem_decisions_iff (hdescribes : Describes baseline content)
    (h : planContainerReconcile localSnapshot remoteSnapshot (some baseline) = .ok plan)
    (domain : String) (action : DomainAction) :
    (domain, action) ∈ plan.decisions
      ↔ domain ∈ (snapshotToDomains content).keys ++ baseline.tombstones
          ++ (snapshotToDomains localSnapshot).keys ++ (snapshotToDomains remoteSnapshot).keys
        ∧ action = domainAction ((snapshotToDomains content).get? domain)
          ((snapshotToDomains localSnapshot).get? domain)
          ((snapshotToDomains remoteSnapshot).get? domain) := by
  unfold planContainerReconcile at h
  split at h
  · exact absurd h (by simp)
  · obtain rfl := Except.ok.inj h
    rw [domainMap_of_describes hdescribes]
    constructor
    · intro hmem
      obtain ⟨key, hkey, hdecision⟩ := List.mem_map.mp hmem
      cases hdecision
      exact ⟨(mem_sortedSet _ _).mp hkey, rfl⟩
    · intro hmem
      obtain ⟨hkey, rfl⟩ := hmem
      exact List.mem_map.mpr ⟨domain, (mem_sortedSet _ _).mpr hkey, rfl⟩

/-- A plan decides what `edited` changes of `content` by `action`, and every other domain as
    converged. -/
def Follows (plan : ContainerReconcilePlan) (action : DomainAction)
    (edited content : LogicalDomains) : Prop :=
  (∀ domain, edited.get? domain ≠ content.get? domain → (domain, action) ∈ plan.decisions)
    ∧ ∀ decision ∈ plan.decisions, decision.2
      = if edited.get? decision.1 = content.get? decision.1 then .converged else action

/-- Whatever one side makes of `content` while the other keeps it, the plan under a baseline takes
    it over. -/
def TakesOverEdits (baseline : ContainerBaseline) (content : ContainerSnapshot) : Prop :=
  ∀ entries, let edited := { content with entries := entries }
    (∃ plan, planContainerReconcile edited content (some baseline) = .ok plan
        ∧ Follows plan .useLocal (snapshotToDomains edited) (snapshotToDomains content))
      ∧ ∃ plan, planContainerReconcile content edited (some baseline) = .ok plan
        ∧ Follows plan .useRemote (snapshotToDomains edited) (snapshotToDomains content)

theorem mem_keys_of_ne {a b : LogicalDomains} {domain : String}
    (h : a.get? domain ≠ b.get? domain) : domain ∈ a.keys ∨ domain ∈ b.keys := by
  by_contra hnone
  push Not at hnone
  exact h (((a.get?_eq_none_iff domain).mpr hnone.1).trans
    ((b.get?_eq_none_iff domain).mpr hnone.2).symm)

theorem plan_of_describes (hdescribes : Describes baseline content)
    (hl : ∃ entries, localSnapshot = { content with entries := entries })
    (hr : ∃ entries, remoteSnapshot = { content with entries := entries }) :
    ∃ plan, planContainerReconcile localSnapshot remoteSnapshot (some baseline) = .ok plan := by
  obtain ⟨_, rfl⟩ := hl
  obtain ⟨_, rfl⟩ := hr
  have hid : baseline.containerId = content.containerId :=
    congrArg ContainerBaseline.containerId hdescribes
  have hadapter : baseline.adapterId = content.adapterId :=
    congrArg ContainerBaseline.adapterId hdescribes
  have hschema : baseline.schemaVersion = content.schemaVersion :=
    congrArg ContainerBaseline.schemaVersion hdescribes
  have hvariant : baseline.formatVariant = content.formatVariant :=
    congrArg ContainerBaseline.formatVariant hdescribes
  unfold planContainerReconcile
  rw [if_neg]
  · exact ⟨_, rfl⟩
  · simp [compatible, hid, hadapter, hschema, hvariant]

/-- **An edit of one side is taken over** under a baseline of what both sides held. -/
theorem takesOverEdits_of_describes (hdescribes : Describes baseline content) :
    TakesOverEdits baseline content := by
  intro entries edited
  constructor
  · obtain ⟨plan, hplan⟩ := plan_of_describes hdescribes ⟨entries, rfl⟩ ⟨content.entries, rfl⟩
    refine ⟨plan, hplan, fun domain hedit => ?_, fun decision hmem => ?_⟩
    · refine (mem_decisions_iff hdescribes hplan _ _).mpr ⟨?_, ?_⟩
      · rw [List.mem_append, List.mem_append, List.mem_append]
        have hkey := mem_keys_of_ne hedit
        tauto
      · rw [domainAction, if_neg hedit, if_neg hedit, if_pos rfl]
    · obtain ⟨-, haction⟩ := (mem_decisions_iff hdescribes hplan _ _).mp hmem
      rw [haction, domainAction]
      split
      · rfl
      · exact if_pos rfl
  · obtain ⟨plan, hplan⟩ := plan_of_describes hdescribes ⟨content.entries, rfl⟩ ⟨entries, rfl⟩
    refine ⟨plan, hplan, fun domain hedit => ?_, fun decision hmem => ?_⟩
    · refine (mem_decisions_iff hdescribes hplan _ _).mpr ⟨?_, ?_⟩
      · rw [List.mem_append, List.mem_append, List.mem_append]
        have hkey := mem_keys_of_ne hedit
        tauto
      · rw [domainAction, if_neg (Ne.symm hedit), if_pos rfl]
    · obtain ⟨-, haction⟩ := (mem_decisions_iff hdescribes hplan _ _).mp hmem
      rw [haction, domainAction, if_pos rfl]
      exact if_congr eq_comm rfl rfl

theorem action_of_follows {action : DomainAction} {edited : LogicalDomains} {domains : LogicalDomains}
    (h : Follows plan action edited domains) {other : DomainAction} (hconverged : other ≠ .converged)
    (hother : other ≠ action) : ContainerFormat.decided plan other = [] := by
  rw [decided_eq_nil_iff]
  intro decision hmem
  rw [h.2 decision hmem]
  split
  · exact hconverged.symm
  · exact hother.symm

end Edit

/-! ### Merging again -/

namespace ContainerFormat

variable {format : ContainerFormat} {descriptor : SaveGroupDescriptor}
variable {localPart remotePart : Manifest} {verdict : ContainerVerdict descriptor}

/-- What a verdict counts and names comes from a plan for what the format reads. -/
theorem plan_of_adapter {baseline : Option ContainerBaseline}
    (h : format.adapter descriptor localPart remotePart baseline = .ok verdict) :
    ∃ localSnapshot remoteSnapshot plan, format.snapshot descriptor localPart = .ok localSnapshot
      ∧ format.snapshot descriptor remotePart = .ok remoteSnapshot
      ∧ planContainerReconcile localSnapshot remoteSnapshot baseline = .ok plan
      ∧ (decided plan .conflict = [] → verdict.conflictPaths = [])
      ∧ (decided plan .useLocal = [] → verdict.uploaded = 0)
      ∧ (decided plan .useRemote = [] → verdict.downloaded = 0) := by
  unfold adapter at h
  split at h
  · exact absurd h (by simp)
  · next plan localFiles remoteFiles hstaged =>
    obtain rfl := Except.ok.inj h
    obtain ⟨localSnapshot, remoteSnapshot, _, _, hl, hr, hplan, -⟩ := of_staged hstaged
    exact ⟨localSnapshot, remoteSnapshot, plan, hl, hr, hplan, by simp +contextual,
      by simp +contextual, by simp +contextual⟩

/-- **One side edited.** Under a baseline of what the other side reads as, no domain is in conflict
    and none is taken from the other side. -/
theorem verdict_of_edit {baseline : ContainerBaseline} {s : ContainerSnapshot}
    (h : format.adapter descriptor localPart remotePart (some baseline) = .ok verdict)
    (hdescribes : Describes baseline s) :
    (format.snapshot descriptor remotePart = .ok s →
        verdict.conflictPaths = [] ∧ verdict.downloaded = 0)
      ∧ (format.snapshot descriptor localPart = .ok s →
        verdict.conflictPaths = [] ∧ verdict.uploaded = 0) := by
  obtain ⟨localSnapshot, remoteSnapshot, plan, hl, hr, hplan, hconflict, huploaded, hdownloaded⟩ :=
    plan_of_adapter h
  obtain ⟨localEntries, -, rfl⟩ := map_eq_ok hl
  obtain ⟨remoteEntries, -, rfl⟩ := map_eq_ok hr
  constructor
  · intro hs
    obtain rfl := Except.ok.inj (hr.symm.trans hs)
    obtain ⟨⟨found, hfound, hfollows⟩, -⟩ := takesOverEdits_of_describes hdescribes localEntries
    obtain rfl := Except.ok.inj (hplan.symm.trans hfound)
    exact ⟨hconflict (action_of_follows hfollows (by simp) (by simp)),
      hdownloaded (action_of_follows hfollows (by simp) (by simp))⟩
  · intro hs
    obtain rfl := Except.ok.inj (hl.symm.trans hs)
    obtain ⟨-, found, hfound, hfollows⟩ := takesOverEdits_of_describes hdescribes remoteEntries
    obtain rfl := Except.ok.inj (hplan.symm.trans hfound)
    exact ⟨hconflict (action_of_follows hfollows (by simp) (by simp)),
      huploaded (action_of_follows hfollows (by simp) (by simp))⟩

/-- Where both sides have the same files, no domain is in conflict. -/
theorem conflictPaths_of_same {baseline : Option ContainerBaseline}
    (h : format.adapter descriptor localPart localPart baseline = .ok verdict) :
    verdict.conflictPaths = [] := by
  obtain ⟨localSnapshot, remoteSnapshot, plan, hl, hr, hplan, hconflict, -⟩ := plan_of_adapter h
  obtain rfl := Except.ok.inj (hl.symm.trans hr)
  obtain ⟨base, tombstones, keys, action, rfl, hdiffer⟩ := of_planContainerReconcile hplan
  apply hconflict
  rw [decided_eq_nil_iff]
  intro decision hmem haction
  obtain ⟨domain, -, rfl⟩ := List.mem_map.mp hmem
  exact hdiffer domain haction rfl

end ContainerFormat

end RomCloud.SaveSync
