import RomCloud.SaveSync.ContainerBaseline

namespace RomCloud.SaveSync

open RomCloud.Lib

/-!
# Merging containers domain by domain

What `plan_container_reconcile` decides for a domain depends on three values only: what the
ancestor, the local and the remote side hold there.

* `Diverged`, `mergedLocal`, `mergedRemote`, `mergedBase` — the merge of one domain;
* `planContainerReconcile_spec` — the plan is this merge at every domain, with and without a
  baseline, and `Merged` says so of a plan;
* `merge_correct` — the plan is a three-way merge, its baseline is valid, and planning again finds
  nothing but the same conflicts;
* `targets_realizable` — both targets can be rebuilt from observed entries.
-/

/-! ### One domain -/

section Domain

variable (base localDomain remoteDomain : Option (List LogicalEntryState))

/-- What the local side is to hold. -/
def mergedLocal : Option (List LogicalEntryState) :=
  if domainAction base localDomain remoteDomain = .useRemote then remoteDomain else localDomain

/-- What the remote side is to hold. -/
def mergedRemote : Option (List LogicalEntryState) :=
  if domainAction base localDomain remoteDomain = .useLocal then localDomain else remoteDomain

/-- What the next ancestor holds. -/
def mergedBase : Option (List LogicalEntryState) :=
  if domainAction base localDomain remoteDomain = .conflict then base
  else mergedLocal base localDomain remoteDomain

variable {base localDomain remoteDomain}

/-- Without a baseline every domain counts as absent from the ancestor. -/
theorem firstAction_eq :
    firstAction localDomain remoteDomain = domainAction none localDomain remoteDomain := by
  unfold firstAction domainAction
  by_cases hsame : localDomain = remoteDomain
  · rw [if_pos hsame, if_pos hsame]
  · rw [if_neg hsame, if_neg hsame]
    by_cases hr : remoteDomain = none
    · have hl : localDomain ≠ none := fun h => hsame (h.trans hr.symm)
      rw [if_pos hr, if_neg hl, if_pos hr]
    · rw [if_neg hr, if_neg hr]

theorem domainAction_eq_conflict_iff :
    domainAction base localDomain remoteDomain = .conflict
      ↔ localDomain ≠ remoteDomain ∧ localDomain ≠ base ∧ remoteDomain ≠ base := by
  unfold domainAction
  by_cases hsame : localDomain = remoteDomain
  · simp [hsame]
  · by_cases hl : localDomain = base
    · subst hl
      simp [hsame]
    · by_cases hr : remoteDomain = base
      · subst hr
        simp [hsame]
      · simp [hsame, hl, hr]

theorem eq_base_of_useRemote (h : domainAction base localDomain remoteDomain = .useRemote) :
    localDomain = base := by
  by_contra hne
  unfold domainAction at h
  rw [if_neg hne] at h
  split_ifs at h

theorem eq_base_of_useLocal (h : domainAction base localDomain remoteDomain = .useLocal) :
    remoteDomain = base := by
  by_contra hne
  unfold domainAction at h
  rw [if_neg hne] at h
  split_ifs at h

/-- Where there is no conflict, both sides are to hold the same. -/
theorem merged_of_ne_conflict (h : domainAction base localDomain remoteDomain ≠ .conflict) :
    mergedRemote base localDomain remoteDomain = mergedLocal base localDomain remoteDomain
      ∧ mergedBase base localDomain remoteDomain = mergedLocal base localDomain remoteDomain := by
  refine ⟨?_, if_neg h⟩
  unfold mergedRemote mergedLocal
  unfold domainAction at h ⊢
  by_cases hsame : localDomain = remoteDomain
  · simp [hsame]
  · by_cases hl : localDomain = base
    · subst hl
      simp [hsame]
    · by_cases hr : remoteDomain = base
      · subst hr
        simp [hsame]
      · simp [hsame, hl, hr] at h

theorem merged_of_conflict (h : domainAction base localDomain remoteDomain = .conflict) :
    mergedLocal base localDomain remoteDomain = localDomain
      ∧ mergedRemote base localDomain remoteDomain = remoteDomain
      ∧ mergedBase base localDomain remoteDomain = base := by
  unfold mergedBase mergedLocal mergedRemote
  simp [h]

/-- On first contact nothing is deleted. -/
theorem mergedLocal_ne_none (h : localDomain ≠ none ∨ remoteDomain ≠ none) :
    mergedLocal none localDomain remoteDomain ≠ none := by
  unfold mergedLocal domainAction
  by_cases hsame : localDomain = remoteDomain
  · subst hsame
    simpa using h
  · by_cases hl : localDomain = none
    · subst hl
      simpa [hsame] using h
    · by_cases hr : remoteDomain = none
      · simp [hr, hl]
      · simp [hsame, hl, hr]

/-- **Merging again** what a merge left: the conflicts stay, and nothing else is to be done. -/
theorem domainAction_again :
    domainAction (mergedBase base localDomain remoteDomain)
        (mergedLocal base localDomain remoteDomain) (mergedRemote base localDomain remoteDomain)
      = if domainAction base localDomain remoteDomain = .conflict then .conflict
        else .converged := by
  split
  · next h =>
    obtain ⟨hl, hr, hb⟩ := merged_of_conflict h
    rw [hl, hr, hb, h]
  · next h =>
    obtain ⟨hr, -⟩ := merged_of_ne_conflict h
    rw [hr, domainAction, if_pos rfl]

end Domain

/-! ### The plan -/

/-- The domains of the ancestor. -/
def ancestor (baseline : Option ContainerBaseline) : LogicalDomains :=
  match baseline with
  | none => ∅
  | some baseline => domainMap baseline.domains

/-- The domains known to be absent on both sides. -/
def knownTombstones (baseline : Option ContainerBaseline) : List String :=
  match baseline with
  | none => []
  | some baseline => baseline.tombstones

/-- The action for a domain. -/
def actionAt (base localDomains remoteDomains : LogicalDomains) (domain : String) : DomainAction :=
  domainAction (base.get? domain) (localDomains.get? domain) (remoteDomains.get? domain)

/-- A plan that merges every domain, and decides those which some side, the ancestor or a tombstone
    knows. -/
structure Merged (base localDomains remoteDomains : LogicalDomains) (tombstones : List String)
    (plan : ContainerReconcilePlan) : Prop where
  localDomain : ∀ domain, plan.desiredLocal.get? domain
    = mergedLocal (base.get? domain) (localDomains.get? domain) (remoteDomains.get? domain)
  remoteDomain : ∀ domain, plan.desiredRemote.get? domain
    = mergedRemote (base.get? domain) (localDomains.get? domain) (remoteDomains.get? domain)
  baseDomain : ∀ domain, (domainMap plan.nextBaseline.domains).get? domain
    = mergedBase (base.get? domain) (localDomains.get? domain) (remoteDomains.get? domain)
  decided : ∃ keys : List String, keys.Pairwise (· < ·)
    ∧ plan.decisions = keys.map (fun domain =>
      (domain, actionAt base localDomains remoteDomains domain))
    ∧ ∀ domain, domain ∈ keys ↔ base.get? domain ≠ none ∨ domain ∈ tombstones
      ∨ localDomains.get? domain ≠ none ∨ remoteDomains.get? domain ≠ none
  sorted : (plan.nextBaseline.domains.map Prod.fst).Pairwise (· < ·)
  tombstones_sorted : plan.nextBaseline.tombstones.Pairwise (· < ·)
  tombstoned : ∀ domain, domain ∈ plan.nextBaseline.tombstones
    ↔ (base.get? domain ≠ none ∨ domain ∈ tombstones ∨ localDomains.get? domain ≠ none
        ∨ remoteDomains.get? domain ≠ none)
      ∧ if actionAt base localDomains remoteDomains domain = .conflict then domain ∈ tombstones
        else mergedLocal (base.get? domain) (localDomains.get? domain)
          (remoteDomains.get? domain) = none

theorem domainMap_entries (domains : LogicalDomains) : domainMap domains.entries = domains :=
  Dict.ext_get? fun domain => Dict.get?_insertAll_entries domains domain

section Plan

variable {localSnapshot remoteSnapshot : ContainerSnapshot} {baseline : Option ContainerBaseline}
variable {plan : ContainerReconcilePlan}

/-- Planning the domains of a list that has all of them. -/
theorem merged_planDomains {base localDomains remoteDomains : LogicalDomains}
    {tombstones next keys : List String}
    (hkeys : ∀ domain, domain ∈ keys ↔ base.get? domain ≠ none ∨ domain ∈ tombstones
      ∨ localDomains.get? domain ≠ none ∨ remoteDomains.get? domain ≠ none)
    (hsorted : next.Pairwise (· < ·))
    (hnext : ∀ domain, domain ∈ next ↔ domain ∈ keys
      ∧ if actionAt base localDomains remoteDomains domain = .conflict then domain ∈ tombstones
        else mergedLocal (base.get? domain) (localDomains.get? domain)
          (remoteDomains.get? domain) = none) :
    Merged base localDomains remoteDomains tombstones
      (planDomains localSnapshot base localDomains remoteDomains next keys
        (actionAt base localDomains remoteDomains)) := by
  -- a domain outside the list is absent everywhere
  have houtside : ∀ domain, domain ∉ keys → base.get? domain = none
      ∧ localDomains.get? domain = none ∧ remoteDomains.get? domain = none := by
    intro domain hdomain
    rw [hkeys] at hdomain
    push Not at hdomain
    exact ⟨hdomain.1, hdomain.2.2⟩
  constructor
  · intro domain
    show (Dict.ofKeys keys _).get? domain = _
    rw [Dict.get?_ofKeys]
    split
    · rfl
    · next hdomain =>
      obtain ⟨hb, hl, hr⟩ := houtside domain hdomain
      simp [mergedLocal, hl, hr]
  · intro domain
    show (Dict.ofKeys keys _).get? domain = _
    rw [Dict.get?_ofKeys]
    split
    · rfl
    · next hdomain =>
      obtain ⟨hb, hl, hr⟩ := houtside domain hdomain
      simp [mergedRemote, hl, hr]
  · intro domain
    show (domainMap (Dict.entries _)).get? domain = _
    rw [domainMap_entries, Dict.get?_ofKeys]
    split
    · rfl
    · next hdomain =>
      obtain ⟨hb, hl, hr⟩ := houtside domain hdomain
      simp [mergedBase, mergedLocal, hb, hl, hr]
  · exact ⟨sortedSet keys, sortedSet_pairwise keys, rfl, fun domain =>
      (mem_sortedSet keys domain).trans (hkeys domain)⟩
  · exact Dict.keys_pairwise _
  · exact hsorted
  · intro domain
    rw [← hkeys]
    exact hnext domain

/-- **What a plan is.** With and without a baseline, the plan of compatible snapshots merges every
    domain. -/
theorem planContainerReconcile_spec
    (h : planContainerReconcile localSnapshot remoteSnapshot baseline = .ok plan) :
    Merged (ancestor baseline) (snapshotToDomains localSnapshot) (snapshotToDomains remoteSnapshot)
      (knownTombstones baseline) plan := by
  unfold planContainerReconcile at h
  split at h
  · exact absurd h (by simp)
  · have hne : ∀ (domains : LogicalDomains) domain,
        domain ∈ domains.keys ↔ domains.get? domain ≠ none := by
      intro domains domain
      rw [ne_eq, Dict.get?_eq_none_iff, not_not]
    cases baseline with
    | none =>
      obtain rfl := Except.ok.inj h
      have haction : (fun domain => firstAction ((snapshotToDomains localSnapshot).get? domain)
          ((snapshotToDomains remoteSnapshot).get? domain))
          = actionAt ∅ (snapshotToDomains localSnapshot) (snapshotToDomains remoteSnapshot) :=
        funext fun domain => firstAction_eq
      rw [haction]
      refine merged_planDomains ?_ List.Pairwise.nil ?_
      · intro domain
        rw [List.mem_append, hne, hne]
        simp [knownTombstones, ancestor]
      · -- a domain some side has is merged to a value
        intro domain
        refine iff_of_false (by simp) ?_
        intro hboth
        obtain ⟨hdomain, hmerged⟩ := hboth
        rw [List.mem_append, hne, hne] at hdomain
        split at hmerged
        · exact absurd hmerged (by simp [knownTombstones])
        · exact mergedLocal_ne_none hdomain hmerged
    | some baseline =>
      obtain rfl := Except.ok.inj h
      refine merged_planDomains ?_ ((sortedSet_pairwise _).filter _) ?_
      · intro domain
        simp [knownTombstones, ancestor, hne]
      · intro domain
        rw [List.mem_filter, mem_sortedSet]
        refine and_congr_right fun _ => ?_
        unfold actionAt mergedLocal ancestor
        dsimp only
        cases domainAction ((domainMap baseline.domains).get? domain)
          ((snapshotToDomains localSnapshot).get? domain)
          ((snapshotToDomains remoteSnapshot).get? domain) with
        | converged => simp
        | useLocal => simp
        | useRemote => simp
        | conflict => simp [knownTombstones]

end Plan

/-! ### A correct merge -/

/-- The domains of a baseline are distinct, and none of them has a tombstone. -/
structure DistinctDomains (baseline : ContainerBaseline) : Prop where
  distinct : (baseline.domains.map Prod.fst).Nodup
  disjoint : ∀ domain ∈ baseline.tombstones, domain ∉ baseline.domains.map Prod.fst

/-- A baseline in the order in which it is stored. -/
structure ValidBaseline (baseline : ContainerBaseline) : Prop extends DistinctDomains baseline where
  sorted : (baseline.domains.map Prod.fst).Pairwise (· < ·)
  tombstones_sorted : baseline.tombstones.Pairwise (· < ·)

/-- The sides have changed a domain in different ways. -/
def Diverged (base localDomains remoteDomains : LogicalDomains) (domain : String) : Prop :=
  localDomains.get? domain ≠ remoteDomains.get? domain
    ∧ localDomains.get? domain ≠ base.get? domain
    ∧ remoteDomains.get? domain ≠ base.get? domain

/-- **A three-way merge.**

    * `local_change`, `remote_change` — what only one side changed since the ancestor, be it a
      deletion, is what both sides are to hold;
    * `conflict` — what both changed in different ways stays on each side as it is there;
    * `local_kept`, `remote_kept` — a side is changed only where it holds what the ancestor has. -/
structure ThreeWayMerge (base localDomains remoteDomains desiredLocal desiredRemote :
    LogicalDomains) : Prop where
  local_change : ∀ domain, remoteDomains.get? domain = base.get? domain →
    desiredLocal.get? domain = localDomains.get? domain
      ∧ desiredRemote.get? domain = localDomains.get? domain
  remote_change : ∀ domain, localDomains.get? domain = base.get? domain →
    desiredLocal.get? domain = remoteDomains.get? domain
      ∧ desiredRemote.get? domain = remoteDomains.get? domain
  conflict : ∀ domain, Diverged base localDomains remoteDomains domain →
    desiredLocal.get? domain = localDomains.get? domain
      ∧ desiredRemote.get? domain = remoteDomains.get? domain
  local_kept : ∀ domain, desiredLocal.get? domain ≠ localDomains.get? domain →
    localDomains.get? domain = base.get? domain
  remote_kept : ∀ domain, desiredRemote.get? domain ≠ remoteDomains.get? domain →
    remoteDomains.get? domain = base.get? domain

/-- What a plan leaves for the next one. -/
structure NextAncestor (base localDomains remoteDomains : LogicalDomains)
    (plan : ContainerReconcilePlan) : Prop where
  valid : ValidBaseline plan.nextBaseline
  settled : ∀ domain, ¬ Diverged base localDomains remoteDomains domain →
    (domainMap plan.nextBaseline.domains).get? domain = plan.desiredLocal.get? domain
      ∧ (domainMap plan.nextBaseline.domains).get? domain = plan.desiredRemote.get? domain
  conflict : ∀ domain, Diverged base localDomains remoteDomains domain →
    (domainMap plan.nextBaseline.domains).get? domain = base.get? domain

/-- Planning again on what a plan is to leave on both sides decides the same domains: the conflicts
    as before, all others as converged, and leaves everything as it is. -/
structure PlansAgain (plan again : ContainerReconcilePlan) : Prop where
  decisions : again.decisions = plan.decisions.map (fun decision =>
    (decision.1, if decision.2 = .conflict then .conflict else .converged))
  desiredLocal : again.desiredLocal = plan.desiredLocal
  desiredRemote : again.desiredRemote = plan.desiredRemote
  nextBaseline : again.nextBaseline = plan.nextBaseline

namespace Merged

variable {base localDomains remoteDomains : LogicalDomains} {tombstones : List String}
variable {plan : ContainerReconcilePlan}

theorem diverged_iff (domain : String) :
    actionAt base localDomains remoteDomains domain = .conflict
      ↔ Diverged base localDomains remoteDomains domain := domainAction_eq_conflict_iff

theorem threeWayMerge (h : Merged base localDomains remoteDomains tombstones plan) :
    ThreeWayMerge base localDomains remoteDomains plan.desiredLocal plan.desiredRemote where
  local_change := by
    intro domain hsame
    rw [h.localDomain, h.remoteDomain, mergedLocal, mergedRemote, domainAction, hsame]
    by_cases heq : localDomains.get? domain = base.get? domain
    · simp [heq]
    · simp [heq]
  remote_change := by
    intro domain hsame
    rw [h.localDomain, h.remoteDomain, mergedLocal, mergedRemote, domainAction, hsame]
    by_cases heq : base.get? domain = remoteDomains.get? domain
    · simp [heq]
    · simp [heq]
  conflict := by
    intro domain hdiverged
    obtain ⟨hl, hr, -⟩ := merged_of_conflict ((diverged_iff domain).mpr hdiverged)
    rw [h.localDomain, h.remoteDomain]
    exact ⟨hl, hr⟩
  local_kept := by
    intro domain hne
    rw [h.localDomain, mergedLocal] at hne
    split at hne
    · next huse => exact eq_base_of_useRemote huse
    · exact absurd rfl hne
  remote_kept := by
    intro domain hne
    rw [h.remoteDomain, mergedRemote] at hne
    split at hne
    · next huse => exact eq_base_of_useLocal huse
    · exact absurd rfl hne

theorem mem_nextDomains_iff (h : Merged base localDomains remoteDomains tombstones plan)
    (domain : String) :
    domain ∈ plan.nextBaseline.domains.map Prod.fst
      ↔ mergedBase (base.get? domain) (localDomains.get? domain) (remoteDomains.get? domain)
        ≠ none := by
  rw [← h.baseDomain, ne_eq, Dict.get?_eq_none_iff, not_not, domainMap, Dict.mem_keys_insertAll]
  simp

theorem nextAncestor (h : Merged base localDomains remoteDomains tombstones plan)
    (hdisjoint : ∀ domain ∈ tombstones, base.get? domain = none) :
    NextAncestor base localDomains remoteDomains plan where
  valid :=
    { distinct := h.sorted.imp fun hlt => hlt.ne
      sorted := h.sorted
      tombstones_sorted := h.tombstones_sorted
      disjoint := by
        intro domain htombstone
        rw [h.mem_nextDomains_iff, not_not]
        obtain ⟨-, hmerged⟩ := (h.tombstoned domain).mp htombstone
        split at hmerged
        · next haction =>
          obtain ⟨-, -, hbase⟩ := merged_of_conflict haction
          rw [hbase]
          exact hdisjoint domain hmerged
        · next haction =>
          rw [(merged_of_ne_conflict haction).2]
          exact hmerged }
  settled := by
    intro domain hdiverged
    obtain ⟨hr, hb⟩ := merged_of_ne_conflict (mt (diverged_iff domain).mp hdiverged)
    rw [h.baseDomain, h.localDomain, h.remoteDomain]
    exact ⟨hb, hb.trans hr.symm⟩
  conflict := by
    intro domain hdiverged
    rw [h.baseDomain]
    exact (merged_of_conflict ((diverged_iff domain).mpr hdiverged)).2.2

/-- Without a conflict both sides are to hold the same domains, and so does the next baseline. -/
theorem converges (h : Merged base localDomains remoteDomains tombstones plan)
    (hnone : ∀ decision ∈ plan.decisions, decision.2 ≠ .conflict) :
    plan.desiredLocal = plan.desiredRemote
      ∧ plan.nextBaseline.domains = plan.desiredLocal.entries := by
  have haction : ∀ domain, actionAt base localDomains remoteDomains domain ≠ .conflict := by
    intro domain hconflict
    obtain ⟨keys, -, hdecisions, hkeys⟩ := h.decided
    obtain ⟨hne, -⟩ := (diverged_iff domain).mp hconflict
    refine hnone (domain, actionAt base localDomains remoteDomains domain) ?_ hconflict
    rw [hdecisions]
    refine List.mem_map.mpr ⟨domain, (hkeys domain).mpr ?_, rfl⟩
    by_contra hknown
    push Not at hknown
    exact hne (hknown.2.2.1.trans hknown.2.2.2.symm)
  have hsides : plan.desiredLocal = plan.desiredRemote := by
    refine Dict.ext_get? fun domain => ?_
    rw [h.localDomain, h.remoteDomain]
    exact (merged_of_ne_conflict (haction domain)).1.symm
  refine ⟨hsides, ?_⟩
  have hdict : (⟨plan.nextBaseline.domains, h.sorted⟩ : LogicalDomains) = plan.desiredLocal := by
    rw [← domainMap_entries ⟨plan.nextBaseline.domains, h.sorted⟩]
    refine Dict.ext_get? fun domain => ?_
    rw [h.localDomain]
    exact (h.baseDomain domain).trans (merged_of_ne_conflict (haction domain)).2
  exact congrArg Dict.entries hdict

section Again

variable {again : ContainerReconcilePlan}

theorem actionAt_again (h : Merged base localDomains remoteDomains tombstones plan)
    (domain : String) :
    actionAt (domainMap plan.nextBaseline.domains) plan.desiredLocal plan.desiredRemote domain
      = if actionAt base localDomains remoteDomains domain = .conflict then .conflict
        else .converged := by
  unfold actionAt
  rw [h.baseDomain, h.localDomain, h.remoteDomain]
  exact domainAction_again

/-- A merge leaves no domain it decided unknown: what both sides are to lose has a tombstone. -/
theorem known_again (h : Merged base localDomains remoteDomains tombstones plan)
    (domain : String) :
    ((domainMap plan.nextBaseline.domains).get? domain ≠ none
        ∨ domain ∈ plan.nextBaseline.tombstones ∨ plan.desiredLocal.get? domain ≠ none
        ∨ plan.desiredRemote.get? domain ≠ none)
      ↔ base.get? domain ≠ none ∨ domain ∈ tombstones ∨ localDomains.get? domain ≠ none
        ∨ remoteDomains.get? domain ≠ none := by
  rw [h.baseDomain, h.localDomain, h.remoteDomain, h.tombstoned]
  by_cases haction : actionAt base localDomains remoteDomains domain = .conflict
  · obtain ⟨hl, hr, hb⟩ := merged_of_conflict haction
    rw [hl, hr, hb, if_pos haction]
    tauto
  · obtain ⟨hr, hb⟩ := merged_of_ne_conflict haction
    rw [hr, hb, if_neg haction]
    have hvalue : mergedLocal (base.get? domain) (localDomains.get? domain)
        (remoteDomains.get? domain) ≠ none →
        localDomains.get? domain ≠ none ∨ remoteDomains.get? domain ≠ none := by
      unfold mergedLocal
      split
      · exact Or.inr
      · exact Or.inl
    tauto

/-- Merging again leaves every domain as it is, on both sides and in the ancestor. -/
theorem merged_again (h : Merged base localDomains remoteDomains tombstones plan)
    (domain : String) :
    let baseValue := (domainMap plan.nextBaseline.domains).get? domain
    let localValue := plan.desiredLocal.get? domain
    let remoteValue := plan.desiredRemote.get? domain
    mergedLocal baseValue localValue remoteValue = localValue
      ∧ mergedRemote baseValue localValue remoteValue = remoteValue
      ∧ mergedBase baseValue localValue remoteValue = baseValue := by
  intro baseValue localValue remoteValue
  have haction := h.actionAt_again domain
  by_cases hconflict : actionAt base localDomains remoteDomains domain = .conflict
  · rw [if_pos hconflict] at haction
    exact merged_of_conflict haction
  · rw [if_neg hconflict] at haction
    obtain ⟨hr, hb⟩ := merged_of_ne_conflict hconflict
    have hkeep : mergedLocal baseValue localValue remoteValue = localValue :=
      if_neg (by rw [show domainAction baseValue localValue remoteValue = _ from haction]; simp)
    refine ⟨hkeep, ?_, ?_⟩
    · exact if_neg (by rw [show domainAction baseValue localValue remoteValue = _ from haction]; simp)
    · rw [(merged_of_ne_conflict (by
        rw [show domainAction baseValue localValue remoteValue = _ from haction]
        simp)).2, hkeep]
      show plan.desiredLocal.get? domain = (domainMap plan.nextBaseline.domains).get? domain
      rw [h.localDomain, h.baseDomain, hb]

/-- The merge of what a merge is to leave, and of its baseline. -/
theorem again_eq (h : Merged base localDomains remoteDomains tombstones plan)
    (hagain : Merged (domainMap plan.nextBaseline.domains) plan.desiredLocal plan.desiredRemote
      plan.nextBaseline.tombstones again) :
    again.decisions = plan.decisions.map (fun decision =>
        (decision.1, if decision.2 = .conflict then .conflict else .converged))
      ∧ again.desiredLocal = plan.desiredLocal ∧ again.desiredRemote = plan.desiredRemote
      ∧ again.nextBaseline.domains = plan.nextBaseline.domains
      ∧ again.nextBaseline.tombstones = plan.nextBaseline.tombstones := by
  refine ⟨?_, ?_, ?_, ?_, ?_⟩
  · obtain ⟨keys, hkeys, hdecisions, hknown⟩ := h.decided
    obtain ⟨keysAgain, hkeysAgain, hdecisionsAgain, hknownAgain⟩ := hagain.decided
    have hsame : keysAgain = keys := eq_of_pairwise_lt hkeysAgain hkeys fun domain => by
      rw [hknownAgain, hknown, h.known_again]
    rw [hdecisions, hdecisionsAgain, hsame, List.map_map]
    exact List.map_congr_left fun domain _ => by rw [h.actionAt_again]; rfl
  · exact Dict.ext_get? fun domain => (hagain.localDomain domain).trans (h.merged_again domain).1
  · exact Dict.ext_get? fun domain =>
      (hagain.remoteDomain domain).trans (h.merged_again domain).2.1
  · have hdict : (⟨again.nextBaseline.domains, hagain.sorted⟩ : LogicalDomains)
        = ⟨plan.nextBaseline.domains, h.sorted⟩ := by
      rw [← domainMap_entries ⟨again.nextBaseline.domains, hagain.sorted⟩,
        ← domainMap_entries ⟨plan.nextBaseline.domains, h.sorted⟩]
      exact Dict.ext_get? fun domain =>
        (hagain.baseDomain domain).trans (h.merged_again domain).2.2
    exact congrArg Dict.entries hdict
  · refine eq_of_pairwise_lt hagain.tombstones_sorted h.tombstones_sorted fun domain => ?_
    rw [hagain.tombstoned, h.known_again, h.actionAt_again, (h.merged_again domain).1,
      h.localDomain, h.tombstoned]
    by_cases hconflict : actionAt base localDomains remoteDomains domain = .conflict
    · simp [hconflict]
    · simp [hconflict]

end Again

end Merged

/-! ### Snapshots of given domains -/

/-- The entries of given domains. -/
def entriesOf (domains : LogicalDomains) : List ContainerEntry :=
  (domains.entries.flatMap (fun domain => domain.2.map (fun entry => (domain.1, entry)))).map
    (fun entry => entryOf entry.1 entry.2)

/-- Domains with entries, in the order of their identities. -/
def Ordered (domains : LogicalDomains) : Prop :=
  ∀ domain entries, domains.get? domain = some entries →
    entries ≠ [] ∧ (entries.map Prod.fst).Pairwise (· ≤ ·)

theorem snapshotToDomains_ordered (s : ContainerSnapshot) : Ordered (snapshotToDomains s) := by
  intro domain entries hget
  rw [get?_snapshotToDomains] at hget
  split at hget
  · next hmem =>
    obtain rfl := Option.some.inj hget
    constructor
    · obtain ⟨entry, hentry, hdomain⟩ := List.mem_map.mp hmem
      have hin := (sortedByIdentity_perm (s.entries.filter (fun entry =>
        entry.mergeDomainId = domain))).mem_iff.mpr
          (List.mem_filter.mpr ⟨hentry, decide_eq_true hdomain⟩)
      intro hnil
      rw [List.map_eq_nil_iff.mp hnil] at hin
      exact absurd hin (by simp)
    · rw [List.map_map]
      exact List.pairwise_map.mpr (sortedByIdentity_pairwise _)
  · exact absurd hget (by simp)

/-- Ordered domains are those of a snapshot. -/
theorem snapshotToDomains_entriesOf {domains : LogicalDomains} (h : Ordered domains)
    (s : ContainerSnapshot) :
    snapshotToDomains { s with entries := entriesOf domains } = domains := by
  refine Dict.ext_get? fun domain => ?_
  rw [get?_snapshotToDomains]
  dsimp only
  have hfilter : (entriesOf domains).filter (fun entry => entry.mergeDomainId = domain)
      = ((domains.get? domain).getD []).map (entryOf domain) := filter_entries domains domain
  rw [hfilter]
  cases hget : domains.get? domain with
  | none =>
    rw [hget] at hfilter
    rw [if_neg]
    intro hmem
    obtain ⟨entry, hentry, hdomain⟩ := List.mem_map.mp hmem
    have hin : entry ∈ (entriesOf domains).filter (fun entry => entry.mergeDomainId = domain) :=
      List.mem_filter.mpr ⟨hentry, decide_eq_true hdomain⟩
    rw [hfilter] at hin
    exact absurd hin (by simp)
  | some entries =>
    obtain ⟨hne, hsorted⟩ := h domain entries hget
    rw [hget] at hfilter
    rw [if_pos]
    · have hkept : sortedByIdentity (entries.map (entryOf domain))
          = entries.map (entryOf domain) :=
        List.Pairwise.insertionSort_eq (List.pairwise_map.mpr (List.pairwise_map.mp hsorted))
      rw [Option.getD_some, hkept, List.map_map]
      exact congrArg some (List.map_id _)
    · obtain ⟨first, hfirst⟩ := List.exists_mem_of_ne_nil entries hne
      have hin : entryOf domain first ∈ (entriesOf domains).filter (fun entry =>
          entry.mergeDomainId = domain) := by
        rw [hfilter]
        exact List.mem_map_of_mem hfirst
      exact List.mem_map.mpr ⟨_, (List.mem_filter.mp hin).1, rfl⟩

section Correct

variable {localSnapshot remoteSnapshot : ContainerSnapshot} {baseline : Option ContainerBaseline}
variable {plan : ContainerReconcilePlan}

theorem desired_ordered
    (h : planContainerReconcile localSnapshot remoteSnapshot baseline = .ok plan) :
    Ordered plan.desiredLocal ∧ Ordered plan.desiredRemote := by
  have hmerged := planContainerReconcile_spec h
  constructor
  · intro domain entries hget
    rw [hmerged.localDomain, mergedLocal] at hget
    split at hget
    · exact snapshotToDomains_ordered _ _ _ hget
    · exact snapshotToDomains_ordered _ _ _ hget
  · intro domain entries hget
    rw [hmerged.remoteDomain, mergedRemote] at hget
    split at hget
    · exact snapshotToDomains_ordered _ _ _ hget
    · exact snapshotToDomains_ordered _ _ _ hget

/-- Compatible snapshots have a plan. -/
theorem exists_plan (h : compatible localSnapshot remoteSnapshot baseline = true) :
    ∃ plan, planContainerReconcile localSnapshot remoteSnapshot baseline = .ok plan := by
  unfold planContainerReconcile
  rw [if_neg (by simp [h])]
  cases baseline with
  | none => exact ⟨_, rfl⟩
  | some baseline => exact ⟨_, rfl⟩

/-- What a plan is to leave is compatible with its baseline. -/
theorem compatible_nextBaseline (h : compatible localSnapshot remoteSnapshot baseline = true)
    (hplan : planContainerReconcile localSnapshot remoteSnapshot baseline = .ok plan)
    (localEntries remoteEntries : List ContainerEntry) :
    compatible { localSnapshot with entries := localEntries }
      { remoteSnapshot with entries := remoteEntries } (some plan.nextBaseline) = true := by
  obtain ⟨hid, hadapter, hschema, hvariant⟩ := ContainerFormat.nextBaseline_identity hplan
  unfold compatible at h ⊢
  rw [Bool.and_eq_true] at h
  rw [Bool.and_eq_true]
  refine ⟨h.1, ?_⟩
  simp [hid, hadapter, hschema, hvariant]

/-- **Planning again** on what a plan is to leave on both sides. -/
theorem plansAgain_of_plan (h : compatible localSnapshot remoteSnapshot baseline = true)
    (hplan : planContainerReconcile localSnapshot remoteSnapshot baseline = .ok plan)
    {localEntries remoteEntries : List ContainerEntry}
    (hl : snapshotToDomains { localSnapshot with entries := localEntries } = plan.desiredLocal)
    (hr : snapshotToDomains { remoteSnapshot with entries := remoteEntries }
      = plan.desiredRemote) :
    ∃ again, planContainerReconcile { localSnapshot with entries := localEntries }
        { remoteSnapshot with entries := remoteEntries } (some plan.nextBaseline) = .ok again
      ∧ PlansAgain plan again := by
  obtain ⟨again, hagain⟩ :=
    exists_plan (compatible_nextBaseline h hplan localEntries remoteEntries)
  refine ⟨again, hagain, ?_⟩
  have hmerged := planContainerReconcile_spec hplan
  have hmergedAgain := planContainerReconcile_spec hagain
  rw [hl, hr] at hmergedAgain
  obtain ⟨hdecisions, hlocal, hremote, hdomains, htombstones⟩ := hmerged.again_eq hmergedAgain
  refine ⟨hdecisions, hlocal, hremote, ?_⟩
  obtain ⟨hid, hadapter, hschema, hvariant⟩ := ContainerFormat.nextBaseline_identity hplan
  obtain ⟨hid', hadapter', hschema', hvariant'⟩ := ContainerFormat.nextBaseline_identity hagain
  generalize again.nextBaseline = left at *
  generalize plan.nextBaseline = right at *
  obtain ⟨_, _, _, _, _, _⟩ := left
  obtain ⟨_, _, _, _, _, _⟩ := right
  simp_all

/-- **The logical merge is a correct three-way merge.** For compatible snapshots and every baseline
    with distinct domains, none of them tombstoned, there is a plan. It merges domain by domain;
    without a conflict both sides and the next baseline are to have the same domains; the next
    baseline is valid, and planning again on what the plan leaves decides the conflicts as before
    and everything else as converged. -/
theorem merge_correct (hcompatible : compatible localSnapshot remoteSnapshot baseline = true)
    (hbaseline : ∀ b, baseline = some b → DistinctDomains b) :
    ∃ plan, planContainerReconcile localSnapshot remoteSnapshot baseline = .ok plan
      ∧ ThreeWayMerge (ancestor baseline) (snapshotToDomains localSnapshot)
          (snapshotToDomains remoteSnapshot) plan.desiredLocal plan.desiredRemote
      ∧ ((∀ decision ∈ plan.decisions, decision.2 ≠ .conflict) →
          plan.desiredLocal = plan.desiredRemote
            ∧ plan.nextBaseline.domains = plan.desiredLocal.entries)
      ∧ NextAncestor (ancestor baseline) (snapshotToDomains localSnapshot)
          (snapshotToDomains remoteSnapshot) plan
      ∧ (∀ domain, (domain, .conflict) ∈ plan.decisions
          ↔ Diverged (ancestor baseline) (snapshotToDomains localSnapshot)
            (snapshotToDomains remoteSnapshot) domain)
      ∧ (∃ localEntries remoteEntries,
          snapshotToDomains { localSnapshot with entries := localEntries } = plan.desiredLocal
            ∧ snapshotToDomains { remoteSnapshot with entries := remoteEntries }
              = plan.desiredRemote)
      ∧ ∀ localEntries remoteEntries,
          snapshotToDomains { localSnapshot with entries := localEntries } = plan.desiredLocal →
          snapshotToDomains { remoteSnapshot with entries := remoteEntries }
            = plan.desiredRemote →
          ∃ again, planContainerReconcile { localSnapshot with entries := localEntries }
              { remoteSnapshot with entries := remoteEntries } (some plan.nextBaseline) = .ok again
            ∧ PlansAgain plan again := by
  obtain ⟨plan, hplan⟩ := exists_plan hcompatible
  have hmerged := planContainerReconcile_spec hplan
  refine ⟨plan, hplan, hmerged.threeWayMerge, hmerged.converges, hmerged.nextAncestor ?_, ?_,
    ?_, fun _ _ => plansAgain_of_plan hcompatible hplan⟩
  · intro domain htombstone
    cases baseline with
    | none => rfl
    | some b =>
      have hnot := (hbaseline b rfl).disjoint domain htombstone
      refine (Dict.get?_eq_none_iff _ _).mpr fun hkey => hnot ?_
      rcases (Dict.mem_keys_insertAll _ _ _ _).mp hkey with hempty | hmem
      · exact absurd hempty (by simp)
      · obtain ⟨item, hitem, value, heq⟩ := hmem
        exact List.mem_map.mpr ⟨item, hitem, congrArg Prod.fst (Option.some.inj heq)⟩
  · intro domain
    obtain ⟨keys, -, hdecisions, hkeys⟩ := hmerged.decided
    rw [hdecisions, ← Merged.diverged_iff]
    constructor
    · intro hmem
      obtain ⟨key, -, heq⟩ := List.mem_map.mp hmem
      obtain ⟨rfl, haction⟩ := Prod.mk.injEq .. ▸ heq
      exact haction
    · intro haction
      refine List.mem_map.mpr ⟨domain, (hkeys domain).mpr ?_, by rw [haction]⟩
      obtain ⟨hne, -⟩ := (Merged.diverged_iff domain).mp haction
      by_contra hknown
      push Not at hknown
      exact hne (hknown.2.2.1.trans hknown.2.2.2.symm)
  · obtain ⟨hl, hr⟩ := desired_ordered hplan
    exact ⟨_, _, snapshotToDomains_entriesOf hl localSnapshot,
      snapshotToDomains_entriesOf hr remoteSnapshot⟩

end Correct

/-! A card with two games: one was played here, the other was deleted on the remote. -/

def gameEntry (game hash : String) : ContainerEntry := ⟨game, game, hash, 8192⟩

def gameCard (entries : List ContainerEntry) : ContainerSnapshot :=
  ⟨"duckstation/memcards/shared.mcd", "ps1-raw-memory-card", 1, "ps1-raw-128k", entries⟩

def playedCard : ContainerSnapshot :=
  gameCard [gameEntry "SLUS-00594" "bb", gameEntry "SLUS-00700" "aa"]

def prunedCard : ContainerSnapshot := gameCard [gameEntry "SLUS-00594" "aa"]

def sharedCard : ContainerBaseline :=
  baselineFromSnapshot (gameCard [gameEntry "SLUS-00594" "aa", gameEntry "SLUS-00700" "aa"])

/-- The next baseline has the game that was played, and a tombstone for the other. -/
theorem merge_of_two_games : ∃ plan,
    planContainerReconcile playedCard prunedCard (some sharedCard) = .ok plan
      ∧ ValidBaseline plan.nextBaseline
      ∧ plan.nextBaseline.tombstones = ["SLUS-00700"] := by
  have hdistinct : DistinctDomains sharedCard := ⟨by decide, by decide⟩
  obtain ⟨plan, hplan, -, -, hnext, -⟩ := merge_correct
    (show compatible playedCard prunedCard (some sharedCard) = true by decide)
    (fun _ h => Option.some.inj h ▸ hdistinct)
  refine ⟨plan, hplan, hnext.valid, ?_⟩
  obtain rfl := Except.ok.inj (hplan.symm.trans rfl)
  decide +kernel

/-! ### Targets -/

/-- The desired domains of a side can be rebuilt from what was observed: the target has distinct
    identities, only observed entries, and the desired domains. -/
def Realizable (desired : LogicalDomains) (localSnapshot remoteSnapshot : ContainerSnapshot) :
    Prop :=
  ∃ target, targetSnapshot desired localSnapshot remoteSnapshot = .ok target
    ∧ (target.entries.map ContainerEntry.identity).Nodup
    ∧ (∀ entry ∈ target.entries,
        entry ∈ localSnapshot.entries ∨ entry ∈ remoteSnapshot.entries)
    ∧ snapshotToDomains target = desired

section Target

variable {localSnapshot remoteSnapshot : ContainerSnapshot} {baseline : Option ContainerBaseline}
variable {plan : ContainerReconcilePlan} {desired : LogicalDomains}

/-- Every wanted entry was observed, so the search for it succeeds. -/
theorem targetEntries_of_observed {observed : List ContainerEntry}
    {wanted : List (String × LogicalEntryState)}
    (h : ∀ entry ∈ wanted, entryOf entry.1 entry.2 ∈ observed) :
    targetEntries observed wanted = .ok (wanted.map (fun entry => entryOf entry.1 entry.2)) := by
  induction wanted with
  | nil => rfl
  | cons first rest ih =>
    obtain ⟨domain, logical⟩ := first
    have hrest := ih fun entry hentry => h entry (List.mem_cons_of_mem _ hentry)
    have hobserved : entryOf domain logical ∈ observed := h _ List.mem_cons_self
    obtain ⟨found, hfound⟩ : ∃ found, observed.find? (fun entry =>
        entry.mergeDomainId = domain && entry.logical = logical) = some found :=
      Option.isSome_iff_exists.mp (List.find?_isSome.mpr ⟨_, hobserved, by
        simp [entryOf, ContainerEntry.logical]⟩)
    have hgood := List.find?_some hfound
    rw [Bool.and_eq_true, decide_eq_true_iff, decide_eq_true_iff] at hgood
    have hsame : found = entryOf domain logical := by
      obtain ⟨rfl, rfl⟩ := hgood
      rfl
    rw [targetEntries]
    simp only [hfound, hrest, hsame, List.map_cons]

/-- An entry of a snapshot's domains is one of its entries. -/
theorem entryOf_mem_of_snapshotToDomains {s : ContainerSnapshot} {domain : String}
    {entries : List LogicalEntryState} (hget : (snapshotToDomains s).get? domain = some entries)
    {logical : LogicalEntryState} (hmem : logical ∈ entries) :
    entryOf domain logical ∈ s.entries := by
  rw [get?_snapshotToDomains] at hget
  split at hget
  · obtain rfl := Option.some.inj hget
    obtain ⟨entry, hentry, rfl⟩ := List.mem_map.mp hmem
    obtain ⟨hin, hdomain⟩ := List.mem_filter.mp ((sortedByIdentity_perm _).mem_iff.mp hentry)
    obtain rfl := of_decide_eq_true hdomain
    exact hin
  · exact absurd hget (by simp)

/-- Entries of domains that share no identity have distinct identities. -/
theorem entriesOf_nodup (hwf : WellFormed desired)
    (hapart : ∀ d e left right, desired.get? d = some left → desired.get? e = some right →
      ∀ a ∈ left, ∀ b ∈ right, a.1 = b.1 → d = e) :
    ((entriesOf desired).map ContainerEntry.identity).Nodup := by
  have hget : ∀ item ∈ desired.entries, desired.get? item.1 = some item.2 :=
    fun item hitem => (Dict.get?_eq_some_iff desired item.1 item.2).mpr hitem
  have hmap : (entriesOf desired).map ContainerEntry.identity
      = desired.entries.flatMap (fun item => item.2.map Prod.fst) := by
    unfold entriesOf
    rw [List.map_map, List.map_flatMap]
    refine List.flatMap_congr fun item _ => ?_
    rw [List.map_map]
    rfl
  rw [hmap, List.nodup_flatMap]
  constructor
  · intro item hitem
    exact (hwf item.1 item.2 (hget item hitem)).2.imp fun hlt => hlt.ne
  · refine (List.pairwise_map.mp desired.sorted).imp_of_mem ?_
    intro item other hitem hother hlt x hx hy
    obtain ⟨a, ha, rfl⟩ := List.mem_map.mp hx
    obtain ⟨b, hb, hid⟩ := List.mem_map.mp hy
    exact absurd (hapart _ _ _ _ (hget item hitem) (hget other hother) a ha b hb hid.symm) hlt.ne

/-- Domains that are each one of the local or of the remote side can be rebuilt. -/
theorem realizable_of_observed
    (hl : (localSnapshot.entries.map ContainerEntry.identity).Nodup)
    (hr : (remoteSnapshot.entries.map ContainerEntry.identity).Nodup)
    (hdomain : ∀ a ∈ localSnapshot.entries, ∀ b ∈ remoteSnapshot.entries,
      a.identity = b.identity → a.mergeDomainId = b.mergeDomainId)
    (hdesired : ∀ domain entries, desired.get? domain = some entries →
      (snapshotToDomains localSnapshot).get? domain = some entries
        ∨ (snapshotToDomains remoteSnapshot).get? domain = some entries) :
    Realizable desired localSnapshot remoteSnapshot := by
  have hobserved : ∀ domain entries, desired.get? domain = some entries →
      ∀ logical ∈ entries, entryOf domain logical ∈ localSnapshot.entries
        ∨ entryOf domain logical ∈ remoteSnapshot.entries := by
    intro domain entries hget logical hmem
    rcases hdesired domain entries hget with h | h
    · exact Or.inl (entryOf_mem_of_snapshotToDomains h hmem)
    · exact Or.inr (entryOf_mem_of_snapshotToDomains h hmem)
  have hwf : WellFormed desired := by
    intro domain entries hget
    rcases hdesired domain entries hget with h | h
    · exact snapshotToDomains_wellFormed hl domain entries h
    · exact snapshotToDomains_wellFormed hr domain entries h
  have hget : ∀ item ∈ desired.entries, desired.get? item.1 = some item.2 :=
    fun item hitem => (Dict.get?_eq_some_iff desired item.1 item.2).mpr hitem
  have hwanted : ∀ wanted ∈ desired.entries.flatMap (fun domain =>
      domain.2.map (fun entry => (domain.1, entry))),
      entryOf wanted.1 wanted.2 ∈ localSnapshot.entries ++ remoteSnapshot.entries := by
    intro wanted hwanted
    obtain ⟨item, hitem, hin⟩ := List.mem_flatMap.mp hwanted
    obtain ⟨logical, hlogical, rfl⟩ := List.mem_map.mp hin
    exact List.mem_append.mpr (hobserved item.1 item.2 (hget item hitem) logical hlogical)
  have htarget := targetEntries_of_observed hwanted
  have hsnapshot : targetSnapshot desired localSnapshot remoteSnapshot
      = .ok { localSnapshot with entries := sortedByIdentity (entriesOf desired) } := by
    unfold targetSnapshot
    rw [htarget]
    rfl
  refine ⟨_, hsnapshot, ?_, ?_, snapshotToDomains_targetSnapshot hwf hsnapshot⟩
  · rw [((sortedByIdentity_perm _).map _).nodup_iff]
    refine entriesOf_nodup hwf ?_
    intro d e left right hleft hright a ha b hb hid
    -- two observed entries of one identity are of one domain
    have hl' := List.inj_on_of_nodup_map hl
    have hr' := List.inj_on_of_nodup_map hr
    rcases hobserved d left hleft a ha with hone | hone
    · rcases hobserved e right hright b hb with htwo | htwo
      · exact congrArg ContainerEntry.mergeDomainId (hl' hone htwo hid)
      · exact hdomain _ hone _ htwo hid
    · rcases hobserved e right hright b hb with htwo | htwo
      · exact (hdomain _ htwo _ hone hid.symm).symm
      · exact congrArg ContainerEntry.mergeDomainId (hr' hone htwo hid)
  · intro entry hentry
    have hin := (sortedByIdentity_perm _).mem_iff.mp hentry
    obtain ⟨wanted, hwanted, rfl⟩ := List.mem_map.mp hin
    obtain ⟨item, hitem, hpair⟩ := List.mem_flatMap.mp hwanted
    obtain ⟨logical, hlogical, rfl⟩ := List.mem_map.mp hpair
    exact hobserved item.1 item.2 (hget item hitem) logical hlogical

/-- **Every planned target can be realized.** For snapshots with distinct identities, in which an
    identity has the same merge domain on both sides, and every baseline, both targets of the plan
    can be rebuilt from observed entries. -/
theorem targets_realizable
    (hl : (localSnapshot.entries.map ContainerEntry.identity).Nodup)
    (hr : (remoteSnapshot.entries.map ContainerEntry.identity).Nodup)
    (hdomain : ∀ a ∈ localSnapshot.entries, ∀ b ∈ remoteSnapshot.entries,
      a.identity = b.identity → a.mergeDomainId = b.mergeDomainId)
    (hplan : planContainerReconcile localSnapshot remoteSnapshot baseline = .ok plan) :
    Realizable plan.desiredLocal localSnapshot remoteSnapshot
      ∧ Realizable plan.desiredRemote localSnapshot remoteSnapshot := by
  have hmerged := planContainerReconcile_spec hplan
  constructor
  · refine realizable_of_observed hl hr hdomain ?_
    intro domain entries hget
    rw [hmerged.localDomain, mergedLocal] at hget
    split at hget
    · exact Or.inr hget
    · exact Or.inl hget
  · refine realizable_of_observed hl hr hdomain ?_
    intro domain entries hget
    rw [hmerged.remoteDomain, mergedRemote] at hget
    split at hget
    · exact Or.inl hget
    · exact Or.inr hget

end Target

theorem targets_of_two_games : ∃ plan,
    planContainerReconcile playedCard prunedCard (some sharedCard) = .ok plan
      ∧ Realizable plan.desiredLocal playedCard prunedCard
      ∧ Realizable plan.desiredRemote playedCard prunedCard := by
  obtain ⟨plan, hplan⟩ := exists_plan
    (show compatible playedCard prunedCard (some sharedCard) = true by decide)
  exact ⟨plan, hplan, targets_realizable (by decide) (by decide) (by decide) hplan⟩

end RomCloud.SaveSync
