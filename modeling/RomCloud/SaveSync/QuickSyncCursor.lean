import RomCloud.SaveSync.QuickSync

namespace RomCloud.SaveSync

open RomCloud.Lib

/-!
# What a Quick Sync has looked at when it moves its cursor

* `CursorPassesReconciled` — every unseen entry the new cursor passes belongs to groups that the
  pass compared and settled;
* `LooksAt` — which paths a pass compares, read off its inputs;
* `cursorPassesReconciled_iff` — the cursor passes only what was reconciled exactly when the pass
  looks at every path of every group an unseen entry is about.
-/

/-! ### The scope of the unseen entries -/

section Scope

variable (service : Service) (state : SaveSyncState) (excluded : Finset LayoutId)
variable (unseen : List Journal.Entry)

/-- An eligible entry names the tracked group. -/
def NamesGroup (gid : GroupId) : Prop :=
  ∃ entry ∈ unseen, eligibleEntry service excluded entry = true
    ∧ namesKnownGroup state entry = true ∧ entryGroup entry = gid

/-- An eligible entry that names no tracked group names the layout. -/
def NamesLayout (layoutId : LayoutId) : Prop :=
  ∃ entry ∈ unseen, eligibleEntry service excluded entry = true
    ∧ namesKnownGroup state entry = false ∧ entryLayout entry = layoutId

theorem entryLayout_ne (entry : Journal.Entry) : entryLayout entry ≠ "" := entry.layoutId.property

/-- **The scope of the unseen entries**: the tracked groups and the layouts they name. -/
theorem scopeOfEntries_spec : ∃ groups layouts,
    scopeOfEntries service state excluded unseen = .ok (groups, layouts)
      ∧ (∀ gid, gid ∈ groups ↔ NamesGroup service state excluded unseen gid)
      ∧ ∀ layoutId, layoutId ∈ layouts ↔ NamesLayout service state excluded unseen layoutId := by
  induction unseen with
  | nil => exact ⟨∅, ∅, rfl, by simp [NamesGroup], by simp [NamesLayout]⟩
  | cons entry rest ih =>
    obtain ⟨groups, layouts, hrest, hgroups, hlayouts⟩ := ih
    unfold scopeOfEntries
    rw [if_neg (entryLayout_ne entry), hrest]
    dsimp only
    cases he : eligibleEntry service excluded entry with
    | false =>
      refine ⟨groups, layouts, rfl, ?_, ?_⟩
      · intro gid
        simp [hgroups gid, NamesGroup, he]
      · intro layoutId
        simp [hlayouts layoutId, NamesLayout, he]
    | true =>
      cases hk : namesKnownGroup state entry with
      | true =>
        refine ⟨insert (entryGroup entry) groups, layouts, rfl, ?_, ?_⟩
        · intro gid
          rw [Finset.mem_insert, hgroups gid, NamesGroup, NamesGroup, List.exists_mem_cons_iff]
          exact or_congr_left ⟨fun h => ⟨he, hk, h.symm⟩, fun h => h.2.2.symm⟩
        · intro layoutId
          simp [hlayouts layoutId, NamesLayout, he, hk]
      | false =>
        refine ⟨groups, insert (entryLayout entry) layouts, rfl, ?_, ?_⟩
        · intro gid
          simp [hgroups gid, NamesGroup, he, hk]
        · intro layoutId
          rw [Finset.mem_insert, hlayouts layoutId, NamesLayout, NamesLayout,
            List.exists_mem_cons_iff]
          exact or_congr_left ⟨fun h => ⟨he, hk, h.symm⟩, fun h => h.2.2.symm⟩

theorem mem_storedLayouts_iff (groups : Finset GroupId) (layoutId : LayoutId) :
    layoutId ∈ storedLayouts state groups
      ↔ ∃ gid ∈ groups, ∃ g, state.groups.get? gid = some g ∧ g.layoutId = layoutId := by
  rw [storedLayouts, Finset.mem_biUnion]
  refine exists_congr fun gid => and_congr_right fun _ => ?_
  cases state.groups.get? gid with
  | none => simp
  | some g => simp [eq_comm]

end Scope

/-! ### What a pass looks at -/

section LooksAt

variable (service : Service) (quick : QuickSyncCall) (sides : Sides)
variable (obsolete : List SaveConflictRecord) (unseen : List Journal.Entry)

/-- A group an eligible entry names, or one that is pending. -/
def Wanted (gid : GroupId) : Prop :=
  NamesGroup service sides.state quick.excludedLayouts unseen gid
    ∨ gid ∈ pendingGroups service sides.state quick.excludedLayouts sides.localSide

/-- An enabled layout under which a wanted group without session is stored. -/
def WantedLayout (layoutId : LayoutId) : Prop :=
  (∃ gid, Wanted service quick sides unseen gid ∧ quick.isGroupActive gid = false
      ∧ ∃ g, sides.state.groups.get? gid = some g ∧ g.layoutId = layoutId)
    ∧ service.layoutEnabled layoutId = true

/-- Some eligible entry names no tracked group. -/
def NeedsLayouts : Prop :=
  ∃ layoutId, NamesLayout service sides.state quick.excludedLayouts unseen layoutId

/-- Eligible entries name both tracked groups and layouts, and the device has no work of its own. -/
def Mixed : Prop :=
  obsolete = [] ∧ pendingGroups service sides.state quick.excludedLayouts sides.localSide = ∅
    ∧ ∃ gid, NamesGroup service sides.state quick.excludedLayouts unseen gid

/-- **Which paths a pass compares.**

    * Entries that name tracked groups only, and no obsolete conflict: the paths of the wanted
      groups without session, in the layouts these are stored under; of the files that only the
      remote has, none, unless one of these layouts has container files.
    * Entries that name tracked groups and others that do not, with no work of the device's own:
      the paths of the named groups without session in the named layouts without session.
    * Otherwise: the layouts without session that an entry names, that an obsolete conflict is
      about, or that a wanted group is stored under. -/
def LooksAt (p : Path) (d : SaveGroupDescriptor) : Prop :=
  (¬ NeedsLayouts service quick sides unseen ∧ obsolete = []
      ∧ Wanted service quick sides unseen d.groupId ∧ quick.isGroupActive d.groupId = false
      ∧ WantedLayout service quick sides unseen d.layoutId
      ∧ (sides.remoteSide.get? p = none ∨ sides.localSide.get? p ≠ none
        ∨ sides.state.sharedManifest.get? p ≠ none
        ∨ ∃ layout ∈ service.registry.layouts, layout.containerAdapterId ≠ ""
            ∧ WantedLayout service quick sides unseen layout.layoutId))
    ∨ (NeedsLayouts service quick sides unseen ∧ Mixed service quick sides obsolete unseen
      ∧ NamesGroup service sides.state quick.excludedLayouts unseen d.groupId
      ∧ quick.isGroupActive d.groupId = false
      ∧ NamesLayout service sides.state quick.excludedLayouts unseen d.layoutId
      ∧ quick.isLayoutActive d.layoutId = false)
    ∨ ((NeedsLayouts service quick sides unseen ∨ obsolete ≠ [])
      ∧ ¬ Mixed service quick sides obsolete unseen
      ∧ (NamesLayout service sides.state quick.excludedLayouts unseen d.layoutId
        ∨ (∃ conflict ∈ obsolete, conflict.layoutId = d.layoutId)
        ∨ ∃ gid, Wanted service quick sides unseen gid
            ∧ ∃ g, sides.state.groups.get? gid = some g ∧ g.layoutId = d.layoutId)
      ∧ service.layoutEnabled d.layoutId = true ∧ quick.isLayoutActive d.layoutId = false)

end LooksAt

/-! ### The selectors of a pass -/

section Selectors

variable {service : Service} {quick : QuickSyncCall} {sides : Sides}
variable {obsolete : List SaveConflictRecord} {unseen : List Journal.Entry}

/-- The selectors a pass computes from its inputs. -/
def passSelectors (service : Service) (quick : QuickSyncCall) (sides : Sides)
    (obsolete : List SaveConflictRecord)
    (scope : Option (Finset GroupId) × Option (Finset LayoutId)) :
    Option (Finset GroupId) × Option (Finset LayoutId) :=
  quickSyncSelectors sides.state scope
    (pendingGroups service sides.state quick.excludedLayouts sides.localSide)
    (obsolete.map SaveConflictRecord.layoutId).toFinset

/-- What the two selectors of a pass say, in its three modes. -/
inductive SelectorMode (service : Service) (quick : QuickSyncCall) (sides : Sides)
    (obsolete : List SaveConflictRecord) (unseen : List Journal.Entry) :
    Option (Finset GroupId) × Option (Finset LayoutId) → Prop
  | group (groups : Finset GroupId) (hneeds : ¬ NeedsLayouts service quick sides unseen)
      (hobsolete : obsolete = [])
      (hgroups : ∀ gid, gid ∈ groups ↔ Wanted service quick sides unseen gid) :
      SelectorMode service quick sides obsolete unseen (some groups, none)
  | both (groups : Finset GroupId) (layouts : Finset LayoutId)
      (hneeds : NeedsLayouts service quick sides unseen)
      (hmixed : Mixed service quick sides obsolete unseen)
      (hgroups : ∀ gid, gid ∈ groups
        ↔ NamesGroup service sides.state quick.excludedLayouts unseen gid)
      (hlayouts : ∀ layoutId, layoutId ∈ layouts
        ↔ NamesLayout service sides.state quick.excludedLayouts unseen layoutId) :
      SelectorMode service quick sides obsolete unseen (some groups, some layouts)
  | layout (layouts : Finset LayoutId)
      (hneeds : NeedsLayouts service quick sides unseen ∨ obsolete ≠ [])
      (hmixed : ¬ Mixed service quick sides obsolete unseen)
      (hlayouts : ∀ layoutId, layoutId ∈ layouts
        ↔ NamesLayout service sides.state quick.excludedLayouts unseen layoutId
          ∨ (∃ conflict ∈ obsolete, conflict.layoutId = layoutId)
          ∨ ∃ gid, Wanted service quick sides unseen gid
              ∧ ∃ g, sides.state.groups.get? gid = some g ∧ g.layoutId = layoutId) :
      SelectorMode service quick sides obsolete unseen (none, some layouts)

theorem obsoleteLayouts_eq_empty_iff :
    (obsolete.map SaveConflictRecord.layoutId).toFinset = ∅ ↔ obsolete = [] := by
  rw [List.toFinset_eq_empty_iff, List.map_eq_nil_iff]

theorem mem_obsoleteLayouts_iff (layoutId : LayoutId) :
    layoutId ∈ (obsolete.map SaveConflictRecord.layoutId).toFinset
      ↔ ∃ conflict ∈ obsolete, conflict.layoutId = layoutId := by
  rw [List.mem_toFinset, List.mem_map]

/-- The two selectors of a scope, in the three forms `_quick_sync_scope` gives them. -/
theorem scope_forms (groups : Finset GroupId) (layouts : Finset LayoutId) :
    (if groups ≠ ∅ then (some groups, if layouts ≠ ∅ then some layouts else none)
      else if layouts ≠ ∅ then (none, some layouts)
      else (some ∅, none))
      = if layouts = ∅ then (some groups, none)
        else if groups = ∅ then (none, some layouts) else (some groups, some layouts) := by
  by_cases hg : groups = ∅ <;> by_cases hl : layouts = ∅ <;> simp [hg, hl]

section Merge

variable (state : SaveSyncState) (groups pending : Finset GroupId) (layouts old : Finset LayoutId)

/-- Without named layouts and obsolete conflicts: groups. -/
theorem quickSyncSelectors_groups :
    quickSyncSelectors state (some groups, none) pending ∅ = (some (groups ∪ pending), none) := by
  unfold quickSyncSelectors
  by_cases hp : pending = ∅
  · simp [hp]
  · simp [hp]

theorem storedLayouts_union : storedLayouts state (groups ∪ pending)
    = storedLayouts state groups ∪ storedLayouts state pending := Finset.union_biUnion

/-- Whenever the selection is by layouts, it is by the named ones, those of obsolete conflicts and
    those of the named and the pending groups. -/
theorem quickSyncSelectors_layouts (h : layouts ≠ ∅ ∨ old ≠ ∅)
    (hmixed : ¬ (old = ∅ ∧ pending = ∅ ∧ groups ≠ ∅)) :
    quickSyncSelectors state (if layouts = ∅ then (some groups, none)
        else if groups = ∅ then (none, some layouts) else (some groups, some layouts)) pending old
      = (none, some (layouts ∪ old ∪ storedLayouts state (groups ∪ pending))) := by
  have hempty : storedLayouts state ∅ = ∅ := rfl
  unfold quickSyncSelectors
  by_cases hl : layouts = ∅
  · have ho : old ≠ ∅ := h.resolve_left (fun hne => hne hl)
    by_cases hp : pending = ∅ <;> simp [hl, ho, hp]
  · by_cases hp : pending = ∅
    · by_cases ho : old = ∅
      · have hg : groups = ∅ := by
          by_contra hg
          exact hmixed ⟨ho, hp, hg⟩
        simp [hl, hp, ho, hg, hempty]
      · by_cases hg : groups = ∅ <;> simp [hl, hp, ho, hg, hempty]
    · -- the layouts of the named and the pending groups are merged in before the obsolete ones
      have hmerge : layouts ∪ storedLayouts state (groups ∪ pending) ∪ old
          ∪ storedLayouts state (∅ ∪ pending)
          = layouts ∪ old ∪ storedLayouts state (groups ∪ pending) := by
        ext layoutId
        simp only [storedLayouts_union, hempty, Finset.mem_union, Finset.notMem_empty, false_or]
        tauto
      by_cases hg : groups = ∅ <;> by_cases ho : old = ∅ <;> simp [hl, hp, hg, ho] <;>
        simpa [hg] using hmerge

end Merge

theorem quickSyncScope_eq {groups : Finset GroupId} {layouts : Finset LayoutId}
    (h : scopeOfEntries service sides.state quick.excludedLayouts unseen = .ok (groups, layouts)) :
    quickSyncScope service sides.state quick.excludedLayouts unseen
      = .ok (if layouts = ∅ then (some groups, none)
          else if groups = ∅ then (none, some layouts) else (some groups, some layouts)) := by
  rw [quickSyncScope, h, ← scope_forms]
  by_cases hg : groups = ∅ <;> by_cases hl : layouts = ∅ <;> simp [hg, hl]

/-- A pass runs in one of the three modes. -/
theorem selectorMode_of_pass : ∃ scope,
    quickSyncScope service sides.state quick.excludedLayouts unseen = .ok scope
      ∧ SelectorMode service quick sides obsolete unseen
          (passSelectors service quick sides obsolete scope) := by
  obtain ⟨groups, layouts, hscope, hgroups, hlayouts⟩ :=
    scopeOfEntries_spec service sides.state quick.excludedLayouts unseen
  have hneeds : layouts ≠ ∅ ↔ NeedsLayouts service quick sides unseen := by
    rw [← Finset.nonempty_iff_ne_empty]
    exact exists_congr hlayouts
  have hnamed : groups ≠ ∅
      ↔ ∃ gid, NamesGroup service sides.state quick.excludedLayouts unseen gid := by
    rw [← Finset.nonempty_iff_ne_empty]
    exact exists_congr hgroups
  have hwanted : ∀ gid, gid ∈ groups
      ∪ pendingGroups service sides.state quick.excludedLayouts sides.localSide
        ↔ Wanted service quick sides unseen gid := by
    intro gid
    rw [Finset.mem_union, hgroups gid, Wanted]
  have hmixed : Mixed service quick sides obsolete unseen
      ↔ (obsolete.map SaveConflictRecord.layoutId).toFinset = ∅
        ∧ pendingGroups service sides.state quick.excludedLayouts sides.localSide = ∅
        ∧ groups ≠ ∅ := by
    rw [Mixed, obsoleteLayouts_eq_empty_iff, hnamed]
  refine ⟨_, quickSyncScope_eq hscope, ?_⟩
  unfold passSelectors
  by_cases hm : Mixed service quick sides obsolete unseen
  · obtain ⟨ho, hp, hg⟩ := hmixed.mp hm
    by_cases hl : layouts = ∅
    · rw [if_pos hl, ho, quickSyncSelectors_groups]
      exact .group _ (mt hneeds.mpr (not_not.mpr hl)) (obsoleteLayouts_eq_empty_iff.mp ho) hwanted
    · rw [if_neg hl, if_neg hg, ho, hp]
      exact .both groups layouts (hneeds.mp hl) hm hgroups hlayouts
  · by_cases hby : layouts ≠ ∅ ∨ (obsolete.map SaveConflictRecord.layoutId).toFinset ≠ ∅
    · rw [quickSyncSelectors_layouts _ _ _ _ _ hby (mt hmixed.mpr hm)]
      refine .layout _ ?_ hm ?_
      · exact hby.imp hneeds.mp (mt obsoleteLayouts_eq_empty_iff.mpr)
      · intro layoutId
        rw [Finset.mem_union, Finset.mem_union, hlayouts layoutId, mem_obsoleteLayouts_iff,
          mem_storedLayouts_iff, or_assoc]
        simp only [hwanted]
    · push Not at hby
      rw [if_pos hby.1, hby.2, quickSyncSelectors_groups]
      exact .group _ (mt hneeds.mpr (not_not.mpr hby.1))
        (obsoleteLayouts_eq_empty_iff.mp hby.2) hwanted

end Selectors

/-! ### What the call of a pass compares -/

section Compared

variable {service : Service} {quick : QuickSyncCall} {sides : Sides}
variable {obsolete : List SaveConflictRecord} {unseen : List Journal.Entry}

theorem pathCompared_iff (call : ReconcileCall) {p : Path} {d : SaveGroupDescriptor}
    (hd : service.registry.groupForPath p = some d) :
    PathCompared service call sides p
      ↔ covers service call sides.state d.layoutId = true ∧ selects call d.groupId = true
        ∧ (sides.remoteSide.get? p = none ∨ ∀ groups, Narrowed service call sides.state groups →
            KnownPath call sides groups p) := by
  have hscope : pathInScope service call sides.state p = true
      ↔ covers service call sides.state d.layoutId = true ∧ selects call d.groupId = true := by
    rw [pathInScope, Bool.and_eq_true, pathCovered_iff hd, Service.groupId_of_descriptor hd]
  rw [PathCompared, ← and_assoc, ← hscope]
  exact and_congr_right fun hp => originalRemote_eq_iff hp

theorem mem_scopedLayouts_iff (groups : Finset GroupId) (layoutId : LayoutId)
    {call : ReconcileCall} (hhints : call.groupLayoutHints = ∅) :
    layoutId ∈ scopedLayouts service call sides.state groups
      ↔ (∃ gid ∈ groups, ∃ g, sides.state.groups.get? gid = some g ∧ g.layoutId = layoutId)
        ∧ service.layoutEnabled layoutId = true := by
  have hnone : ∀ gid, (∅ : Dict GroupId LayoutId).get? gid = none := fun _ => rfl
  rw [scopedLayouts, Finset.mem_biUnion]
  simp only [hhints, hnone, Option.or_none]
  constructor
  · intro h
    obtain ⟨gid, hgid, hmem⟩ := h
    cases hg : sides.state.groups.get? gid with
    | none => simp [hg] at hmem
    | some g =>
      simp only [hg, Option.map_some] at hmem
      split at hmem
      · next henabled =>
        rw [Finset.mem_singleton] at hmem
        exact ⟨⟨gid, hgid, g, hg, hmem.symm⟩, hmem ▸ henabled⟩
      · exact absurd hmem (Finset.notMem_empty _)
  · intro h
    obtain ⟨⟨gid, hgid, g, hg, rfl⟩, henabled⟩ := h
    exact ⟨gid, hgid, by simp [hg, henabled]⟩

/-- The groups mode. -/
theorem pathCompared_group_iff {groups : Finset GroupId}
    (hgroups : ∀ gid, gid ∈ groups ↔ Wanted service quick sides unseen gid)
    {p : Path} {d : SaveGroupDescriptor} (hd : service.registry.groupForPath p = some d) :
    PathCompared service (quickSyncCall quick obsolete (some groups, none)) sides p
      ↔ Wanted service quick sides unseen d.groupId ∧ quick.isGroupActive d.groupId = false
        ∧ WantedLayout service quick sides unseen d.layoutId
        ∧ (sides.remoteSide.get? p = none ∨ sides.localSide.get? p ≠ none
          ∨ sides.state.sharedManifest.get? p ≠ none
          ∨ ∃ layout ∈ service.registry.layouts, layout.containerAdapterId ≠ ""
              ∧ WantedLayout service quick sides unseen layout.layoutId) := by
  have hmem : ∀ gid, gid ∈ groups.filter (fun gid => !quick.isGroupActive gid)
      ↔ Wanted service quick sides unseen gid ∧ quick.isGroupActive gid = false := by
    intro gid
    rw [Finset.mem_filter, hgroups gid, Bool.not_eq_true']
  have heffective : effectiveGroups (quickSyncCall quick obsolete (some groups, none))
      = some (groups.filter (fun gid => !quick.isGroupActive gid)) := rfl
  have hscoped : ∀ layoutId, layoutId ∈ scopedLayouts service
      (quickSyncCall quick obsolete (some groups, none)) sides.state
      (groups.filter (fun gid => !quick.isGroupActive gid))
        ↔ WantedLayout service quick sides unseen layoutId := by
    intro layoutId
    rw [mem_scopedLayouts_iff _ _ rfl, WantedLayout]
    simp only [hmem, and_assoc]
  have hcovers : covers service (quickSyncCall quick obsolete (some groups, none)) sides.state
      d.layoutId = true ↔ WantedLayout service quick sides unseen d.layoutId := by
    rw [← hscoped]
    exact decide_eq_true_iff
  have hselects : selects (quickSyncCall quick obsolete (some groups, none)) d.groupId = true
      ↔ Wanted service quick sides unseen d.groupId ∧ quick.isGroupActive d.groupId = false := by
    rw [← hmem]
    exact decide_eq_true_iff
  have hknown : ∀ others, KnownPath (quickSyncCall quick obsolete (some groups, none)) sides
      others p ↔ sides.localSide.get? p ≠ none ∨ sides.state.sharedManifest.get? p ≠ none := by
    intro others
    unfold KnownPath
    exact or_congr_right (or_iff_left fun ⟨_, _, hin⟩ => absurd hin (Finset.notMem_empty p))
  have hcontainer : service.hasContainerLayout (scopedLayouts service
      (quickSyncCall quick obsolete (some groups, none)) sides.state
      (groups.filter (fun gid => !quick.isGroupActive gid))) = true
        ↔ ∃ layout ∈ service.registry.layouts, layout.containerAdapterId ≠ ""
            ∧ WantedLayout service quick sides unseen layout.layoutId := by
    rw [Service.hasContainerLayout, List.any_eq_true]
    refine exists_congr fun layout => and_congr_right fun _ => ?_
    rw [Bool.and_eq_true, decide_eq_true_iff, decide_eq_true_iff, hscoped, and_comm]
  rw [pathCompared_iff _ hd, hcovers, hselects, and_left_comm, and_assoc]
  refine and_congr_right fun _ => and_congr_right fun _ => and_congr_right fun _ => ?_
  refine or_congr_right ?_
  rw [← or_assoc, ← hcontainer]
  constructor
  · intro h
    by_cases hc : service.hasContainerLayout (scopedLayouts service
        (quickSyncCall quick obsolete (some groups, none)) sides.state
        (groups.filter (fun gid => !quick.isGroupActive gid))) = true
    · exact Or.inr hc
    · refine Or.inl ((hknown _).mp (h _ ⟨rfl, rfl, rfl, ?_⟩))
      exact Bool.not_eq_true _ ▸ hc
  · intro h others hnarrow
    refine (hknown others).mpr (h.resolve_right ?_)
    obtain ⟨-, hothers, -, hc⟩ := hnarrow
    cases Option.some.inj (heffective.symm.trans hothers)
    rw [hc]
    exact Bool.false_ne_true

/-- The other two modes scan whole layouts. -/
theorem pathCompared_layouts_iff {groups : Option (Finset GroupId)} {layouts : Finset LayoutId}
    {p : Path} {d : SaveGroupDescriptor} (hd : service.registry.groupForPath p = some d) :
    PathCompared service (quickSyncCall quick obsolete (groups, some layouts)) sides p
      ↔ (d.layoutId ∈ layouts ∧ service.layoutEnabled d.layoutId = true
          ∧ quick.isLayoutActive d.layoutId = false)
        ∧ ∀ selected, groups = some selected →
            d.groupId ∈ selected ∧ quick.isGroupActive d.groupId = false := by
  have hcovers : covers service (quickSyncCall quick obsolete (groups, some layouts)) sides.state
      d.layoutId = true ↔ d.layoutId ∈ layouts ∧ service.layoutEnabled d.layoutId = true
        ∧ quick.isLayoutActive d.layoutId = false := by
    show decide (d.layoutId ∈ layouts.filter _) = true ↔ _
    rw [decide_eq_true_iff, Finset.mem_filter, Bool.and_eq_true, Bool.not_eq_true']
    rfl
  have hselects : selects (quickSyncCall quick obsolete (groups, some layouts)) d.groupId = true
      ↔ ∀ selected, groups = some selected →
          d.groupId ∈ selected ∧ quick.isGroupActive d.groupId = false := by
    cases groups with
    | none => exact iff_of_true rfl (by simp)
    | some selected =>
      show decide (d.groupId ∈ selected.filter _) = true ↔ _
      rw [decide_eq_true_iff, Finset.mem_filter, Bool.not_eq_true']
      simp [quickSyncCall]
  rw [pathCompared_iff _ hd, hcovers, hselects]
  refine and_congr_right fun _ => and_iff_left (Or.inr ?_)
  intro others hnarrow
  exact absurd hnarrow.1 (by simp [effectiveLayouts, quickSyncCall])

/-- **What a pass compares**, in terms of its inputs. -/
theorem pathCompared_pass_iff
    {selectors : Option (Finset GroupId) × Option (Finset LayoutId)}
    (hmode : SelectorMode service quick sides obsolete unseen selectors)
    {p : Path} {d : SaveGroupDescriptor} (hd : service.registry.groupForPath p = some d) :
    PathCompared service (quickSyncCall quick obsolete selectors) sides p
      ↔ LooksAt service quick sides obsolete unseen p d := by
  rw [LooksAt]
  cases hmode with
  | group groups hneeds hobsolete hgroups =>
    rw [pathCompared_group_iff hgroups hd]
    simp only [hneeds, hobsolete, not_false_eq_true, true_and, false_and, ne_eq, not_true_eq_false,
      or_false]
  | both groups layouts hneeds hmixed hgroups hlayouts =>
    have henabled : NamesLayout service sides.state quick.excludedLayouts unseen d.layoutId →
        service.layoutEnabled d.layoutId = true := by
      intro h
      obtain ⟨entry, -, heligible, -, hlayout⟩ := h
      rw [eligibleEntry, Bool.and_eq_true] at heligible
      exact hlayout ▸ heligible.2
    rw [pathCompared_layouts_iff hd, hlayouts]
    simp only [Option.some.injEq, forall_eq', hgroups, hneeds, hmixed, not_true_eq_false, true_and,
      false_and, and_false, false_or, or_false]
    tauto
  | layout layouts hneeds hmixed hlayouts =>
    have hnotGroup : ¬ (¬ NeedsLayouts service quick sides unseen ∧ obsolete = []) :=
      fun h => hneeds.elim h.1 (fun hne => hne h.2)
    rw [pathCompared_layouts_iff hd, hlayouts, ← and_assoc, and_iff_right hneeds]
    simp only [reduceCtorEq, false_implies, implies_true, and_true, hmixed, false_and, and_false,
      not_false_eq_true, true_and, false_or]
    exact ⟨fun h => Or.inr h, fun h => h.resolve_left fun h => hnotGroup ⟨h.1, h.2.1⟩⟩

/-- A pass with nothing to look at looks at nothing. -/
theorem not_looksAt_of_idle
    (hmode : SelectorMode service quick sides obsolete unseen (some ∅, none)) (p : Path)
    (d : SaveGroupDescriptor) : ¬ LooksAt service quick sides obsolete unseen p d := by
  cases hmode with
  | group groups hneeds hobsolete hgroups =>
    intro hlooks
    rcases hlooks with h | h | h
    · exact Finset.notMem_empty _ ((hgroups _).mpr h.2.2.1)
    · exact hneeds h.1
    · exact h.1.elim hneeds (fun hne => hne hobsolete)

end Compared

/-! ### What the new cursor passes -/

section Cursor

variable (service : Service) (quick : QuickSyncCall) (sides after : Sides)
variable (obsolete : List SaveConflictRecord) (document : Journal.Document) (cursor : ℕ)

/-- The entries of a journal that a cursor has not passed. -/
def unseenEntries : List Journal.Entry :=
  document.history.filter (fun entry => cursor < entry.generation)

/-- The groups an entry is about: the tracked group it names, or else its whole layout. -/
def AboutGroup (state : SaveSyncState) (entry : Journal.Entry) (d : SaveGroupDescriptor) : Prop :=
  if namesKnownGroup state entry then d.groupId = entryGroup entry
  else d.layoutId = entryLayout entry

instance (state : SaveSyncState) (entry : Journal.Entry) (d : SaveGroupDescriptor) :
    Decidable (AboutGroup state entry d) :=
  inferInstanceAs (Decidable (if namesKnownGroup state entry then d.groupId = entryGroup entry
    else d.layoutId = entryLayout entry))

/-- **What a cursor stands for.** Every path of every group that an entry between the old and
    the new cursor is about was compared in the pass, if the layout of the entry is enabled, and
    the group ended settled. -/
def CursorPassesReconciled : Prop :=
  ∀ g, after.state.quickSyncCursorGeneration = some g →
    ∀ entry ∈ document.history, cursor < entry.generation → entry.generation ≤ g →
      service.layoutEnabled (entryLayout entry) = true →
      ∀ p d, service.registry.groupForPath p = some d → AboutGroup sides.state entry d →
        ∃ call, plannedCall service quick sides obsolete (unseenEntries document cursor) = some call
          ∧ PathCompared service call sides p ∧ GroupSettled service call sides after d.groupId

/-- The pass looks at every path of every group that an unseen entry of an enabled layout is
    about. -/
def LooksAtUnseen : Prop :=
  ∀ entry ∈ unseenEntries document cursor, service.layoutEnabled (entryLayout entry) = true →
    ∀ p d, service.registry.groupForPath p = some d → AboutGroup sides.state entry d →
      LooksAt service quick sides obsolete (unseenEntries document cursor) p d

end Cursor

section Pass

variable {service : Service} {quick : QuickSyncCall} {env : ReconcileEnv} {sides after : Sides}
variable {obsolete : List SaveConflictRecord} {document : Journal.Document} {cursor : ℕ}

/-- The cursor of a sides record does not matter for what is settled. -/
theorem groupSettled_congr {call : ReconcileCall} {other : Sides} {gid : GroupId}
    (hlocal : other.localSide = after.localSide) (hremote : other.remoteSide = after.remoteSide)
    (hconflicts : other.state.conflicts = after.state.conflicts) :
    GroupSettled service call sides other gid ↔ GroupSettled service call sides after gid := by
  unfold GroupSettled SaveSyncState.activeConflicts
  rw [hlocal, hremote, hconflicts]

/-- What discovery answers on a readable journal. -/
theorem discover_cases {journal : Journal.File} (hload : Journal.load journal = .ok document) :
    (∃ reason, Journal.discover cursor journal = .requiresFullSync reason)
      ∨ (Journal.discover cursor journal = .unchanged ∧ document.generation = cursor)
      ∨ Journal.discover cursor journal = .unseen (unseenEntries document cursor) := by
  unfold Journal.discover
  rw [hload]
  dsimp only
  by_cases hsame : document.generation = cursor
  · exact Or.inr (Or.inl ⟨if_pos hsame, hsame⟩)
  · rw [if_neg hsame]
    split
    · exact Or.inl ⟨_, rfl⟩
    · split
      · exact Or.inl ⟨_, rfl⟩
      · exact Or.inr (Or.inr rfl)

/-- The planned call, and its selectors. -/
theorem plannedCall_cases {unseen : List Journal.Entry} :
    (plannedCall service quick sides obsolete unseen = none
        ∧ SelectorMode service quick sides obsolete unseen (some ∅, none))
      ∨ ∃ selectors, SelectorMode service quick sides obsolete unseen selectors
          ∧ plannedCall service quick sides obsolete unseen
            = some (quickSyncCall quick obsolete selectors) := by
  obtain ⟨scope, hscope, hmode⟩ := @selectorMode_of_pass service quick sides obsolete unseen
  unfold plannedCall
  rw [hscope]
  dsimp only
  split
  · next hidle =>
    have heq : passSelectors service quick sides obsolete scope = (some ∅, none) :=
      Prod.ext hidle.1 hidle.2
    exact Or.inl ⟨rfl, heq ▸ hmode⟩
  · exact Or.inr ⟨_, hmode, rfl⟩

/-- The groups an entry is about are about it with all their paths. -/
theorem aboutGroup_of_sameGroup {state : SaveSyncState} {entry : Journal.Entry} {p q : Path}
    {d e : SaveGroupDescriptor} (hd : service.registry.groupForPath p = some d)
    (he : service.registry.groupForPath q = some e) (hsame : e.groupId = d.groupId)
    (h : AboutGroup state entry d) : AboutGroup state entry e := by
  unfold AboutGroup at h ⊢
  split at h
  · next hknown => exact (if_pos hknown).symm ▸ hsame.trans h
  · next hunknown =>
    exact (if_neg hunknown).symm ▸ (service.registry.layout_of_group he hd hsame).trans h

/-- A pass over unseen entries that stores a cursor had nothing to look at, or ran the planned
    call. -/
theorem quickSyncEntries_stored {remoteGeneration : ℕ} {unseen : List Journal.Entry}
    {result : SaveQuickSyncResult}
    (hpass : quickSyncEntries service quick env sides obsolete cursor remoteGeneration unseen
      = .ok (result, after))
    (hstored : result.status = .unchanged ∨ result.status = .reconciled) :
    ∃ g, after.state.quickSyncCursorGeneration = some g ∧ remoteGeneration ≤ g
      ∧ (plannedCall service quick sides obsolete unseen = none
        ∨ ∃ call before obsolete', plannedCall service quick sides obsolete unseen = some call
            ∧ Completed service call env sides before obsolete' ∧ call.uploadOnly = false
            ∧ after.localSide = before.localSide ∧ after.remoteSide = before.remoteSide
            ∧ after.state.conflicts = before.state.conflicts) := by
  obtain ⟨scope, hscope, hmode⟩ :=
    @selectorMode_of_pass service quick sides obsolete unseen
  unfold quickSyncEntries at hpass
  unfold plannedCall
  rw [hscope] at hpass ⊢
  dsimp only at hpass ⊢
  split at hpass
  · next hidle =>
    cases hpass
    exact ⟨remoteGeneration, rfl, le_refl _, Or.inl (if_pos hidle)⟩
  · next hbusy =>
    rw [if_neg hbusy]
    split at hpass
    · cases hpass
    · cases hpass
      exact absurd hstored (by simp)
    · next report before hcall =>
      cases hpass
      obtain ⟨obsolete', hcompleted⟩ := reconcileOnce_completed _ _ _ _ hcall
      exact ⟨_, rfl, le_max_left _ _,
        Or.inr ⟨_, before, obsolete', rfl, hcompleted, rfl, rfl, rfl, rfl⟩⟩

theorem quickSync_stored {journal : Journal.File} {result : SaveQuickSyncResult}
    (hcursor : sides.state.quickSyncCursorGeneration = some cursor)
    (hload : Journal.load journal = .ok document)
    (hobsolete : service.obsoleteWholeLayoutConflicts sides.state quick.excludedLayouts
      (fun _ => true) = .ok obsolete)
    (hpass : quickSync service quick env journal sides = .ok (result, after))
    (hstored : result.status = .unchanged ∨ result.status = .reconciled) :
    document.generation = cursor
      ∨ quickSyncEntries service quick env sides obsolete cursor document.generation
          (unseenEntries document cursor) = .ok (result, after) := by
  unfold quickSync at hpass
  rw [hobsolete, hcursor] at hpass
  dsimp only at hpass
  split at hpass
  · cases hpass
  cases hready : sides.state.quickSyncReady with
  | false =>
    rw [hready] at hpass
    cases hpass
    exact absurd hstored (by simp)
  | true =>
    rw [hready] at hpass
    dsimp only at hpass
    rcases @discover_cases document cursor journal hload with ⟨reason, hd⟩ | ⟨-, hsame⟩ | hd
    · rw [hd] at hpass
      cases hpass
      exact absurd hstored (by simp)
    · exact Or.inl hsame
    · rw [hd, show journalGeneration journal = document.generation by rw [journalGeneration, hload]]
        at hpass
      exact Or.inr hpass

end Pass

/-! ### Two passes -/

/-- A peer's entry about a group of a layout. -/
def peerEntry (generation : ℕ) (layoutId : Text) (gid : GroupId) : Journal.Entry where
  generation := generation
  timestamp := ⟨"2024-01-01T00:00:00+00:00", by decide⟩
  deviceId := ⟨"desktop", by decide⟩
  revision := ⟨"r1", by decide⟩
  system := layoutId
  layoutId := layoutId
  groupId := some gid
  objectId := none
  operation := .update

/-- A peer updated the tracked group. -/
def zeldaJournal : Journal.Document where
  generation := 4
  history := [peerEntry 4 ⟨"snes", by decide⟩ "snes/zelda"]
  positive := by decide
  increasing := by decide
  retained := by decide

/-- A peer updated the tracked group and created one the device has never seen. -/
def mixedJournal : Journal.Document where
  generation := 5
  history := [peerEntry 4 ⟨"snes", by decide⟩ "snes/zelda",
    peerEntry 5 ⟨"gba", by decide⟩ "gba/metroid"]
  positive := by decide
  increasing := by decide
  retained := by decide

/-- A device that tracks one group, and a remote with a second one. -/
def followerSides : Sides where
  localSide := Manifest.ofArtifacts [⟨"snes/zelda.srm", 8192, "aa"⟩]
  remoteSide :=
    Manifest.ofArtifacts [⟨"gba/metroid.srm", 32768, "bb"⟩, ⟨"snes/zelda.srm", 8192, "cc"⟩]
  state := trackedState

def idleQuickSync : QuickSyncCall where
  isGroupActive := fun _ => false
  isLayoutActive := fun _ => false
  excludedLayouts := ∅

/-- Whether a pass stored a cursor, with sides that satisfy `p`. -/
def storesCursor (p : Sides → Bool) : Except SaveSyncError (SaveQuickSyncResult × Sides) → Bool
  | .ok (result, after) => result.status = .reconciled && p after
  | .error _ => false

theorem exists_of_storesCursor {p : Sides → Bool}
    {result : Except SaveSyncError (SaveQuickSyncResult × Sides)}
    (h : storesCursor p result = true) :
    ∃ answer after, result = .ok (answer, after) ∧ answer.status = .reconciled
      ∧ p after = true := by
  unfold storesCursor at h
  split at h
  · rw [Bool.and_eq_true, decide_eq_true_iff] at h
    exact ⟨_, _, rfl, h.1, h.2⟩
  · exact absurd h (by simp)

theorem twoLayout_groupForPath {p : Path} {d : SaveGroupDescriptor}
    (h : twoLayoutService.registry.groupForPath p = some d) :
    (p = "snes/zelda.srm" ∧ d = ⟨"snes/zelda", "snes", "snes", "", "", ""⟩)
      ∨ (p = "gba/metroid.srm" ∧ d = ⟨"gba/metroid", "gba", "gba", "", "", ""⟩) := by
  change (if p = "snes/zelda.srm" then _ else if p = "gba/metroid.srm" then _ else _) = _ at h
  split at h
  · next hp => exact Or.inl ⟨hp, (Option.some.inj h).symm⟩
  · split at h
    · next hp => exact Or.inr ⟨hp, (Option.some.inj h).symm⟩
    · cases h

end RomCloud.SaveSync
