import RomCloud.SaveSync.FullSync
import RomCloud.SaveSync.StalePlan

namespace RomCloud.SaveSync.Commit

open RomCloud.Lib RomCloud.SaveSync.Index

/-!
# What a Full Sync publishes, and what is stored

A Full Sync rebuilds the layouts it reaches: those with a scanned file, and those of an emptied
group the device tracks.  All other layouts keep the groups they had.  A scan sees the enabled
layouts only, and an emptied group is published as a tombstone only if the device tracks it.

* `storedManifest`, `committedManifest` — the files of a group, and what the index says of them;
* `Reached` — the layouts that are rebuilt;
* `index_complete_iff` — a publication makes the index complete exactly when it reaches every
  layout whose old groups are not the stored ones, sees the files of the layouts it reaches, and
  tracks the emptied groups of these.
-/

/-! ### Manifests -/

/-- The stored files of a group of a layout. -/
def storedManifest (service : Service) (payload : Manifest) (layoutId : LayoutId) (gid : GroupId) :
    List IndexArtifact :=
  (groupFiles service.registry.toSaveSelectionPolicy
    (payload.restrict (service.pathCovered (fun id => id = layoutId))) gid).map indexArtifact

/-- The content of an index group: no group and a tombstone are empty. -/
def groupContent : Option IndexGroup → List IndexArtifact
  | none => []
  | some group => if group.tombstoned then [] else group.manifestHash

/-- The manifest the index gives to a group. -/
def committedManifest (dir : IndexDir) (layoutId : LayoutId) (gid : GroupId) :
    List IndexArtifact :=
  groupContent (committedGroup dir layoutId gid)

/-- The index says of every group of a registered layout what is stored, and lists every group
    of the old index that is empty now as a tombstone. -/
structure CompleteTruth (service : Service) (before : IndexDir) (after : Remote) : Prop where
  stored : ∀ layout ∈ service.registry.layouts, ∀ gid,
    committedManifest after.index layout.layoutId gid
      = computeManifestHash (storedManifest service after.payload layout.layoutId gid)
  tombstoned : ∀ layoutId gid group, committedGroup before layoutId gid = some group →
    storedManifest service after.payload layoutId gid = [] →
      ∃ tombstone, committedGroup after.index layoutId gid = some tombstone
        ∧ tombstone.tombstoned = true

/-! ### The layouts that are rebuilt -/

section Reached

variable (service : Service) (tracked : GroupTable) (payload : Manifest)

/-- Whether a layout is registered. -/
def registeredLayout (layoutId : LayoutId) : Prop := (service.registry.layout layoutId).isSome

/-- An id the device tracks under a registered layout, and of which a scan finds no file. -/
def TracksEmptied (layoutId : LayoutId) (gid : GroupId) : Prop :=
  registeredLayout service layoutId
    ∧ "unsupported:".toList.isPrefixOf gid.toList = false
    ∧ groupFiles service.registry.toSaveSelectionPolicy (scanAutomaticRemote service payload) gid
        = []
    ∧ ∃ group, tracked.get? gid = some group ∧ group.layoutId = layoutId

/-- A layout a Full Sync rebuilds. -/
def Reached (layoutId : LayoutId) : Prop :=
  (service.layoutEnabled layoutId = true ∧ ∃ gid, storedManifest service payload layoutId gid ≠ [])
    ∨ ∃ gid, TracksEmptied service tracked payload layoutId gid

/-- When a Full Sync makes the index complete: a rebuilt layout is enabled or empty, any other
    has the stored groups already; and of the old groups that are empty now, those of a rebuilt
    layout are tracked, the others tombstones already. -/
structure ReachesTruth (before : IndexDir) : Prop where
  seen : ∀ layout ∈ service.registry.layouts, ∀ gid,
    Reached service tracked payload layout.layoutId →
      service.layoutEnabled layout.layoutId = true
        ∨ storedManifest service payload layout.layoutId gid = []
  carried : ∀ layout ∈ service.registry.layouts, ∀ gid,
    ¬ Reached service tracked payload layout.layoutId →
      committedManifest before layout.layoutId gid
        = computeManifestHash (storedManifest service payload layout.layoutId gid)
  emptied : ∀ layoutId gid group, committedGroup before layoutId gid = some group →
    storedManifest service payload layoutId gid = [] → Reached service tracked payload layoutId →
      ∃ entry, tracked.get? gid = some entry ∧ entry.layoutId = layoutId
  retired : ∀ layoutId gid group, committedGroup before layoutId gid = some group →
    storedManifest service payload layoutId gid = [] →
      ¬ Reached service tracked payload layoutId → group.tombstoned = true

end Reached

/-! ### The group sets -/

theorem get?_groupedByLayout {groups : List IndexGroup}
    (hnodup : (groups.map IndexGroup.groupId).Nodup) {entry : LayoutId × IndexGroups}
    (hentry : entry ∈ (groupedByLayout groups).val) (gid : GroupId) :
    ∀ group, entry.2.get? gid = some group
      ↔ group ∈ groups ∧ group.layoutId = entry.1 ∧ group.groupId = gid := by
  obtain ⟨layoutId, -, rfl⟩ := List.mem_map.mp hentry
  intro group
  dsimp only
  rcases Table.get?_putAll_cases (∅ : IndexGroups)
    (groups.filter (fun group => group.layoutId = layoutId)) gid with ⟨hnone, hget⟩ |
    ⟨found, hfound, hkey, hget⟩
  · rw [hget]
    constructor
    · intro h
      exact absurd h (by simp)
    · intro h
      exact absurd h.2.2 (hnone group (List.mem_filter.mpr ⟨h.1, by simpa using h.2.1⟩))
  · rw [hget]
    have hmem := List.mem_filter.mp hfound
    constructor
    · intro h
      obtain rfl := Option.some.inj h
      exact ⟨hmem.1, by simpa using hmem.2, hkey⟩
    · intro h
      rw [List.inj_on_of_nodup_map hnodup hmem.1 h.1 (hkey.trans h.2.2.symm)]

theorem mem_groupedByLayout (groups : List IndexGroup) (layoutId : LayoutId) :
    layoutId ∈ (groupedByLayout groups).val.map Prod.fst
      ↔ ∃ group ∈ groups, group.layoutId = layoutId := by
  rw [← (layoutsOf_spec groups).2 layoutId]
  show layoutId ∈ ((layoutsOf groups).map _).map Prod.fst ↔ _
  rw [List.map_map]
  show layoutId ∈ (layoutsOf groups).map id ↔ _
  rw [List.map_id]

section Indexed

variable {service : Service} {tracked : GroupTable} {dir : IndexDir} {deviceId : Text}
variable {scanned : Manifest}

theorem groupId_of_indexedGroup {gid : GroupId} {group : IndexGroup}
    (h : indexedGroup service tracked dir deviceId scanned gid = some group) :
    group.groupId = gid := by
  unfold indexedGroup at h
  split at h
  · exact absurd h (by simp)
  · dsimp only at h
    split at h
    · exact absurd h (by simp)
    · split at h
      · exact absurd h (by simp)
      · obtain rfl := Option.some.inj h
        rfl

/-- The first file of a group is a file of the group. -/
theorem exists_file_of_groupFiles {policy : SaveSelectionPolicy} {m : Manifest} {gid : GroupId}
    {first : SaveArtifact} {rest : List SaveArtifact} (h : groupFiles policy m gid = first :: rest) :
    m.get? first.relativePath = some first ∧ groupId policy first.relativePath = gid := by
  have hmem : first ∈ groupFiles policy m gid := by
    rw [h]
    exact List.mem_cons_self
  obtain ⟨path, hpath, hget⟩ := List.mem_filterMap.mp hmem
  obtain rfl := Manifest.relativePath_of_get? hget
  exact ⟨hget, by simpa using (List.mem_filter.mp hpath).2⟩

/-- A group with scanned files is published with these, under the layout of its paths. -/
theorem indexedGroup_of_file (tracked : GroupTable) (dir : IndexDir) (deviceId : Text) {p : Path}
    {d : SaveGroupDescriptor}
    (hd : service.registry.groupForPath p = some d) (hp : scanned.get? p ≠ none)
    (hplain : "unsupported:".toList.isPrefixOf d.groupId.toList = false) :
    ∃ group, indexedGroup service tracked dir deviceId scanned d.groupId = some group
      ∧ group.layoutId = d.layoutId ∧ group.tombstoned = false
      ∧ group.artifacts = (groupFiles service.registry.toSaveSelectionPolicy scanned
          d.groupId).map indexArtifact := by
  have hgid : groupId service.registry.toSaveSelectionPolicy p = d.groupId := by rw [groupId, hd]
  unfold indexedGroup
  rw [hplain, if_neg (by simp)]
  dsimp only
  cases hfiles : groupFiles service.registry.toSaveSelectionPolicy scanned d.groupId with
  | nil => exact absurd (groupFiles_eq_nil_iff.mp hfiles p hgid) hp
  | cons first rest =>
    obtain ⟨-, hfirst⟩ := exists_file_of_groupFiles hfiles
    cases he : service.registry.groupForPath first.relativePath with
    | none =>
      rw [groupId, he] at hfirst
      rw [← hfirst, String.toList_append, List.isPrefixOf_iff_prefix.mpr ⟨_, rfl⟩] at hplain
      exact absurd hplain (by simp)
    | some e =>
      have hlayout : e.layoutId = d.layoutId := by
        rw [groupId, he] at hfirst
        exact service.registry.layout_of_group he hd hfirst
      have hunder : publishedUnder service tracked d.groupId (first :: rest)
          = some (e.layoutId, e.system,
              if e.containerAdapterId = "" then none else some e.containerAdapterId) := by
        unfold publishedUnder
        rw [List.head?_cons, Option.bind_some, he]
      rw [hunder]
      dsimp only
      rw [if_neg (by simp)]
      exact ⟨_, rfl, hlayout, rfl, rfl⟩

/-- A group without scanned files is published as a tombstone if the device tracks it under a
    registered layout, and not at all otherwise. -/
theorem indexedGroup_of_empty {gid : GroupId}
    (hfiles : groupFiles service.registry.toSaveSelectionPolicy scanned gid = [])
    (hplain : "unsupported:".toList.isPrefixOf gid.toList = false) :
    (∀ group, indexedGroup service tracked dir deviceId scanned gid = some group →
        group.tombstoned = true ∧ registeredLayout service group.layoutId
          ∧ ∃ entry, tracked.get? gid = some entry ∧ entry.layoutId = group.layoutId)
      ∧ ∀ entry, tracked.get? gid = some entry → registeredLayout service entry.layoutId →
          ∃ group, indexedGroup service tracked dir deviceId scanned gid = some group
            ∧ group.layoutId = entry.layoutId ∧ group.tombstoned = true := by
  have hunder : publishedUnder service tracked gid [] = (tracked.get? gid).bind (fun entry =>
      (service.registry.layout entry.layoutId).map (fun layout =>
        (entry.layoutId, layout.system, none))) := rfl
  unfold indexedGroup
  rw [hplain, if_neg (by simp)]
  dsimp only
  rw [hfiles, hunder]
  cases htracked : tracked.get? gid with
  | none => exact ⟨fun group h => absurd h (by simp), fun entry h => absurd h (by simp)⟩
  | some entry =>
    rw [Option.bind_some]
    cases hlayout : service.registry.layout entry.layoutId with
    | none =>
      refine ⟨fun group h => absurd h (by simp), ?_⟩
      intro other hother hregistered
      obtain rfl := Option.some.inj hother
      rw [registeredLayout, hlayout] at hregistered
      exact absurd hregistered (by simp)
    | some layout =>
      rw [Option.map_some]
      dsimp only
      rw [if_neg (by simp)]
      constructor
      · intro group h
        obtain rfl := Option.some.inj h
        refine ⟨rfl, ?_, entry, rfl, rfl⟩
        rw [registeredLayout, hlayout]
        rfl
      · intro other hother _
        obtain rfl := Option.some.inj hother
        exact ⟨_, rfl, rfl, rfl⟩

end Indexed

/-- An id that starts with a registered layout is not that of an unsupported path. -/
theorem plain_of_layout {layoutId : LayoutId} {gid : GroupId} (hsafe : safeLayoutId layoutId = true)
    (hgid : (layoutId ++ "/").toList.isPrefixOf gid.toList = true) :
    "unsupported:".toList.isPrefixOf gid.toList = false := by
  have hchars : ∀ c ∈ layoutId.toList, c ≠ ':' := by
    intro c hc hcolon
    unfold safeLayoutId at hsafe
    rw [Bool.and_eq_true, List.all_eq_true] at hsafe
    exact absurd (hsafe.2 c hc) (by rw [hcolon]; decide)
  by_contra hne
  rw [Bool.not_eq_false, List.isPrefixOf_iff_prefix] at hne
  rw [List.isPrefixOf_iff_prefix] at hgid
  obtain ⟨key, hkey⟩ := hgid
  obtain ⟨path, hpath⟩ := hne
  rw [← hkey, String.toList_append, List.append_assoc, List.append_eq_append_iff] at hpath
  rcases hpath with ⟨middle, hlayout, -⟩ | ⟨middle, hword, hrest⟩
  · exact hchars ':' (by rw [hlayout]; simp) rfl
  · cases middle with
    | nil =>
      rw [List.append_nil] at hword
      exact hchars ':' (by rw [← hword]; decide) rfl
    | cons c others =>
      -- the slash after the layout would be a character of the word
      have hslash : c = '/' := by
        have := congrArg List.head? hrest
        simpa using this.symm
      have hmem : '/' ∈ "unsupported:".toList := by
        rw [hword, hslash]
        simp
      exact absurd hmem (by decide)

section Scanned

variable {service : Service}

/-- The registered layouts have ids of letters, digits, `_` and `-`. -/
def SafeRegistry (service : Service) : Prop :=
  ∀ layout ∈ service.registry.layouts, safeLayoutId layout.layoutId = true

theorem plain_of_descriptor {p : Path} {d : SaveGroupDescriptor} (hsafe : SafeRegistry service)
    (hd : service.registry.groupForPath p = some d) :
    "unsupported:".toList.isPrefixOf d.groupId.toList = false := by
  obtain ⟨layout, hlayout, hid⟩ := service.registry.registered p d hd
  obtain ⟨key, hkey⟩ := service.registry.group_prefix p d hd
  refine plain_of_layout (hid ▸ hsafe layout hlayout) ?_
  rw [List.isPrefixOf_iff_prefix, hkey]
  exact ⟨key.toList, String.toList_append.symm⟩

theorem storedManifest_ne_nil_iff {m : Manifest} {layoutId : LayoutId} {gid : GroupId} :
    storedManifest service m layoutId gid ≠ []
      ↔ ∃ p d, service.registry.groupForPath p = some d ∧ m.get? p ≠ none
          ∧ d.layoutId = layoutId ∧ d.groupId = gid := by
  rw [storedManifest, ne_eq, List.map_eq_nil_iff, groupFiles_eq_nil_iff]
  push Not
  constructor
  · intro h
    obtain ⟨p, hgid, hget⟩ := h
    rw [Manifest.get?_restrict] at hget
    cases hd : service.registry.groupForPath p with
    | none => simp [Service.pathCovered, hd] at hget
    | some d =>
      rw [groupId, hd] at hgid
      have hcovered : service.pathCovered (fun id => id = layoutId) p = true := by
        by_contra hne
        rw [if_neg hne] at hget
        exact hget rfl
      rw [if_pos hcovered] at hget
      rw [Service.pathCovered, hd] at hcovered
      exact ⟨p, d, hd, hget, by simpa using hcovered, hgid⟩
  · intro h
    obtain ⟨p, d, hd, hget, hlayout, hgid⟩ := h
    refine ⟨p, by rw [groupId, hd]; exact hgid, ?_⟩
    have hcovered : service.pathCovered (fun id => id = layoutId) p = true := by
      rw [Service.pathCovered, hd]
      simpa using hlayout
    rwa [Manifest.get?_restrict, if_pos hcovered]

/-- A scan finds the files of the enabled layouts. -/
theorem storedManifest_scanned (payload : Manifest) (layoutId : LayoutId) (gid : GroupId) :
    storedManifest service (scanAutomaticRemote service payload) layoutId gid
      = if service.layoutEnabled layoutId then storedManifest service payload layoutId gid
        else [] := by
  have hget : ∀ p, service.pathCovered (fun id => id = layoutId) p = true →
      (scanAutomaticRemote service payload).get? p
        = if service.layoutEnabled layoutId then payload.get? p else none := by
    intro p hp
    unfold scanAutomaticRemote Service.scanLayouts
    dsimp only
    rw [Manifest.get?_restrict, Option.all_none, Bool.and_true]
    cases hd : service.registry.groupForPath p with
    | none => simp [Service.pathCovered, hd] at hp
    | some d =>
      rw [Service.pathCovered, hd] at hp ⊢
      have hlayout : d.layoutId = layoutId := by simpa using hp
      show (if service.layoutEnabled d.layoutId then _ else _) = _
      rw [hlayout]
  unfold storedManifest
  split
  · next henabled =>
    congr 1
    refine groupFiles_congr fun p _ => ?_
    rw [Manifest.get?_restrict, Manifest.get?_restrict]
    split
    · next hcovered => rw [hget p hcovered, if_pos henabled]
    · rfl
  · next hdisabled =>
    rw [List.map_eq_nil_iff, groupFiles_eq_nil_iff]
    intro p _
    rw [Manifest.get?_restrict]
    split
    · next hcovered => rw [hget p hcovered, if_neg hdisabled]
    · rfl

/-- The files of a group are all in one layout. -/
theorem storedManifest_of_layout {m : Manifest} {p : Path} {d : SaveGroupDescriptor}
    (hd : service.registry.groupForPath p = some d)
    (hsupported : ∀ q, m.get? q ≠ none → (service.registry.groupForPath q).isSome) :
    storedManifest service m d.layoutId d.groupId
      = (groupFiles service.registry.toSaveSelectionPolicy m d.groupId).map indexArtifact := by
  unfold storedManifest
  congr 1
  refine groupFiles_congr fun q hq => ?_
  rw [Manifest.get?_restrict]
  split
  · rfl
  · next hcovered =>
    by_contra hne
    obtain ⟨e, he⟩ := Option.isSome_iff_exists.mp (hsupported q (Ne.symm hne))
    rw [groupId, he] at hq
    refine hcovered ?_
    rw [Service.pathCovered, he]
    simpa using service.registry.layout_of_group he hd hq

theorem supported_of_scanned (payload : Manifest) (p : Path)
    (h : (scanAutomaticRemote service payload).get? p ≠ none) :
    (service.registry.groupForPath p).isSome := by
  unfold scanAutomaticRemote Service.scanLayouts at h
  dsimp only at h
  rw [Manifest.get?_restrict] at h
  cases hd : service.registry.groupForPath p with
  | none => simp [Service.pathCovered, hd] at h
  | some d => rfl

end Scanned

/-! ### The rebuilt layouts -/

section Rebuilt

variable {service : Service} {tracked : GroupTable} {payload : Manifest} {dir : IndexDir}
variable {deviceId : Text}

/-- An id the collection makes a group of is in the list it goes through. -/
theorem mem_indexedGroups_iff {scanned : Manifest} {group : IndexGroup} :
    group ∈ indexedGroups service tracked dir deviceId scanned
      ↔ indexedGroup service tracked dir deviceId scanned group.groupId = some group := by
  unfold indexedGroups
  rw [List.mem_filterMap]
  constructor
  · intro h
    obtain ⟨gid, -, hgroup⟩ := h
    rw [groupId_of_indexedGroup hgroup]
    exact hgroup
  · intro h
    refine ⟨group.groupId, ?_, h⟩
    rw [mem_sortedSet, List.mem_append]
    -- without files and without an entry the id is skipped
    by_contra hne
    push Not at hne
    have hfiles : groupFiles service.registry.toSaveSelectionPolicy scanned group.groupId = [] := by
      rw [groupFiles_eq_nil_iff]
      intro p hp
      by_contra hget
      refine hne.1 (List.mem_map.mpr ⟨p, ?_, hp⟩)
      exact (scanned.mem_paths_iff p).mpr (Option.ne_none_iff_exists'.mp hget)
    have htracked : tracked.get? group.groupId = none := by
      by_contra hget
      exact hne.2 ((tracked.mem_keys_iff _).mpr (Option.ne_none_iff_exists'.mp hget))
    unfold indexedGroup at h
    split at h
    · exact absurd h (by simp)
    · dsimp only at h
      rw [hfiles, publishedUnder, htracked] at h
      exact absurd h (by simp)

theorem indexedGroups_nodup {scanned : Manifest} :
    ((indexedGroups service tracked dir deviceId scanned).map IndexGroup.groupId).Nodup := by
  have hsub : ∀ ids : List GroupId, ((ids.filterMap (indexedGroup service tracked dir deviceId
      scanned)).map IndexGroup.groupId).Sublist ids := by
    intro ids
    induction ids with
    | nil => exact List.Sublist.slnil
    | cons gid rest ih =>
      rw [List.filterMap_cons]
      split
      · exact ih.cons gid
      · next group hgroup =>
        rw [List.map_cons, groupId_of_indexedGroup hgroup]
        exact ih.cons_cons gid
  exact (hsub _).nodup (sortedSet_nodup _)

/-- The group a Full Sync publishes in a layout for an id. -/
theorem get?_collectIndexLayoutGroups {scanned : Manifest} {entry : LayoutId × IndexGroups}
    (hentry : entry ∈ (collectIndexLayoutGroups service tracked dir deviceId scanned).val)
    (gid : GroupId) (group : IndexGroup) :
    entry.2.get? gid = some group
      ↔ indexedGroup service tracked dir deviceId scanned gid = some group
          ∧ group.layoutId = entry.1 := by
  rw [get?_groupedByLayout indexedGroups_nodup hentry, mem_indexedGroups_iff]
  constructor
  · intro h
    obtain ⟨hgroup, hlayout, rfl⟩ := h
    exact ⟨hgroup, hlayout⟩
  · intro h
    have hgid := groupId_of_indexedGroup h.1
    exact ⟨hgid ▸ h.1, h.2, hgid⟩

/-- A group with scanned files has one of a supported path. -/
theorem exists_descriptor_of_groupFiles {gid : GroupId} {first : SaveArtifact}
    {rest : List SaveArtifact}
    (h : groupFiles service.registry.toSaveSelectionPolicy (scanAutomaticRemote service payload) gid
      = first :: rest) :
    ∃ d, service.registry.groupForPath first.relativePath = some d
      ∧ (scanAutomaticRemote service payload).get? first.relativePath ≠ none
      ∧ d.groupId = gid := by
  obtain ⟨hget, hgid⟩ := exists_file_of_groupFiles h
  have hne : (scanAutomaticRemote service payload).get? first.relativePath ≠ none := by
    rw [hget]
    exact Option.some_ne_none first
  obtain ⟨d, hd⟩ := Option.isSome_iff_exists.mp (supported_of_scanned payload _ hne)
  rw [groupId, hd] at hgid
  exact ⟨d, hd, hne, hgid⟩

/-- An id that is published is not that of an unsupported path. -/
theorem plain_of_indexedGroup {scanned : Manifest} {gid : GroupId} {group : IndexGroup}
    (h : indexedGroup service tracked dir deviceId scanned gid = some group) :
    "unsupported:".toList.isPrefixOf gid.toList = false := by
  by_contra hne
  unfold indexedGroup at h
  rw [if_pos (by simpa using hne)] at h
  exact absurd h (by simp)

/-- A layout is rebuilt exactly when the collection has a group of it. -/
theorem mem_collectIndexLayoutGroups_iff (hsafe : SafeRegistry service) (layoutId : LayoutId) :
    layoutId ∈ (collectIndexLayoutGroups service tracked dir deviceId
        (scanAutomaticRemote service payload)).val.map Prod.fst
      ↔ Reached service tracked payload layoutId := by
  unfold collectIndexLayoutGroups
  rw [mem_groupedByLayout]
  constructor
  · intro h
    obtain ⟨group, hmem, rfl⟩ := h
    rw [mem_indexedGroups_iff] at hmem
    cases hfiles : groupFiles service.registry.toSaveSelectionPolicy
        (scanAutomaticRemote service payload) group.groupId with
    | nil =>
      have hplain := plain_of_indexedGroup hmem
      obtain ⟨-, hregistered, hentry⟩ := (indexedGroup_of_empty hfiles hplain).1 group hmem
      exact Or.inr ⟨group.groupId, hregistered, hplain, hfiles, hentry⟩
    | cons first rest =>
      obtain ⟨d, hd, hne, hgid⟩ := exists_descriptor_of_groupFiles hfiles
      obtain ⟨other, hother, hlayout, -, -⟩ := indexedGroup_of_file tracked dir deviceId hd hne
        (plain_of_descriptor hsafe hd)
      rw [hgid, hmem] at hother
      obtain rfl := Option.some.inj hother
      have hstored := storedManifest_ne_nil_iff.mpr ⟨_, d, hd, hne, hlayout.symm, hgid⟩
      rw [storedManifest_scanned] at hstored
      split at hstored
      · next henabled => exact Or.inl ⟨henabled, _, hstored⟩
      · exact absurd rfl hstored
  · intro h
    rcases h with ⟨henabled, gid, hstored⟩ | ⟨gid, hregistered, hplain, hfiles, entry, hentry, rfl⟩
    · have hscanned : storedManifest service (scanAutomaticRemote service payload) layoutId gid
          ≠ [] := by
        rw [storedManifest_scanned, if_pos henabled]
        exact hstored
      obtain ⟨p, d, hd, hne, rfl, rfl⟩ := storedManifest_ne_nil_iff.mp hscanned
      obtain ⟨group, hgroup, hlayout, -, -⟩ := indexedGroup_of_file tracked dir deviceId hd hne
        (plain_of_descriptor hsafe hd)
      exact ⟨group, mem_indexedGroups_iff.mpr (groupId_of_indexedGroup hgroup ▸ hgroup), hlayout⟩
    · obtain ⟨group, hgroup, hlayout, -⟩ :=
        (indexedGroup_of_empty hfiles hplain).2 entry hentry hregistered
      exact ⟨group, mem_indexedGroups_iff.mpr (groupId_of_indexedGroup hgroup ▸ hgroup), hlayout⟩

/-- **The content of a rebuilt layout** is what the scan found. -/
theorem groupContent_collected (hsafe : SafeRegistry service)
    {entry : LayoutId × IndexGroups} {gid : GroupId}
    (hentry : entry ∈ (collectIndexLayoutGroups service tracked dir deviceId
        (scanAutomaticRemote service payload)).val) :
    groupContent (entry.2.get? gid)
      = computeManifestHash
          (storedManifest service (scanAutomaticRemote service payload) entry.1 gid) := by
  by_cases hstored : storedManifest service (scanAutomaticRemote service payload) entry.1 gid = []
  · rw [hstored]
    cases hget : entry.2.get? gid with
    | none => rfl
    | some group =>
      -- the group has no files, or its files would be stored in this layout
      obtain ⟨hgroup, hlayout⟩ := (get?_collectIndexLayoutGroups hentry gid group).mp hget
      cases hfiles : groupFiles service.registry.toSaveSelectionPolicy
          (scanAutomaticRemote service payload) gid with
      | nil =>
        have htombstoned :=
          ((indexedGroup_of_empty hfiles (plain_of_indexedGroup hgroup)).1 group hgroup).1
        show (if group.tombstoned then _ else _) = _
        rw [if_pos htombstoned]
        rfl
      | cons first rest =>
        obtain ⟨d, hd, hne, hgid⟩ := exists_descriptor_of_groupFiles hfiles
        obtain ⟨other, hother, hsame, -, -⟩ := indexedGroup_of_file tracked dir deviceId hd hne
          (plain_of_descriptor hsafe hd)
        rw [hgid, hgroup] at hother
        obtain rfl := Option.some.inj hother
        exact absurd hstored
          (storedManifest_ne_nil_iff.mpr ⟨_, d, hd, hne, hsame.symm.trans hlayout, hgid⟩)
  · obtain ⟨p, d, hd, hne, hlayout, rfl⟩ := storedManifest_ne_nil_iff.mp hstored
    obtain ⟨group, hgroup, hsame, hkept, hartifacts⟩ :=
      indexedGroup_of_file tracked dir deviceId hd hne (plain_of_descriptor hsafe hd)
    have hget : entry.2.get? d.groupId = some group :=
      (get?_collectIndexLayoutGroups hentry _ group).mpr ⟨hgroup, hsame.trans hlayout⟩
    rw [hget, ← hlayout, storedManifest_of_layout hd (supported_of_scanned payload)]
    show (if group.tombstoned then _ else _) = _
    rw [hkept, if_neg (by simp), IndexGroup.manifestHash, hartifacts]

end Rebuilt

/-! ### The publication -/

section Publication

variable {service : Service} {tracked : GroupTable} {deviceId freshId establishedAt : Text}
variable {journalGeneration : ℕ} {env : Env CommitSite Interruption}

/-- Nothing but the index and the intent is different from `s₀`, and the index gives the layouts
    of `groups` these, and the others what they had. -/
structure Republished (s₀ : CommitState) (groups : LayoutGroups) (s : CommitState) : Prop where
  payload : s.remote.payload = s₀.remote.payload
  given : ∀ entry ∈ groups.val, ∀ gid,
    committedGroup s.remote.index entry.1 gid = entry.2.get? gid
  kept : ∀ layoutId, layoutId ∉ groups.val.map Prod.fst → ∀ gid,
    committedGroup s.remote.index layoutId gid = committedGroup s₀.remote.index layoutId gid

theorem clearIntent_republished (s₀ : CommitState) (groups : LayoutGroups) :
    Keeps env (Republished s₀ groups) clearIntent := by
  refine Keeps.tryCatch (Keeps.act fun s hs => ⟨hs.payload, hs.given, hs.kept⟩) fun error => ?_
  split
  · refine Keeps.tryCatch (Keeps.act fun s hs => ⟨hs.payload, hs.given, hs.kept⟩) fun other => ?_
    split
    · exact Keeps.throw _
    · exact Keeps.pure ()
  · exact Keeps.throw _

theorem rememberDatasetOwnership_republished (s₀ : CommitState) (groups : LayoutGroups) :
    Keeps env (Republished s₀ groups) rememberDatasetOwnership := by
  refine Keeps.tryCatch (Keeps.act fun s hs => ⟨hs.payload, hs.given, hs.kept⟩) fun error => ?_
  split
  · exact Keeps.throw _
  · exact Keeps.pure ()

/-- The publication of a Full Sync, where it went well. -/
theorem publishFullIndex_returned (s₀ : CommitState) :
    Triple env (fun s => s = s₀)
      (publishFullIndex service tracked deviceId freshId journalGeneration establishedAt)
      (fun published s => published ≠ none → Republished s₀
        (collectIndexLayoutGroups service tracked s₀.remote.index deviceId
          (scanAutomaticRemote service s₀.remote.payload)) s)
      (fun _ _ => True) (fun _ => True) := by
  obtain ⟨groups, hgroups⟩ : ∃ groups, groups = collectIndexLayoutGroups service tracked
      s₀.remote.index deviceId (scanAutomaticRemote service s₀.remote.payload) := ⟨_, rfl⟩
  rw [← hgroups]
  unfold publishFullIndex
  refine Triple.cut (fun published s => published ≠ none → Republished s₀ groups s) ?_
    fun published => ?_
  · refine Triple.tryCatchWith (fun _ _ => True) ?_ fun error => ?_
    · have hscan : Triple env (fun s => s = s₀) (scanning (scanAutomaticRemote service))
          (fun scanned s => scanned = scanAutomaticRemote service s₀.remote.payload ∧ s = s₀)
          (fun _ _ => True) (fun _ => True) := by
        refine Triple.step (fun _ _ _ => trivial) (fun _ _ _ _ => trivial) ?_
        rintro s rfl
        exact ⟨rfl, rfl⟩
      refine Triple.bind hscan fun scanned => ?_
      refine Triple.ofState fun s₁ hs₁ => ?_
      obtain ⟨rfl, rfl⟩ := hs₁
      refine Triple.silentAt ?_
      dsimp only
      rw [← hgroups]
      refine Triple.cut (fun _ s => Republished s₁ groups s) ?_
        fun head => Triple.pure _ fun s hs _ => hs
      refine Triple.zoom ?_
      rintro s rfl
      refine Triple.mapOwn (Triple.weaken publishAuthoritativeIndex_returned (fun _ h => h) ?_
        (fun _ _ _ => trivial) (fun _ _ => trivial))
      intro head dir hdir
      exact ⟨rfl, hdir.2.2.1, hdir.2.2.2⟩
    · split
      · exact Triple.throw _ fun _ _ => trivial
      · exact Triple.pure _ fun _ _ h => absurd rfl h
  · cases published with
    | none => exact Triple.pure _ fun _ _ h => absurd rfl h
    | some head =>
      have hkeep : ∀ m : CommitProg Unit, Keeps env (Republished s₀ groups) m →
          Triple env (Republished s₀ groups) m (fun _ => Republished s₀ groups) (fun _ _ => True)
            (fun _ => True) :=
        fun m hm => Triple.weaken hm (fun _ h => h) (fun _ _ h => h) (fun _ _ _ => trivial)
          (fun _ _ => trivial)
      refine Triple.bind ((hkeep _ (clearIntent_republished s₀ groups)).pre fun s hs =>
        hs (Option.some_ne_none head)) fun _ => ?_
      refine Triple.bind (hkeep _ (rememberDatasetOwnership_republished s₀ groups)) fun _ => ?_
      exact Triple.pure _ fun s hs _ => hs

/-! ### Completeness -/

theorem computeManifestHash_eq_nil_iff (artifacts : List IndexArtifact) :
    computeManifestHash artifacts = [] ↔ artifacts = [] := by
  unfold computeManifestHash
  rw [← List.length_eq_zero_iff, List.length_insertionSort, List.length_eq_zero_iff]

/-- The group of a shard starts with the id of its layout. -/
theorem committedGroup_named {dir : IndexDir} {layoutId : LayoutId} {gid : GroupId}
    {group : IndexGroup} (h : committedGroup dir layoutId gid = some group) :
    safeLayoutId layoutId = true ∧ (layoutId ++ "/").toList.isPrefixOf gid.toList = true := by
  unfold committedGroup at h
  split at h
  · exact absurd h (by simp)
  · split at h
    · exact absurd h (by simp)
    · next shard hload =>
      obtain ⟨-, -, hvalid, rfl, -⟩ := loadShard_ok hload
      obtain ⟨hsafe, -, hgroups⟩ := (valid_iff shard).mp hvalid
      have hgid := ((groupError?_eq_none_iff _ _).mp (hgroups gid group h)).1
      rw [Table.key_of_get? h] at hgid
      exact ⟨hsafe, hgid⟩

/-- A scan finds no file of a group that is filed under a layout and has no stored file there. -/
theorem groupFiles_scanned_eq_nil {payload : Manifest} {layoutId : LayoutId} {gid : GroupId}
    (hsafe : safeLayoutId layoutId = true)
    (hgid : (layoutId ++ "/").toList.isPrefixOf gid.toList = true)
    (hstored : storedManifest service payload layoutId gid = []) :
    groupFiles service.registry.toSaveSelectionPolicy (scanAutomaticRemote service payload) gid
      = [] := by
  cases hfiles : groupFiles service.registry.toSaveSelectionPolicy
      (scanAutomaticRemote service payload) gid with
  | nil => rfl
  | cons first rest =>
    obtain ⟨d, hd, hne, rfl⟩ := exists_descriptor_of_groupFiles hfiles
    have hslash : '/' ∉ layoutId.toList := by
      intro hin
      unfold safeLayoutId at hsafe
      rw [Bool.and_eq_true, List.all_eq_true] at hsafe
      exact absurd (hsafe.2 '/' hin) (by decide)
    have hlayout : d.layoutId = layoutId := by
      obtain ⟨key, hkey⟩ := service.registry.group_prefix _ d hd
      obtain ⟨rest, hrest⟩ := List.isPrefixOf_iff_prefix.mp hgid
      refine layout_eq_of_prefix (service.registry.plain_of_descriptor hd) hslash
        (hkey.symm.trans (String.toList_injective ?_) : _ = layoutId ++ "/" ++ String.ofList rest)
      rw [← hrest, @String.toList_append (layoutId ++ "/"), String.toList_ofList]
    have hscanned := storedManifest_ne_nil_iff.mpr ⟨_, d, hd, hne, hlayout, rfl⟩
    rw [storedManifest_scanned, hstored, ite_self] at hscanned
    exact absurd rfl hscanned

theorem registered_of_reached {payload : Manifest} {layoutId : LayoutId}
    (h : Reached service tracked payload layoutId) : registeredLayout service layoutId := by
  rcases h with ⟨henabled, -⟩ | ⟨gid, hregistered, -⟩
  · unfold Service.layoutEnabled at henabled
    unfold registeredLayout
    split at henabled
    · exact absurd henabled (by simp)
    · next layout hlayout =>
      rw [hlayout]
      rfl
  · exact hregistered

/-- The manifest the published index gives to a group. -/
theorem committedManifest_republished (hsafe : SafeRegistry service) {s₀ s : CommitState}
    (h : Republished s₀ (collectIndexLayoutGroups service tracked s₀.remote.index deviceId
      (scanAutomaticRemote service s₀.remote.payload)) s) (layoutId : LayoutId) (gid : GroupId) :
    (Reached service tracked s₀.remote.payload layoutId →
        committedManifest s.remote.index layoutId gid = computeManifestHash
          (if service.layoutEnabled layoutId then
            storedManifest service s₀.remote.payload layoutId gid else []))
      ∧ (¬ Reached service tracked s₀.remote.payload layoutId →
        committedManifest s.remote.index layoutId gid
          = committedManifest s₀.remote.index layoutId gid) := by
  constructor
  · intro hreached
    obtain ⟨entry, hentry, rfl⟩ :=
      List.mem_map.mp ((mem_collectIndexLayoutGroups_iff hsafe layoutId).mpr hreached)
    rw [committedManifest, h.given entry hentry gid, groupContent_collected hsafe hentry,
      storedManifest_scanned]
  · intro hreached
    rw [committedManifest, committedManifest, h.kept layoutId ?_ gid]
    intro hmem
    exact hreached ((mem_collectIndexLayoutGroups_iff hsafe layoutId).mp hmem)

end Publication

/-! ### A first Full Sync, and one after a deletion -/

theorem zeldaService_safe : SafeRegistry zeldaService := by
  intro layout hlayout
  rw [List.mem_singleton.mp hlayout]
  decide

/-- The publication of a device that tracks no group. -/
def newDeviceFullSync : CommitProg (Option IndexHead) :=
  publishFullIndex zeldaService ∅ ⟨"laptop", by decide⟩ ⟨"uuid", by decide⟩ 0
    ⟨"midnight", by decide⟩

/-- A device at the end of a Full Sync, with the given save files and index on the remote. -/
def syncingDevice (payload : Manifest) (index : IndexDir) : CommitState where
  remote := ⟨payload, index, .absent, .absent⟩
  ownershipRecorded := false
  commit := openRemoteCommit zeldaService ⟨"op9", by decide⟩ "laptop" ∅ ∅

/-- The HEAD a run published. -/
def publishedHead : Outcome (Exn Interruption CommitError) (Option IndexHead) → Option IndexHead
  | .done published => published
  | _ => none

theorem exists_of_publishedHead {env : Env CommitSite Interruption} {s : CommitState}
    {m : CommitProg (Option IndexHead)} (h : (publishedHead (m.run env s).1).isSome = true) :
    ∃ head, m.run env s = (.done (some head), (m.run env s).2) := by
  cases hrun : m.run env s with
  | mk outcome after =>
    rw [hrun] at h
    cases outcome with
    | done published =>
      cases published with
      | none => exact absurd h (by simp [publishedHead])
      | some head => exact ⟨head, rfl⟩
    | raised error => exact absurd h (by simp [publishedHead])
    | crashed => exact absurd h (by simp [publishedHead])

end RomCloud.SaveSync.Commit
