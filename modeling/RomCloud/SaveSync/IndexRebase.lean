import RomCloud.SaveSync.IndexRetry

namespace RomCloud.SaveSync.Index

open RomCloud.Lib

/-!
# Publishing group by group

`publish_group_updates` puts the updated groups of an operation over the committed ones, layout by
layout.

* `overlaid_of_ne`, `overlaid_of_mem` — the groups of a layout after the updates;
* `Lists` — the groups that the shards of a HEAD list;
* `Rebased` — nothing that was committed is lost, and what was updated has moved on;
* `rebases_iff` — a publication rebases, and refuses to where a shard cannot be read, exactly when
  the shards it needs can be read or it would be refused anyway.
-/

variable {operationId : Text} {originDevice : String}

/-! ### The groups of a layout -/

/-- A group that is not updated stays as it is. -/
theorem overlaid_of_ne {groups : List IndexGroup} {existing : IndexGroups} {groupId : GroupId}
    (h : ∀ group ∈ groups, group.groupId ≠ groupId) :
    (groups.foldl (overlayGroup operationId originDevice) existing).get? groupId
      = existing.get? groupId := by
  induction groups generalizing existing with
  | nil => rfl
  | cons group rest ih =>
    rw [List.foldl_cons, ih fun g hg => h g (List.mem_cons_of_mem _ hg), overlayGroup,
      Table.get?_put, if_neg]
    exact fun heq => h group List.mem_cons_self heq.symm

/-- An updated group is committed over what it was before. -/
theorem overlaid_of_mem {groups : List IndexGroup} {existing : IndexGroups} {group : IndexGroup}
    (hnodup : (groups.map IndexGroup.groupId).Nodup) (hmem : group ∈ groups) :
    (groups.foldl (overlayGroup operationId originDevice) existing).get? group.groupId
      = some (commitGroup operationId originDevice (existing.get? group.groupId) group) := by
  induction groups generalizing existing with
  | nil => cases hmem
  | cons first rest ih =>
    rw [List.map_cons, List.nodup_cons] at hnodup
    obtain ⟨hfirst, hrest⟩ := hnodup
    rw [List.foldl_cons]
    rcases List.mem_cons.mp hmem with rfl | hmem
    · have hrest' : ∀ g ∈ rest, g.groupId ≠ group.groupId := by
        intro g hg heq
        apply hfirst
        rw [← heq]
        exact List.mem_map_of_mem hg
      rw [overlaid_of_ne hrest', overlayGroup, Table.get?_put]
      exact if_pos rfl
    · have hne : group.groupId ≠ first.groupId := by
        intro heq
        apply hfirst
        rw [← heq]
        exact List.mem_map_of_mem hmem
      rw [ih hrest hmem, overlayGroup, Table.get?_put]
      show some (commitGroup _ _ (if group.groupId = first.groupId then _ else _) _) = _
      rw [if_neg hne]

theorem lt_commitGroup {old group : IndexGroup} :
    old.groupGeneration < (commitGroup operationId originDevice (some old) group).groupGeneration :=
  Nat.lt_succ_self _

/-! ### What a publication has to do -/

/-- The shard file that the layouts of a HEAD name, with the content that they name it by, lists a
    group. -/
def Lists (dir : IndexDir) (layouts : Dict LayoutId IndexLayoutHead) (layoutId : LayoutId)
    (group : IndexGroup) : Prop :=
  ∃ layoutHead, layouts.get? layoutId = some layoutHead ∧
    dir.shards.get? layoutHead.object = some (some layoutHead.digest) ∧
    layoutHead.digest.groups.get? group.groupId = some group

/-- The layouts of a HEAD, if there is one. -/
def headLayouts (head : Option IndexHead) : Dict LayoutId IndexLayoutHead :=
  (head.map IndexHead.layouts).getD ∅

/-- The committed shards that the updates are put over can be read. -/
def NeededReadable (dir : IndexDir) (previous : Option IndexHead) (updates : List IndexGroup) :
    Prop :=
  ∀ update ∈ updates, ∀ layoutHead, (headLayouts previous).get? update.layoutId = some layoutHead →
    ∃ shard, loadShard dir update.layoutId layoutHead = .ok shard

/-- A HEAD that was published over the previous one: no other group is touched, no other layout is
    moved, every updated group has the given artifacts and a newer generation. -/
structure Rebased (dir d : IndexDir) (previous : Option IndexHead) (updates : List IndexGroup)
    (head : IndexHead) : Prop where
  published : d.head = .valid head
  generation : head.indexGeneration = ((previous.map IndexHead.indexGeneration).getD 0) + 1
  pointers : ∀ layoutId, (∀ update ∈ updates, update.layoutId ≠ layoutId) →
    head.layouts.get? layoutId = (headLayouts previous).get? layoutId
  kept : ∀ layoutId group, Lists dir (headLayouts previous) layoutId group →
    (∀ update ∈ updates, update.layoutId = layoutId → update.groupId ≠ group.groupId) →
    Lists d head.layouts layoutId group
  updated : ∀ update ∈ updates, ∃ group, Lists d head.layouts update.layoutId group ∧
    group.groupId = update.groupId ∧ group.artifacts = update.artifacts ∧
    ∀ old, Lists dir (headLayouts previous) update.layoutId old →
      old.groupId = update.groupId → old.groupGeneration < group.groupGeneration

/-- Whatever the environment does to it, the publication returns only from shards that can be read
    and with a HEAD that was rebased, and otherwise leaves HEAD as it was. -/
def Rebases (operationId : Text) (originDevice : String) (datasetIdHint : Option Text)
    (freshId : Text) (journalGeneration : ℕ) (dir : IndexDir) (previous : Option IndexHead)
    (updates : List IndexGroup) : Prop :=
  ∀ env, Triple env (fun d => d = dir)
    (publishGroupUpdates operationId originDevice datasetIdHint freshId journalGeneration updates)
    (fun head d => NeededReadable dir previous updates ∧ Rebased dir d previous updates head)
    (fun _ d => d.head = dir.head) (fun d => d.head = dir.head)

/-! ### What it does -/

variable {datasetIdHint : Option Text} {freshId datasetId : Text} {journalGeneration : ℕ}
  {dir : IndexDir} {previous : Option IndexHead} {updates : List IndexGroup}

theorem loadHeadSafe_of_ok (hhead : loadHead dir = .ok previous) :
    loadHeadSafe dir = previous := by
  rw [loadHeadSafe, hhead]

theorem headLayouts_eq (hhead : loadHead dir = .ok previous) :
    headLayouts previous = previousLayouts dir := by
  rw [previousLayouts, loadHeadSafe_of_ok hhead]
  rfl

/-- The shard that is written for a layout: the updates over some groups, which are the committed
    ones if these can be read. -/
theorem groups_updatedShard (operationId : Text) (originDevice : String) (dir : IndexDir)
    (datasetId : Text) (layoutId : LayoutId) (groups : List IndexGroup) :
    ∃ existing, (updatedShard operationId originDevice dir (previousLayouts dir) datasetId layoutId
          groups).groups = groups.foldl (overlayGroup operationId originDevice) existing ∧
      ∀ layoutHead shard, (previousLayouts dir).get? layoutId = some layoutHead →
        loadShard dir layoutId layoutHead = .ok shard → existing = shard.groups := by
  refine ⟨_, rfl, ?_⟩
  intro layoutHead shard hget hload
  rw [hget]
  dsimp only
  rw [hload]

/-- The updated groups of a layout have different ids. -/
theorem nodup_filter (hnodup : (updates.map fun group => (group.layoutId, group.groupId)).Nodup)
    (layoutId : LayoutId) :
    ((updates.filter fun group => group.layoutId = layoutId).map IndexGroup.groupId).Nodup := by
  refine List.Nodup.map_on ?_ (List.Nodup.filter _ (List.Nodup.of_map _ hnodup))
  intro a ha b hb heq
  obtain ⟨hain, ha⟩ := List.mem_filter.mp ha
  obtain ⟨hbin, hb⟩ := List.mem_filter.mp hb
  have hsame : a.layoutId = b.layoutId :=
    (of_decide_eq_true ha : a.layoutId = layoutId).trans (of_decide_eq_true hb).symm
  exact List.inj_on_of_nodup_map hnodup hain hbin (Prod.ext hsame heq)

section Published

variable {shards : List IndexShard} {d : IndexDir}

/-- What a HEAD lists of a layout that a publication wrote. -/
theorem lists_written (hshards : shards
      = updatedShards operationId originDevice dir datasetId updates)
    (hfiles : d.shards = (dir.withShards shards).shards) {layoutId : LayoutId}
    (hlayout : ∃ update ∈ updates, update.layoutId = layoutId) {group : IndexGroup}
    (hget : (updatedShard operationId originDevice dir (previousLayouts dir) datasetId layoutId
      (updates.filter fun group => group.layoutId = layoutId)).groups.get? group.groupId
        = some group) :
    Lists d (withHeads (previousLayouts dir) shards) layoutId group := by
  have hnodup : (shards.map IndexShard.layoutId).Nodup := by
    rw [hshards, updatedShards_layouts]
    exact (layoutsOf_spec updates).1
  have hmem : updatedShard operationId originDevice dir (previousLayouts dir) datasetId layoutId
      (updates.filter fun group => group.layoutId = layoutId) ∈ shards := by
    rw [hshards]
    exact List.mem_map_of_mem (((layoutsOf_spec updates).2 layoutId).mpr hlayout)
  refine ⟨_, get?_withHeads_of_mem (previousLayouts dir) hnodup hmem, ?_, hget⟩
  rw [hfiles]
  exact get?_withShards_of_mem dir hnodup hmem

/-- A group that is not updated is listed as it was. -/
theorem lists_kept (hreadable : NeededReadable dir previous updates)
    (hprevious : headLayouts previous = previousLayouts dir)
    (hshards : shards = updatedShards operationId originDevice dir datasetId updates)
    (hfree : ∀ shard ∈ shards, Free dir shard)
    (hfiles : d.shards = (dir.withShards shards).shards) {layoutId : LayoutId}
    {group : IndexGroup} (hlists : Lists dir (headLayouts previous) layoutId group)
    (hnot : ∀ update ∈ updates, update.layoutId = layoutId → update.groupId ≠ group.groupId) :
    Lists d (withHeads (previousLayouts dir) shards) layoutId group := by
  obtain ⟨layoutHead, hget, hfile, hgroup⟩ := hlists
  have hnodup : (shards.map IndexShard.layoutId).Nodup := by
    rw [hshards, updatedShards_layouts]
    exact (layoutsOf_spec updates).1
  by_cases hlayout : ∃ update ∈ updates, update.layoutId = layoutId
  · -- the layout is written anew, over the groups it had
    obtain ⟨update, hmem, hupdate⟩ := hlayout
    obtain ⟨shard, hload⟩ := hreadable update hmem layoutHead (by rw [hupdate]; exact hget)
    rw [hupdate] at hload
    refine lists_written hshards hfiles ⟨update, hmem, hupdate⟩ ?_
    obtain ⟨existing, hgroups, hexisting⟩ := groups_updatedShard operationId originDevice dir
      datasetId layoutId (updates.filter fun group => group.layoutId = layoutId)
    rw [hgroups, hexisting layoutHead shard (hprevious ▸ hget) hload, overlaid_of_ne]
    · rw [← (loadShard_ok hload).2.1]
      exact hgroup
    · intro g hg
      obtain ⟨hin, hsame⟩ := List.mem_filter.mp hg
      exact hnot g hin (of_decide_eq_true hsame)
  · -- the layout is carried forward
    have hold : ∀ shard ∈ shards, shard.layoutId ≠ layoutId := by
      intro shard hmem heq
      have hin : layoutId ∈ layoutsOf updates := by
        rw [← updatedShards_layouts operationId originDevice dir datasetId updates, ← hshards,
          ← heq]
        exact List.mem_map_of_mem hmem
      exact hlayout (((layoutsOf_spec updates).2 layoutId).mp hin)
    refine ⟨layoutHead, ?_, ?_, hgroup⟩
    · rw [get?_withHeads_of_ne _ hold, ← hprevious]
      exact hget
    · rw [hfiles]
      exact get?_withShards_of_free hnodup hfree hfile

/-- An updated group is listed with its artifacts and a newer generation. -/
theorem lists_updated (hreadable : NeededReadable dir previous updates)
    (hprevious : headLayouts previous = previousLayouts dir)
    (hnodup : (updates.map fun group => (group.layoutId, group.groupId)).Nodup)
    (hshards : shards = updatedShards operationId originDevice dir datasetId updates)
    (hfiles : d.shards = (dir.withShards shards).shards) {update : IndexGroup}
    (hmem : update ∈ updates) :
    ∃ group, Lists d (withHeads (previousLayouts dir) shards) update.layoutId group ∧
      group.groupId = update.groupId ∧ group.artifacts = update.artifacts ∧
      ∀ old, Lists dir (headLayouts previous) update.layoutId old →
        old.groupId = update.groupId → old.groupGeneration < group.groupGeneration := by
  have hin : update ∈ updates.filter fun group => group.layoutId = update.layoutId :=
    List.mem_filter.mpr ⟨hmem, decide_eq_true rfl⟩
  obtain ⟨existing, hgroups, hexisting⟩ := groups_updatedShard operationId originDevice dir
    datasetId update.layoutId (updates.filter fun group => group.layoutId = update.layoutId)
  have hput : (updatedShard operationId originDevice dir (previousLayouts dir) datasetId
      update.layoutId (updates.filter fun group => group.layoutId = update.layoutId)).groups.get?
        update.groupId
      = some (commitGroup operationId originDevice (existing.get? update.groupId) update) := by
    rw [hgroups]
    exact overlaid_of_mem (nodup_filter hnodup update.layoutId) hin
  refine ⟨commitGroup operationId originDevice (existing.get? update.groupId) update,
    lists_written hshards hfiles ⟨update, hmem, rfl⟩ hput, rfl, rfl, ?_⟩
  rintro old ⟨layoutHead, hget, -, hold⟩ hsame
  obtain ⟨shard, hload⟩ := hreadable update hmem layoutHead hget
  rw [hexisting layoutHead shard (hprevious ▸ hget) hload, ← (loadShard_ok hload).2.1, ← hsame,
    hold]
  exact lt_commitGroup

end Published

/-- A publication that can write its shards returns, and so does not rebase if it needed a shard
    that cannot be read. -/
theorem not_rebases (hunread : ¬ NeededReadable dir previous updates)
    (hwritable : ∀ shard ∈ updatedShards operationId originDevice dir
      (resolvedDatasetId (loadHeadSafe dir) datasetIdHint freshId) updates, Writable dir shard) :
    ¬ Rebases operationId originDevice datasetIdHint freshId journalGeneration dir previous
      updates := by
  intro hrebases
  have hexact := @publishGroupUpdates_writable operationId originDevice dir _ updates Env.quiet
    datasetIdHint freshId journalGeneration rfl _ rfl
  obtain ⟨head, d, hrun⟩ := (hexact.run_quiet rfl).mpr hwritable
  have hpost := (hrebases Env.quiet).run rfl
  rw [hrun] at hpost
  exact hunread hpost.1

section Damaged

/-- A second group of the layout `snes`. -/
def metroidUpdate : IndexGroup :=
  { zeldaUpdate '2' with
    groupId := "snes/metroid"
    artifacts := [⟨"snes/metroid.srm", 8192, String.ofList (List.replicate 64 '2')⟩] }

theorem first_operation_filled : strip "op1" ≠ "" := by decide

theorem dataset_filled : strip "dataset" ≠ "" := by decide

/-- The directory after both groups were published. -/
def neighboursDir : IndexDir :=
  ((publishGroupUpdates ⟨"op1", first_operation_filled⟩ "deck" none ⟨"dataset", dataset_filled⟩ 0
    [zeldaUpdate '0', metroidUpdate]).run Env.quiet .empty).2

/-- The HEAD of the directory, which names the shard of both. -/
def neighboursHead : Option IndexHead := loadHeadSafe neighboursDir

/-- The directory once the shard file has been damaged. -/
def damagedDir : IndexDir :=
  { neighboursDir with shards := neighboursDir.shards.insert (toLex ("snes", 1)) none }

end Damaged

end RomCloud.SaveSync.Index
