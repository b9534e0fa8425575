import RomCloud.SaveSync.IndexPublication

namespace RomCloud.SaveSync.Index

open RomCloud.Lib

/-!
# Publishing after an interrupted publication

A publication that stops between its shard writes and HEAD leaves shard files that no HEAD names.
The next publication of the same layout needs the same file name.

* `Publication`, `Reachable` — the two publications and the directories that any number of them,
  interrupted anywhere, can leave;
* `Publication.Describes` — HEAD describes exactly the result of a publication;
* `publication_succeeds_iff` — a publication succeeds exactly when no such file is in its way.
-/

/-- The two publications, with their arguments. -/
inductive Publication
  | groupUpdates (datasetIdHint : Option Text) (freshId : Text) (journalGeneration : ℕ)
      (updatedGroups : List IndexGroup) (operationId : Text) (originDevice : String)
  | authoritative (datasetIdHint : Option Text) (freshId : Text) (journalGeneration : ℕ)
      (layoutGroups : LayoutGroups) (deviceId establishedAt : Text)

namespace Publication

/-- The program a publication runs. -/
def program : Publication → IndexProg IndexHead
  | groupUpdates datasetIdHint freshId journalGeneration updatedGroups operationId originDevice =>
    publishGroupUpdates operationId originDevice datasetIdHint freshId journalGeneration
      updatedGroups
  | authoritative datasetIdHint freshId journalGeneration layoutGroups deviceId establishedAt =>
    publishAuthoritativeIndex datasetIdHint freshId journalGeneration layoutGroups deviceId
      establishedAt

/-- A publication of groups that can be read back. -/
def Valid : Publication → Prop
  | groupUpdates _ _ _ updatedGroups _ _ => UpdatesValid updatedGroups
  | authoritative _ _ _ layoutGroups _ _ => GroupSetsValid layoutGroups

def journalGeneration : Publication → ℕ
  | groupUpdates _ _ journalGeneration _ _ _ => journalGeneration
  | authoritative _ _ journalGeneration _ _ _ => journalGeneration

/-- The dataset id a publication writes. -/
def datasetId (dir : IndexDir) : Publication → Text
  | groupUpdates datasetIdHint freshId _ _ _ _ =>
    resolvedDatasetId (loadHeadSafe dir) datasetIdHint freshId
  | authoritative datasetIdHint freshId _ _ _ _ =>
    resolvedDatasetId (loadHeadSafe dir) datasetIdHint freshId

/-- The shards a publication has to store: one for each layout it changes, numbered after the
    committed one. -/
def shards (dir : IndexDir) (publication : Publication) : List IndexShard :=
  match publication with
  | groupUpdates _ _ _ updatedGroups operationId originDevice =>
    updatedShards operationId originDevice dir (publication.datasetId dir) updatedGroups
  | authoritative _ _ _ layoutGroups _ _ =>
    rebuiltShards dir (publication.datasetId dir) layoutGroups

/-- **What a publication has to commit** for a group: an update counts on from the committed
    group, an authoritative index replaces the groups of its layouts, and everything else stays. -/
def result (dir : IndexDir) (layoutId : LayoutId) (groupId : GroupId) :
    Publication → Option IndexGroup
  | groupUpdates _ _ _ updatedGroups operationId originDevice =>
    updatedGroups.foldl (fun committed group =>
      if group.layoutId = layoutId ∧ group.groupId = groupId then
        some (commitGroup operationId originDevice committed group)
      else committed) (committedGroup dir layoutId groupId)
  | authoritative _ _ _ layoutGroups _ _ =>
    match layoutGroups.val.find? (fun entry => entry.1 = layoutId) with
    | some entry => entry.2.get? groupId
    | none => committedGroup dir layoutId groupId

/-- HEAD describes exactly the result of a publication: it is the one that was returned, every
    shard it names can be read, and the groups are those the publication has to commit. -/
structure Describes (publication : Publication) (dir after : IndexDir) (head : IndexHead) :
    Prop where
  published : loadHeadStrict after = .ok head
  journal : head.journalGeneration = publication.journalGeneration
  readable : ∀ layoutId layoutHead, head.layouts.get? layoutId = some layoutHead →
    ∃ shard, loadShard after layoutId layoutHead = .ok shard
  groups : ∀ layoutId groupId,
    committedGroup after layoutId groupId = publication.result dir layoutId groupId

/-- Left alone, a publication returns, and HEAD describes its result. -/
def Succeeds (publication : Publication) (dir : IndexDir) : Prop :=
  ∃ head after, publication.program.run Env.quiet dir = (.done head, after)
    ∧ publication.Describes dir after head

/-- No file with other content stands where a publication stores its shards. -/
def Unobstructed (publication : Publication) (dir : IndexDir) : Prop :=
  ∀ shard ∈ publication.shards dir, Free dir shard

end Publication

/-- The directories that publications can leave, each stopped by any crash or error. -/
inductive Reachable : IndexDir → Prop
  | empty : Reachable .empty
  | publish {dir : IndexDir} (h : Reachable dir) (publication : Publication)
      (hvalid : publication.Valid) (env : Env Site Interruption) :
      Reachable (publication.program.run env dir).2

/-! ### Every HEAD can be read -/

/-- Every shard that HEAD names can be read. -/
def Readable (dir : IndexDir) : Prop :=
  ∀ layoutId layoutHead, (previousLayouts dir).get? layoutId = some layoutHead →
    ∃ shard, loadShard dir layoutId layoutHead = .ok shard

section Readable

variable {dir : IndexDir} {publication : Publication}

theorem shards_nodup : ((publication.shards dir).map IndexShard.layoutId).Nodup := by
  cases publication with
  | groupUpdates hint freshId generation groups operationId device =>
    rw [Publication.shards, updatedShards_layouts]
    exact (layoutsOf_spec groups).1
  | authoritative hint freshId generation groups device establishedAt =>
    exact rebuiltShards_nodup

theorem shards_valid (h : publication.Valid) :
    ∀ shard ∈ publication.shards dir, shard.Valid := by
  cases publication with
  | groupUpdates hint freshId generation groups operationId device => exact updatedShards_valid h
  | authoritative hint freshId generation groups device establishedAt =>
    exact rebuiltShards_valid h

/-- The HEAD of a publication. -/
def Publication.head (dir : IndexDir) : Publication → IndexHead
  | .groupUpdates hint freshId generation groups operationId device =>
    let publication := Publication.groupUpdates hint freshId generation groups operationId device
    updatedHead dir (publication.datasetId dir) generation (publication.shards dir)
  | .authoritative hint freshId generation groups device establishedAt =>
    let publication := Publication.authoritative hint freshId generation groups device establishedAt
    rebuiltHead dir (publication.datasetId dir) generation (publication.shards dir)

theorem head_layouts : (publication.head dir).layouts
    = withHeads (previousLayouts dir) (publication.shards dir) := by
  cases publication <;> rfl

theorem head_journal :
    (publication.head dir).journalGeneration = publication.journalGeneration := by
  cases publication <;> rfl

/-- What a publication needs: free files, and an authoritative one also readable layouts to carry
    forward. -/
def Publication.Ready (publication : Publication) (dir : IndexDir) : Prop :=
  publication.Unobstructed dir ∧
    match publication with
    | .groupUpdates .. => True
    | .authoritative .. => CarriedReadable dir (publication.shards dir)

/-- **Both publications** succeed exactly when they are ready, and leave a partial result of a
    known form otherwise. -/
theorem publication_exact (hvalid : publication.Valid) (env : Env Site Interruption) :
    Exact env (fun d => d = dir) publication.program (publication.Ready dir)
      (fun head d => head = publication.head dir
        ∧ d.shards = (dir.withShards (publication.shards dir)).shards ∧ d.head = .valid head)
      (InterruptedRebuild dir (publication.shards dir) (publication.head dir)) := by
  cases publication with
  | groupUpdates hint freshId generation groups operationId device =>
    refine (publishGroupUpdates_exact hvalid rfl rfl).weaken (fun _ h => h)
      (iff_of_eq (and_true _)).symm ?_ (fun _ h => Or.inl h)
    rintro head d - ⟨rfl, -, hshards, hhead⟩
    exact ⟨rfl, hshards, hhead⟩
  | authoritative hint freshId generation groups device establishedAt =>
    refine (publishAuthoritativeIndex_exact hvalid rfl rfl rfl).weaken (fun _ h => h) Iff.rfl ?_
      (fun _ h => h)
    rintro head d - ⟨rfl, -, hshards, hhead⟩
    exact ⟨rfl, hshards, hhead⟩

/-- Shard writes over free names keep HEAD readable. -/
theorem readable_of_interrupted {d : IndexDir} (h : Readable dir)
    (hd : Interrupted dir (publication.shards dir) d) : Readable d := by
  obtain ⟨-, hhead, done, rest, hsplit, hdone, hshards⟩ := hd
  have hnodup : (done.map IndexShard.layoutId).Nodup := by
    have := @shards_nodup dir publication
    rw [hsplit, List.map_append, List.nodup_append] at this
    exact this.1
  have hlayouts : previousLayouts d = previousLayouts dir := by
    unfold previousLayouts loadHeadSafe loadHead
    rw [hhead]
  intro layoutId layoutHead hget
  rw [hlayouts] at hget
  obtain ⟨shard, hload⟩ := h layoutId layoutHead hget
  refine ⟨shard, ?_⟩
  rw [← hload]
  refine loadShard_of_files ?_
  have hfile := (loadShard_ok hload).1
  rw [hfile, hshards]
  exact get?_withShards_of_free hnodup hdone hfile

/-- After HEAD was written it can be read, if the layouts carried forward could be. -/
theorem readable_of_published {d : IndexDir} (hvalid : publication.Valid) (h : Readable dir)
    (hshards : d.shards = (dir.withShards (publication.shards dir)).shards)
    (hhead : d.head = .valid (publication.head dir)) : Readable d := by
  have hpasses := withHeads_valid head_layouts (@shards_nodup dir publication) (shards_valid hvalid)
  have hload := loadHeadSafe_eq_some.mpr ⟨hhead, hpasses⟩
  have herror := (shardError?_published hshards head_layouts (@shards_nodup dir publication)
    (shards_valid hvalid)).mpr fun layoutId layoutHead hget _ => h layoutId layoutHead hget
  intro layoutId layoutHead hget
  rw [previousLayouts, hload] at hget
  exact (shardError?_eq_none_iff d _).mp herror layoutId layoutHead hget

/-- **However publications are interrupted, HEAD can be read.** -/
theorem Reachable.readable (h : Reachable dir) : Readable dir := by
  induction h with
  | empty =>
    intro layoutId layoutHead hget
    exact absurd hget (by simp [previousLayouts, loadHeadSafe, loadHead, IndexDir.empty])
  | @publish dir _ publication hvalid env ih =>
    have hexact : Exact env (fun d => d = dir) _ _ _ _ := publication_exact hvalid env
    have hrun := hexact.run rfl
    revert hrun
    generalize publication.program.run env dir = r
    obtain ⟨o, d⟩ := r
    have hrebuild : InterruptedRebuild dir (publication.shards dir) (publication.head dir) d →
        Readable d := by
      intro hd
      rcases hd with hd | ⟨-, -, hshards, hhead⟩
      · exact readable_of_interrupted ih hd
      · exact readable_of_published hvalid ih hshards hhead
    cases o with
    | done head =>
      rintro ⟨-, rfl, hshards, hhead⟩
      exact readable_of_published hvalid ih hshards hhead
    | raised e => exact fun hd => hrebuild hd.1
    | crashed => exact fun hd => hrebuild hd.1

end Readable

/-! ### A publication that succeeds publishes its result -/

section Result

variable {dir : IndexDir} {publication : Publication}

/-- The groups of a layout after its updates. -/
theorem get?_overlayGroups (operationId : Text) (originDevice : String)
    (groups : List IndexGroup) (layoutId : LayoutId) (groupId : GroupId) (existing : IndexGroups) :
    ((groups.filter (fun group => group.layoutId = layoutId)).foldl
        (overlayGroup operationId originDevice) existing).get? groupId
      = groups.foldl (fun committed group =>
          if group.layoutId = layoutId ∧ group.groupId = groupId then
            some (commitGroup operationId originDevice committed group)
          else committed) (existing.get? groupId) := by
  induction groups generalizing existing with
  | nil => rfl
  | cons group rest ih =>
    rw [List.foldl_cons]
    by_cases hlayout : group.layoutId = layoutId
    · rw [List.filter_cons, if_pos (decide_eq_true hlayout), List.foldl_cons, ih]
      have hget : (overlayGroup operationId originDevice existing group).get? groupId
          = if group.layoutId = layoutId ∧ group.groupId = groupId then
              some (commitGroup operationId originDevice (existing.get? groupId) group)
            else existing.get? groupId := by
        have hkey : (commitGroup operationId originDevice (existing.get? group.groupId)
            group).groupId = group.groupId := rfl
        rw [overlayGroup, Table.get?_put, hkey]
        by_cases hgroup : group.groupId = groupId
        · subst hgroup
          rw [if_pos rfl, if_pos ⟨hlayout, rfl⟩]
        · rw [if_neg (Ne.symm hgroup), if_neg fun h => hgroup h.2]
      rw [hget]
    · rw [List.filter_cons_of_neg (by simpa using hlayout), if_neg fun h => hlayout h.1]
      exact ih existing

/-- A layout without updates is left alone. -/
theorem foldl_updates_of_ne (operationId : Text) (originDevice : String)
    {groups : List IndexGroup} {layoutId : LayoutId} (groupId : GroupId)
    (h : ∀ group ∈ groups, group.layoutId ≠ layoutId) (before : Option IndexGroup) :
    groups.foldl (fun committed group =>
        if group.layoutId = layoutId ∧ group.groupId = groupId then
          some (commitGroup operationId originDevice committed group)
        else committed) before = before := by
  induction groups with
  | nil => rfl
  | cons group rest ih =>
    rw [List.foldl_cons, if_neg fun heq => h group List.mem_cons_self heq.1]
    exact ih fun g hg => h g (List.mem_cons_of_mem _ hg)

/-- **What a publication commits** once its HEAD is written. -/
theorem committedGroup_of_publication {after : IndexDir} (hvalid : publication.Valid)
    (hhead : after.head = .valid (publication.head dir))
    (hshards : after.shards = (dir.withShards (publication.shards dir)).shards)
    (layoutId : LayoutId) (groupId : GroupId) :
    committedGroup after layoutId groupId = publication.result dir layoutId groupId := by
  obtain ⟨hnew, hold⟩ := committedGroup_published hhead hshards head_layouts shards_nodup
    (shards_valid hvalid) layoutId groupId
  cases publication with
  | groupUpdates hint freshId generation groups operationId device =>
    by_cases hin : layoutId ∈ layoutsOf groups
    · rw [hnew _ (List.mem_map_of_mem hin) rfl]
      refine (get?_overlayGroups operationId device groups layoutId groupId _).trans ?_
      unfold Publication.result committedGroup
      congr 1
      cases (previousLayouts dir).get? layoutId with
      | none => rfl
      | some layoutHead =>
        dsimp only
        cases loadShard dir layoutId layoutHead <;> rfl
    · have hne : ∀ group ∈ groups, group.layoutId ≠ layoutId :=
        fun group hgroup heq => hin (((layoutsOf_spec groups).2 _).mpr ⟨group, hgroup, heq⟩)
      rw [hold ?_]
      · exact (foldl_updates_of_ne operationId device groupId hne _).symm
      · intro shard hmem heq
        obtain ⟨other, hother, rfl⟩ := List.mem_map.mp hmem
        exact hin (heq ▸ hother)
  | authoritative hint freshId generation groups device establishedAt =>
    unfold Publication.result
    dsimp only
    cases hfound : groups.val.find? (fun entry => entry.1 = layoutId) with
    | none =>
      refine hold fun shard hmem heq => ?_
      obtain ⟨entry, hentry, rfl⟩ := List.mem_map.mp hmem
      have := List.find?_eq_none.mp hfound entry (List.mem_filter.mp hentry).1
      exact this (decide_eq_true heq)
    | some entry =>
      have hlayout : entry.1 = layoutId := by simpa using List.find?_some hfound
      have hmem := List.mem_of_find?_eq_some hfound
      dsimp only
      cases hunchanged : layoutUnchanged dir (previousLayouts dir) entry with
      | false =>
        refine hnew (rebuiltShard (previousLayouts dir)
          (resolvedDatasetId (loadHeadSafe dir) hint freshId) entry) ?_ hlayout
        exact List.mem_map_of_mem (List.mem_filter.mpr ⟨hmem, by simp [hunchanged]⟩)
      | true =>
        rw [hold ?_]
        · -- the committed groups are the given ones already
          unfold layoutUnchanged at hunchanged
          unfold committedGroup
          rw [← hlayout]
          cases hget : (previousLayouts dir).get? entry.1 with
          | none => simp [hget] at hunchanged
          | some layoutHead =>
            rw [hget] at hunchanged
            dsimp only at hunchanged ⊢
            cases hload : loadShard dir entry.1 layoutHead with
            | error error => simp [hload] at hunchanged
            | ok shard =>
              rw [hload] at hunchanged
              exact congrArg (fun t => Table.get? t groupId) (of_decide_eq_true hunchanged)
        · intro shard hshard heq
          obtain ⟨other, hother, rfl⟩ := List.mem_map.mp hshard
          obtain ⟨hin, hchanged⟩ := List.mem_filter.mp hother
          have hsame : other = entry :=
            List.inj_on_of_nodup_map groups.property hin hmem (heq.trans hlayout.symm)
          rw [hsame, hunchanged] at hchanged
          exact absurd hchanged (by simp)

/-- **Later publications.** On every directory that interrupted publications can leave, a
    publication that is left alone succeeds, with HEAD describing exactly its result, if and only
    if no file with other content stands where it stores its shards. -/
theorem publication_succeeds_iff (h : Reachable dir) (hvalid : publication.Valid) :
    publication.Succeeds dir ↔ publication.Unobstructed dir := by
  have hready : publication.Ready dir ↔ publication.Unobstructed dir := by
    refine and_iff_left ?_
    cases publication with
    | groupUpdates => trivial
    | authoritative => exact fun layoutId layoutHead hget _ => h.readable layoutId layoutHead hget
  have hexact : Exact Env.quiet (fun d => d = dir) _ _ _ _ := publication_exact hvalid Env.quiet
  rw [← hready, ← hexact.run_quiet rfl]
  constructor
  · intro hsucceeds
    obtain ⟨head, after, hrun, -⟩ := hsucceeds
    exact ⟨head, after, hrun⟩
  · intro hdone
    obtain ⟨head, after, hrun⟩ := hdone
    have hmeets := hexact.run rfl
    rw [hrun] at hmeets
    obtain ⟨-, rfl, hshards, hhead⟩ := hmeets
    have hreadable := readable_of_published hvalid h.readable hshards hhead
    have hpasses := withHeads_valid head_layouts (@shards_nodup dir publication)
      (shards_valid hvalid)
    refine ⟨_, after, hrun, ?_, head_journal, ?_, ?_⟩
    · unfold loadHeadStrict loadHead
      rw [hhead]
      dsimp only
      rw [hpasses]
    · intro layoutId layoutHead hget
      refine hreadable layoutId layoutHead ?_
      rw [previousLayouts, loadHeadSafe_eq_some.mpr ⟨hhead, hpasses⟩]
      exact hget
    · exact committedGroup_of_publication hvalid hhead hshards

end Result

/-! ### An orphaned shard -/

section Orphan

/-- A one-file group of the layout `snes`. -/
def zeldaUpdate (digit : Char) : IndexGroup where
  groupId := "snes/zelda"
  layoutId := "snes"
  system := "snes"
  groupGeneration := 0
  artifacts := [⟨"snes/zelda.srm", 8192, String.ofList (List.replicate 64 digit)⟩]
  tombstoned := false
  originDevice := ""
  completedTransactionId := none
  containerHead := none

/-- An upload of the group by an operation of a device. -/
def zeldaPublication (digit : Char) (operationId : Text) (device : String) : Publication :=
  .groupUpdates none ⟨"dataset", by decide⟩ 0 [zeldaUpdate digit] operationId device

theorem zeldaPublication_valid {digit : Char} (h : digit = '0' ∨ digit = '1')
    (operationId : Text) (device : String) :
    (zeldaPublication digit operationId device).Valid := by
  intro group hgroup
  rw [List.mem_singleton.mp hgroup]
  rcases h with rfl | rfl <;> exact ⟨by decide +kernel, by decide +kernel⟩

/-- The process is stopped once HEAD is to be written. -/
def stoppedBeforeHead : Env Site Interruption := fun _ site =>
  if site = .head then some .crash else none

/-- The directory after the first publication of all was stopped before HEAD. -/
def orphanedDir : IndexDir :=
  ((zeldaPublication '0' ⟨"op1", by decide⟩ "deck").program.run stoppedBeforeHead .empty).2

theorem orphanedDir_reachable : Reachable orphanedDir :=
  .publish .empty _ (zeldaPublication_valid (Or.inl rfl) _ _) stoppedBeforeHead

/-- On a new dataset nothing is in the way. -/
theorem first_publication_succeeds :
    (zeldaPublication '0' ⟨"op1", by decide⟩ "deck").Succeeds .empty := by
  refine (publication_succeeds_iff .empty (zeldaPublication_valid (Or.inl rfl) _ _)).mpr ?_
  intro shard _
  exact Or.inl rfl

/-- **An interrupted publication blocks the next one.** Its shard file of generation 1 is never
    replaced, and another operation never has the same content. -/
theorem orphaned_shard_blocks :
    ∃ publication : Publication, publication.Valid ∧ Reachable orphanedDir
      ∧ ¬ publication.Succeeds orphanedDir := by
  refine ⟨zeldaPublication '1' ⟨"op2", by decide⟩ "desktop",
    zeldaPublication_valid (Or.inr rfl) _ _, orphanedDir_reachable, ?_⟩
  intro hsucceeds
  obtain ⟨head, after, hrun, -⟩ := hsucceeds
  have hraised : ((zeldaPublication '1' ⟨"op2", by decide⟩ "desktop").program.run Env.quiet
      orphanedDir).1 = .raised (.own (.shardDiffers (toLex ("snes", 1)))) := by
    decide +kernel
  rw [hrun] at hraised
  cases hraised

end Orphan

end RomCloud.SaveSync.Index
