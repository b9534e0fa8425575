import RomCloud.SaveSync.Index

namespace RomCloud.SaveSync.Index

open RomCloud.Lib

/-!
# What a publication does

Both publications write some shards, then HEAD.  A shard file that is already there must have the
content the publication writes, so a publication succeeds exactly when the files it needs are
free (`Free`).

* `withShards`, `withHeads` — the directory and the layouts after some shard writes;
* `publishEach_exact` — the loop over the shards;
* `publishGroupUpdates_exact`, `publishAuthoritativeIndex_exact` — the two publications.
-/

/-! ### Shard files -/

namespace IndexShard

/-- The file name of a shard. -/
def name (shard : IndexShard) : ShardName := toLex (shard.layoutId, shard.generation)

/-- The entry of a HEAD for a shard. -/
def layoutHead (shard : IndexShard) : IndexLayoutHead := ⟨shard.generation, shard.name, shard⟩

/-- A shard that passes the checks of reading. -/
def Valid (shard : IndexShard) : Prop := validateShardDocument shard = none

theorem Valid.path {shard : IndexShard} (h : shard.Valid) :
    shardPath shard.layoutId shard.generation = .ok shard.name := by
  unfold Valid validateShardDocument at h
  unfold shardPath
  split at h
  · exact absurd h (by simp)
  · next hsafe =>
    split at h
    · exact absurd h (by simp)
    · next hpos => rw [if_neg hpos, if_neg hsafe]; rfl

theorem Valid.head_passes {shard : IndexShard} (h : shard.Valid) :
    layoutHeadError? (shard.layoutId, shard.layoutHead) = none := by
  unfold Valid validateShardDocument at h
  unfold layoutHeadError?
  split at h
  · exact absurd h (by simp)
  · next hsafe =>
    split at h
    · exact absurd h (by simp)
    · next hpos =>
      rw [if_neg hsafe]
      show (if shard.generation = 0 then _ else _) = none
      rw [if_neg hpos]
      exact if_neg (not_not.mpr rfl)

theorem name_of_path {shard : IndexShard} {name : ShardName}
    (h : shardPath shard.layoutId shard.generation = .ok name) : name = shard.name := by
  unfold shardPath at h
  split at h
  · exact absurd h (by simp)
  · split at h
    · exact absurd h (by simp)
    · exact (Except.ok.inj h).symm

end IndexShard

/-- No file stands in the way of a shard: the name is free, or the file has its content. -/
def Free (dir : IndexDir) (shard : IndexShard) : Prop :=
  dir.shards.get? shard.name = none ∨ dir.shards.get? shard.name = some (some shard)

instance (dir : IndexDir) (shard : IndexShard) : Decidable (Free dir shard) :=
  inferInstanceAs (Decidable (_ ∨ _))

/-- A shard that can be written: its file has a name, and is free. -/
def Writable (dir : IndexDir) (shard : IndexShard) : Prop :=
  shardPath shard.layoutId shard.generation = .ok shard.name ∧ Free dir shard

theorem IndexShard.Valid.writable_iff {shard : IndexShard} (h : shard.Valid) (dir : IndexDir) :
    Writable dir shard ↔ Free dir shard := and_iff_right h.path

/-- The directory with some more shard files. -/
def IndexDir.withShards (dir : IndexDir) (shards : List IndexShard) : IndexDir :=
  { dir with shards := dir.shards.insertEach IndexShard.name some shards }

/-- The layouts of a HEAD with some of them replaced. -/
def withHeads (layouts : Dict LayoutId IndexLayoutHead) (shards : List IndexShard) :
    Dict LayoutId IndexLayoutHead :=
  layouts.insertEach IndexShard.layoutId IndexShard.layoutHead shards

theorem withShards_append_singleton (dir : IndexDir) (shards : List IndexShard)
    (shard : IndexShard) :
    dir.withShards (shards ++ [shard]) = (dir.withShards shards).withShards [shard] := by
  rw [IndexDir.withShards, Dict.insertEach_append_singleton]
  rfl

theorem withHeads_append_singleton (layouts : Dict LayoutId IndexLayoutHead)
    (shards : List IndexShard) (shard : IndexShard) :
    withHeads layouts (shards ++ [shard])
      = (withHeads layouts shards).insert shard.layoutId shard.layoutHead :=
  Dict.insertEach_append_singleton _ _ _ _ _

/-- Shards of different layouts have different files. -/
theorem nodup_names {shards : List IndexShard} (h : (shards.map IndexShard.layoutId).Nodup) :
    (shards.map IndexShard.name).Nodup := by
  have hcomp : shards.map IndexShard.layoutId
      = (shards.map IndexShard.name).map (fun name => (ofLex name).1) := by
    rw [List.map_map]
    rfl
  rw [hcomp] at h
  exact List.Nodup.of_map _ h

theorem get?_withShards_of_mem (dir : IndexDir) {shards : List IndexShard}
    (h : (shards.map IndexShard.layoutId).Nodup) {shard : IndexShard} (hmem : shard ∈ shards) :
    (dir.withShards shards).shards.get? shard.name = some (some shard) :=
  Dict.get?_insertEach_of_mem _ _ _ (nodup_names h) hmem

theorem get?_withShards_of_ne (dir : IndexDir) {shards : List IndexShard} {name : ShardName}
    (h : ∀ shard ∈ shards, shard.layoutId ≠ (ofLex name).1) :
    (dir.withShards shards).shards.get? name = dir.shards.get? name := by
  refine Dict.get?_insertEach_of_ne _ _ _ ?_
  intro shard hmem hname
  exact h shard hmem (congrArg (fun name => (ofLex name).1) hname)

/-- Writing over free names changes no file. -/
theorem get?_withShards_of_free {dir : IndexDir} {shards : List IndexShard}
    (h : (shards.map IndexShard.layoutId).Nodup) (hfree : ∀ shard ∈ shards, Free dir shard)
    {name : ShardName} {file : Option IndexShard} (hfile : dir.shards.get? name = some file) :
    (dir.withShards shards).shards.get? name = some file := by
  by_cases hname : ∃ shard ∈ shards, shard.name = name
  · obtain ⟨shard, hmem, rfl⟩ := hname
    rw [get?_withShards_of_mem dir h hmem]
    rcases hfree shard hmem with hnone | hsome
    · exact absurd (hfile.symm.trans hnone) (by simp)
    · rw [← hsome, hfile]
  · push Not at hname
    rw [← hfile]
    exact Dict.get?_insertEach_of_ne _ _ _ hname

/-- A shard that could be read can be read after more shards were written. -/
theorem loadShard_of_files {dir after : IndexDir} {layoutId : LayoutId}
    {layoutHead : IndexLayoutHead} (h : after.shards.get? layoutHead.object
      = dir.shards.get? layoutHead.object) :
    loadShard after layoutId layoutHead = loadShard dir layoutId layoutHead := by
  unfold loadShard
  rw [h]

theorem loadShard_ok {dir : IndexDir} {layoutId : LayoutId} {layoutHead : IndexLayoutHead}
    {shard : IndexShard} (h : loadShard dir layoutId layoutHead = .ok shard) :
    dir.shards.get? layoutHead.object = some (some shard) ∧ layoutHead.digest = shard
      ∧ shard.Valid ∧ shard.layoutId = layoutId ∧ shard.generation = layoutHead.generation := by
  unfold loadShard at h
  split at h
  · cases h
  · cases h
  · next found hfile =>
    split at h
    · cases h
    · next hdigest =>
      split at h
      · cases h
      · next hvalid =>
        split at h
        · cases h
        · next hidentity =>
          cases h
          rw [not_or, not_not, not_not] at hidentity
          exact ⟨hfile, (not_not.mp hdigest).symm, hvalid, hidentity.1, hidentity.2⟩

/-- A written shard can be read under its entry. -/
theorem loadShard_written {dir : IndexDir} {shard : IndexShard} (hvalid : shard.Valid)
    (hfile : dir.shards.get? shard.name = some (some shard)) :
    loadShard dir shard.layoutId shard.layoutHead = .ok shard := by
  unfold loadShard
  rw [show shard.layoutHead.object = shard.name from rfl, hfile]
  show (if shard ≠ shard then _ else _) = _
  rw [if_neg (not_not.mpr rfl), show validateShardDocument shard = none from hvalid]
  exact if_neg (not_or.mpr ⟨not_not.mpr rfl, not_not.mpr rfl⟩)

/-! ### One shard -/

section WriteShard

variable {env : Env Site Interruption} {dir : IndexDir} {shard : IndexShard}

/-- Writing the same content again changes nothing. -/
theorem withShards_of_written (hfile : dir.shards.get? shard.name = some (some shard)) :
    dir.withShards [shard] = dir := by
  have hshards : dir.shards.insert shard.name (some shard) = dir.shards := by
    apply Dict.ext_get?
    intro name
    rw [Dict.get?_insert]
    split
    · next h => rw [h, hfile]
    · rfl
  exact congrArg (fun shards => { dir with shards := shards }) hshards

/-- A shard write that returns has written the shard, or found it written. -/
theorem writeShard_returned :
    Triple env (fun d => d = dir) (writeShard shard)
      (fun layoutHead d => layoutHead = shard.layoutHead ∧ d = dir.withShards [shard])
      (fun _ _ => True) (fun _ => True) := by
  unfold writeShard
  split
  · exact Triple.throw _ fun _ _ => trivial
  · next name hpath =>
    obtain rfl := IndexShard.name_of_path hpath
    refine Triple.step (fun _ _ _ => trivial) (fun _ _ _ _ => trivial) ?_
    intro d hd
    subst hd
    cases hfile : d.shards.get? shard.name with
    | none => exact ⟨rfl, rfl⟩
    | some existing =>
      dsimp only
      by_cases hsame : existing = some shard
      · rw [if_pos hsame]
        exact ⟨rfl, (withShards_of_written (hsame ▸ hfile)).symm⟩
      · rw [if_neg hsame]
        trivial

/-- **One shard write** succeeds exactly when the shard can be written. -/
theorem writeShard_exact :
    Exact env (fun d => d = dir) (writeShard shard) (Writable dir shard)
      (fun layoutHead d => layoutHead = shard.layoutHead ∧ d = dir.withShards [shard])
      (fun d => d = dir) := by
  unfold writeShard
  cases hpath : shardPath shard.layoutId shard.generation with
  | error error =>
    refine Exact.throw _ (fun d hd => hd) ?_
    rintro ⟨hname, -⟩
    rw [hpath] at hname
    cases hname
  | ok name =>
    obtain rfl := IndexShard.name_of_path hpath
    refine Exact.step (fun d hd => hd) ?_
    intro d hd
    subst hd
    cases hfile : d.shards.get? shard.name with
    | none => exact ⟨⟨hpath, Or.inl hfile⟩, rfl, rfl⟩
    | some existing =>
      dsimp only
      by_cases hsame : existing = some shard
      · subst hsame
        rw [if_pos rfl]
        exact ⟨⟨hpath, Or.inr hfile⟩, rfl, (withShards_of_written hfile).symm⟩
      · rw [if_neg hsame]
        rintro ⟨-, h | h⟩
        · exact absurd (hfile.symm.trans h) (by simp)
        · exact hsame (Option.some.inj (hfile.symm.trans h))

end WriteShard

/-! ### The loop -/

section Loop

variable {env : Env Site Interruption} {dir : IndexDir} {ι : Type}
variable {next : IndexDir → Dict LayoutId IndexLayoutHead → ι → IndexShard}
variable {published : Dict LayoutId IndexLayoutHead}

/-- Some of the shards were written, each over a free name. -/
def SomeWritten (dir : IndexDir) (shards : List IndexShard) (d : IndexDir) : Prop :=
  ∃ done rest, shards = done ++ rest ∧ (∀ shard ∈ done, Free dir shard) ∧ d = dir.withShards done

/-- **The loop over the shards** succeeds exactly when every shard can be written.  The shards are
    those that the loop would compute at its start, as long as its own writes do not change them. -/
theorem publishEach_writable {shards : List IndexShard} {xs : List ι}
    (hshards : shards = xs.map (next dir published))
    (hstable : ∀ done x rest, xs = done ++ x :: rest →
      next (dir.withShards (done.map (next dir published)))
        (withHeads published (done.map (next dir published))) x = next dir published x)
    (hnodup : (shards.map IndexShard.layoutId).Nodup) :
    Exact env (fun d => d = dir) (publishEach next xs published)
      (∀ shard ∈ shards, Writable dir shard)
      (fun layouts d => layouts = withHeads published shards ∧ d = dir.withShards shards)
      (SomeWritten dir shards) := by
  have hgen : ∀ rest done, xs = done ++ rest →
      (∀ shard ∈ done.map (next dir published), Free dir shard) →
      Exact env (fun d => d = dir.withShards (done.map (next dir published)))
        (publishEach next rest (withHeads published (done.map (next dir published))))
        (∀ shard ∈ rest.map (next dir published), Writable dir shard)
        (fun layouts d => layouts = withHeads published shards ∧ d = dir.withShards shards)
        (SomeWritten dir shards) := by
    intro rest
    induction rest with
    | nil =>
      intro done hxs _
      rw [List.append_nil] at hxs
      subst hxs
      refine (Exact.pure _ ?_).weaken (fun _ h => h) ?_ (fun _ _ _ h => h) (fun _ h => h)
      · exact fun d hd => ⟨by rw [hshards], by rw [hshards]; exact hd⟩
      · simp
    | cons x rest ih =>
      intro done hxs hdone
      have hx := hstable done x rest hxs
      -- the file of `x` is as free now as it was at the start
      have hsplit : shards = done.map (next dir published) ++ next dir published x
          :: rest.map (next dir published) := by
        rw [hshards, hxs, List.map_append, List.map_cons]
      have hfile : (dir.withShards (done.map (next dir published))).shards.get?
          (next dir published x).name = dir.shards.get? (next dir published x).name := by
        have hnd := nodup_names hnodup
        rw [hsplit, List.map_append, List.map_cons, List.nodup_append] at hnd
        refine Dict.get?_insertEach_of_ne _ _ _ ?_
        intro w hw
        exact hnd.2.2 _ (List.mem_map_of_mem hw) _ List.mem_cons_self
      have hfree : Writable (dir.withShards (done.map (next dir published)))
          (next dir published x) ↔ Writable dir (next dir published x) := by
        unfold Writable Free
        rw [hfile]
      unfold publishEach
      refine Exact.look (fun _ => rfl) ?_
      dsimp only
      rw [hx]
      have hone : Exact env (fun d => d = dir.withShards (done.map (next dir published)))
          (writeShard (next dir published x)) (Writable dir (next dir published x))
          (fun layoutHead d => layoutHead = (next dir published x).layoutHead
            ∧ d = dir.withShards ((done ++ [x]).map (next dir published)))
          (SomeWritten dir shards) := by
        refine writeShard_exact.weaken (fun _ h => h) hfree ?_ ?_
        · intro layoutHead d _ hd
          rw [List.map_append, List.map_cons, List.map_nil, withShards_append_singleton]
          exact hd
        · intro d hd
          exact ⟨_, _, hsplit, hdone, hd⟩
      refine (hone.bind fun hxfree layoutHead => ?_).weaken (fun _ h => h)
        List.forall_mem_cons.symm (fun _ _ _ h => h) (fun _ h => h)
      refine Exact.assume ?_
      intro hhead
      rw [hhead, ← withHeads_append_singleton, ← List.map_singleton, ← List.map_append]
      refine ih (done ++ [x]) ?_ ?_
      · rw [hxs, List.append_assoc, List.singleton_append]
      · rw [List.map_append]
        intro shard hshard
        rcases List.mem_append.mp hshard with hin | hlast
        · exact hdone shard hin
        · rw [List.map_singleton, List.mem_singleton] at hlast
          exact hlast ▸ hxfree.2
  have h := hgen xs [] rfl (by simp)
  rw [hshards]
  rw [hshards] at h
  exact h

/-- The loop over valid shards succeeds exactly when every file is free. -/
theorem publishEach_exact {shards : List IndexShard} {xs : List ι}
    (hshards : shards = xs.map (next dir published))
    (hstable : ∀ done x rest, xs = done ++ x :: rest →
      next (dir.withShards (done.map (next dir published)))
        (withHeads published (done.map (next dir published))) x = next dir published x)
    (hvalid : ∀ shard ∈ shards, shard.Valid)
    (hnodup : (shards.map IndexShard.layoutId).Nodup) :
    Exact env (fun d => d = dir) (publishEach next xs published)
      (∀ shard ∈ shards, Free dir shard)
      (fun layouts d => layouts = withHeads published shards ∧ d = dir.withShards shards)
      (SomeWritten dir shards) :=
  (publishEach_writable hshards hstable hnodup).weaken (fun _ h => h)
    (forall₂_congr fun shard hmem => (hvalid shard hmem).writable_iff dir) (fun _ _ _ h => h)
    (fun _ h => h)

end Loop

/-! ### HEAD -/

section Head

variable {env : Env Site Interruption} {dir : IndexDir}

/-- Two directories with the same marker and the same shard files. -/
def SameFiles (dir d : IndexDir) : Prop := d.owner = dir.owner ∧ d.shards = dir.shards

/-- **Writing HEAD** succeeds; the copy of the old HEAD is only recovery material. -/
theorem writeHead_exact (head : IndexHead) (keepPrevious : Bool) :
    Exact env (fun d => d = dir) (writeHead head keepPrevious) True
      (fun _ d => SameFiles dir d ∧ d.head = .valid head)
      (fun d => SameFiles dir d ∧ d.head = dir.head) := by
  unfold writeHead
  refine Exact.look (fun _ => rfl) ?_
  refine Exact.cut (fun _ d => SameFiles dir d ∧ d.head = dir.head) ?_ fun _ => ?_
  · -- an I/O error of the copy is swallowed
    split
    · refine Triple.tryCatchWith (fun _ d => d = dir ∧ env.Disturbs) ?_ ?_
      · refine Triple.step ?_ ?_ ?_
        · rintro d rfl ⟨n, hn⟩
          exact ⟨⟨⟨rfl, rfl⟩, rfl⟩, n, .previousHead, by simp [hn]⟩
        · rintro d x rfl ⟨n, hn⟩
          exact ⟨rfl, n, .previousHead, by simp [hn]⟩
        · rintro d rfl
          exact ⟨trivial, ⟨rfl, rfl⟩, rfl⟩
      · intro error
        split
        · refine Triple.pure () ?_
          rintro d ⟨rfl, -⟩
          exact ⟨trivial, ⟨rfl, rfl⟩, rfl⟩
        · refine Triple.throw _ ?_
          rintro d ⟨rfl, hdisturbs⟩
          exact ⟨⟨⟨rfl, rfl⟩, rfl⟩, Or.inl hdisturbs⟩
    · refine Exact.pure () ?_
      rintro d rfl
      exact ⟨⟨rfl, rfl⟩, rfl⟩
  · refine Exact.step (fun d hd => hd) ?_
    rintro d ⟨⟨howner, hshards⟩, -⟩
    exact ⟨trivial, ⟨howner, hshards⟩, rfl⟩

end Head

/-! ### Valid groups -/

section Validity

/-- What a group has to satisfy to be read under a layout. -/
theorem groupError?_eq_none_iff (layoutId : LayoutId) (group : IndexGroup) :
    groupError? layoutId group = none
      ↔ (layoutId ++ "/").toList.isPrefixOf group.groupId.toList = true
        ∧ group.layoutId = layoutId ∧ strip group.system ≠ ""
        ∧ artifactsError? group.system group.artifacts [] = none
        ∧ textError? "group.completed_transaction_id" group.completedTransactionId = none
        ∧ textError? "group.container_head" group.containerHead = none
        ∧ (group.tombstoned && !group.artifacts.isEmpty) = false := by
  unfold groupError?
  cases hlayoutId : (layoutId ++ "/").toList.isPrefixOf group.groupId.toList with
  | false => simp
  | true =>
    by_cases hlayout : group.layoutId = layoutId
    · by_cases hsystem : strip group.system = ""
      · simp [hlayout, hsystem]
      · cases hartifacts : artifactsError? group.system group.artifacts [] <;>
        cases hcompleted : textError? "group.completed_transaction_id"
          group.completedTransactionId <;>
        cases hcontainer : textError? "group.container_head" group.containerHead <;>
        cases htombstoned : (group.tombstoned && !group.artifacts.isEmpty) <;>
        simp [hlayout, hsystem]
    · simp [hlayout]

theorem textError?_text (label : String) (text : Text) :
    textError? label (some text.val) = none :=
  if_neg text.property

/-- A valid group is valid as it is committed. -/
theorem commitGroup_valid {operationId : Text} {originDevice : String}
    {previousGroup : Option IndexGroup} {group : IndexGroup} {layoutId : LayoutId}
    (h : groupError? layoutId group = none) :
    groupError? layoutId (commitGroup operationId originDevice previousGroup group) = none := by
  rw [groupError?_eq_none_iff] at h ⊢
  obtain ⟨hid, hlayout, hsystem, hartifacts, -, hcontainer, htombstoned⟩ := h
  exact ⟨hid, hlayout, hsystem, hartifacts, textError?_text _ operationId, hcontainer,
    htombstoned⟩

/-- Every group of a table can be read under a layout. -/
def GroupsValid (layoutId : LayoutId) (groups : IndexGroups) : Prop :=
  ∀ groupId group, groups.get? groupId = some group → groupError? layoutId group = none

theorem valid_iff (shard : IndexShard) :
    shard.Valid ↔ safeLayoutId shard.layoutId = true ∧ 0 < shard.generation
      ∧ GroupsValid shard.layoutId shard.groups := by
  unfold IndexShard.Valid validateShardDocument
  cases hsafe : safeLayoutId shard.layoutId with
  | false => simp
  | true =>
    have hgroups : shard.groups.toList.findSome? (groupError? shard.layoutId) = none
        ↔ GroupsValid shard.layoutId shard.groups := by
      rw [List.findSome?_eq_none_iff]
      constructor
      · intro h groupId group hget
        have hkey := Table.key_of_get? hget
        exact h group ((Table.mem_toList_iff _ _).mpr (hkey ▸ hget))
      · intro h group hmem
        exact h _ group ((Table.mem_toList_iff _ _).mp hmem)
    by_cases hzero : shard.generation = 0
    · simp [hzero]
    · simp [hzero, hgroups, Nat.pos_of_ne_zero hzero]

theorem overlayGroup_valid {operationId : Text} {originDevice : String} {layoutId : LayoutId}
    {existing : IndexGroups} {groups : List IndexGroup} (hexisting : GroupsValid layoutId existing)
    (hgroups : ∀ group ∈ groups, groupError? layoutId group = none) :
    GroupsValid layoutId (groups.foldl (overlayGroup operationId originDevice) existing) := by
  induction groups generalizing existing with
  | nil => exact hexisting
  | cons group rest ih =>
    refine ih ?_ fun g hg => hgroups g (List.mem_cons_of_mem _ hg)
    intro groupId g hget
    rw [overlayGroup, Table.get?_put] at hget
    split at hget
    · cases hget
      exact commitGroup_valid (hgroups group List.mem_cons_self)
    · exact hexisting groupId g hget

end Validity

/-! ### The layouts of a HEAD -/

section Layouts

/-- The layouts of the HEAD a publication starts from. -/
def previousLayouts (dir : IndexDir) : Dict LayoutId IndexLayoutHead :=
  ((loadHeadSafe dir).map IndexHead.layouts).getD ∅

theorem loadHeadSafe_eq_some {dir : IndexDir} {head : IndexHead} :
    loadHeadSafe dir = some head ↔ dir.head = .valid head ∧ validateHeadDocument head = none := by
  unfold loadHeadSafe loadHead
  cases dir.head with
  | absent => simp
  | damaged => simp
  | valid found =>
    dsimp only
    cases hfound : validateHeadDocument found with
    | some error =>
      simp only [reduceCtorEq, Stored.valid.injEq, false_iff, not_and]
      rintro rfl
      simp [hfound]
    | none =>
      simp only [Option.some.injEq, Stored.valid.injEq]
      exact ⟨fun h => ⟨h, h ▸ hfound⟩, fun h => h.1⟩

theorem validateHeadDocument_eq_none_iff (head : IndexHead) :
    validateHeadDocument head = none
      ↔ ∀ layoutId layoutHead, head.layouts.get? layoutId = some layoutHead →
          layoutHeadError? (layoutId, layoutHead) = none := by
  unfold validateHeadDocument
  rw [List.findSome?_eq_none_iff]
  constructor
  · intro h layoutId layoutHead hget
    exact h _ ((Dict.get?_eq_some_iff _ _ _).mp hget)
  · intro h entry hmem
    exact h entry.1 entry.2 ((Dict.get?_eq_some_iff _ _ _).mpr hmem)

/-- The entry of a layout in a HEAD names a shard file of that layout. -/
theorem object_of_layoutHead {layoutId : LayoutId} {layoutHead : IndexLayoutHead}
    (h : layoutHeadError? (layoutId, layoutHead) = none) :
    (ofLex layoutHead.object).1 = layoutId := by
  unfold layoutHeadError? at h
  split at h
  · exact absurd h (by simp)
  · split at h
    · exact absurd h (by simp)
    · split at h
      · exact absurd h (by simp)
      · next hobject => exact not_not.mp hobject

theorem previousLayouts_valid {dir : IndexDir} {layoutId : LayoutId}
    {layoutHead : IndexLayoutHead} (h : (previousLayouts dir).get? layoutId = some layoutHead) :
    layoutHeadError? (layoutId, layoutHead) = none := by
  unfold previousLayouts at h
  cases hhead : loadHeadSafe dir with
  | none =>
    rw [hhead] at h
    exact absurd h (by simp)
  | some head =>
    rw [hhead] at h
    exact (validateHeadDocument_eq_none_iff head).mp (loadHeadSafe_eq_some.mp hhead).2 _ _ h

/-- The shard of a layout no new shard is for can be read as before. -/
theorem loadShard_withShards {dir after : IndexDir} {shards : List IndexShard}
    {layoutId : LayoutId} {layoutHead : IndexLayoutHead}
    (hafter : after.shards = (dir.withShards shards).shards)
    (hobject : (ofLex layoutHead.object).1 = layoutId)
    (h : ∀ shard ∈ shards, shard.layoutId ≠ layoutId) :
    loadShard after layoutId layoutHead = loadShard dir layoutId layoutHead := by
  refine loadShard_of_files ?_
  rw [hafter]
  exact get?_withShards_of_ne dir fun shard hshard => hobject ▸ h shard hshard

theorem get?_withHeads_of_mem (layouts : Dict LayoutId IndexLayoutHead) {shards : List IndexShard}
    (h : (shards.map IndexShard.layoutId).Nodup) {shard : IndexShard} (hmem : shard ∈ shards) :
    (withHeads layouts shards).get? shard.layoutId = some shard.layoutHead :=
  Dict.get?_insertEach_of_mem _ _ _ h hmem

theorem get?_withHeads_of_ne (layouts : Dict LayoutId IndexLayoutHead) {shards : List IndexShard}
    {layoutId : LayoutId} (h : ∀ shard ∈ shards, shard.layoutId ≠ layoutId) :
    (withHeads layouts shards).get? layoutId = layouts.get? layoutId :=
  Dict.get?_insertEach_of_ne _ _ _ h

/-- A HEAD with new layouts over those of the old HEAD passes its checks. -/
theorem withHeads_valid {dir : IndexDir} {shards : List IndexShard} {head : IndexHead}
    (hhead : head.layouts = withHeads (previousLayouts dir) shards)
    (hnodup : (shards.map IndexShard.layoutId).Nodup) (hvalid : ∀ shard ∈ shards, shard.Valid) :
    validateHeadDocument head = none := by
  rw [validateHeadDocument_eq_none_iff, hhead]
  intro layoutId layoutHead hget
  by_cases hnew : ∃ shard ∈ shards, shard.layoutId = layoutId
  · obtain ⟨shard, hmem, rfl⟩ := hnew
    rw [get?_withHeads_of_mem _ hnodup hmem] at hget
    cases hget
    exact (hvalid shard hmem).head_passes
  · push Not at hnew
    rw [get?_withHeads_of_ne _ hnew] at hget
    exact previousLayouts_valid hget

end Layouts

/-! ### What is committed -/

section Committed

/-- The group the directory gives for an id. -/
def committedGroup (dir : IndexDir) (layoutId : LayoutId) (groupId : GroupId) :
    Option IndexGroup :=
  match (previousLayouts dir).get? layoutId with
  | none => none
  | some layoutHead =>
    match loadShard dir layoutId layoutHead with
    | .error _ => none
    | .ok shard => shard.groups.get? groupId

variable {dir after : IndexDir} {shards : List IndexShard} {head : IndexHead}

/-- What a directory commits after a publication wrote HEAD. -/
theorem committedGroup_published (hafter : after.head = .valid head)
    (hshards : after.shards = (dir.withShards shards).shards)
    (hhead : head.layouts = withHeads (previousLayouts dir) shards)
    (hnodup : (shards.map IndexShard.layoutId).Nodup) (hvalid : ∀ shard ∈ shards, shard.Valid)
    (layoutId : LayoutId) (groupId : GroupId) :
    (∀ shard ∈ shards, shard.layoutId = layoutId →
        committedGroup after layoutId groupId = shard.groups.get? groupId)
      ∧ ((∀ shard ∈ shards, shard.layoutId ≠ layoutId) →
        committedGroup after layoutId groupId = committedGroup dir layoutId groupId) := by
  have hlayouts : previousLayouts after = withHeads (previousLayouts dir) shards := by
    have hload := loadHeadSafe_eq_some.mpr ⟨hafter, withHeads_valid hhead hnodup hvalid⟩
    rw [previousLayouts, hload, ← hhead]
    rfl
  constructor
  · intro shard hmem hlayout
    subst hlayout
    have hfile : after.shards.get? shard.name = some (some shard) := by
      rw [hshards]
      exact get?_withShards_of_mem dir hnodup hmem
    unfold committedGroup
    rw [hlayouts, get?_withHeads_of_mem _ hnodup hmem]
    dsimp only
    rw [loadShard_written (hvalid shard hmem) hfile]
  · intro hold
    unfold committedGroup
    rw [hlayouts, get?_withHeads_of_ne _ hold]
    cases hget : (previousLayouts dir).get? layoutId with
    | none => rfl
    | some layoutHead =>
      dsimp only
      rw [loadShard_withShards hshards (object_of_layoutHead (previousLayouts_valid hget)) hold]

end Committed

/-! ### Publishing group updates -/

section GroupUpdates

/-- The layouts of some groups are listed once each. -/
theorem layoutsOf_spec (groups : List IndexGroup) :
    (layoutsOf groups).Nodup
      ∧ ∀ layoutId, layoutId ∈ layoutsOf groups ↔ ∃ group ∈ groups, group.layoutId = layoutId := by
  induction groups using List.reverseRecOn with
  | nil => exact ⟨List.nodup_nil, by simp [layoutsOf]⟩
  | append_singleton groups last ih =>
    obtain ⟨hnodup, hmem⟩ := ih
    have hstep : layoutsOf (groups ++ [last]) = if last.layoutId ∈ layoutsOf groups
        then layoutsOf groups else layoutsOf groups ++ [last.layoutId] := by
      rw [layoutsOf, List.foldl_append]
      rfl
    have hlast : ∀ layoutId, (∃ group ∈ groups ++ [last], group.layoutId = layoutId)
        ↔ (∃ group ∈ groups, group.layoutId = layoutId) ∨ last.layoutId = layoutId := by
      intro layoutId
      simp only [List.mem_append, List.mem_singleton, or_and_right, exists_or, exists_eq_left]
    rw [hstep]
    split
    · next hin =>
      refine ⟨hnodup, fun layoutId => ?_⟩
      rw [hlast, hmem]
      refine (or_iff_left_of_imp ?_).symm
      rintro rfl
      exact (hmem _).mp hin
    · next hout =>
      refine ⟨List.nodup_append.mpr ⟨hnodup, List.nodup_singleton _, ?_⟩, fun layoutId => ?_⟩
      · intro a ha b hb heq
        rw [List.mem_singleton] at hb
        exact hout (hb ▸ heq ▸ ha)
      · rw [List.mem_append, List.mem_singleton, hmem, hlast, eq_comm]

variable (operationId : Text) (originDevice : String) (dir : IndexDir) (datasetId : Text)
variable (updatedGroups : List IndexGroup)

/-- The shards a publication of group updates writes. -/
def updatedShards : List IndexShard :=
  (layoutsOf updatedGroups).map (fun layoutId =>
    updatedShard operationId originDevice dir (previousLayouts dir) datasetId layoutId
      (updatedGroups.filter (fun group => group.layoutId = layoutId)))

/-- Updated groups that can be read once they are committed. -/
def UpdatesValid : Prop :=
  ∀ group ∈ updatedGroups, safeLayoutId group.layoutId = true
    ∧ groupError? group.layoutId group = none

theorem updatedShards_layouts :
    (updatedShards operationId originDevice dir datasetId updatedGroups).map IndexShard.layoutId
      = layoutsOf updatedGroups := by
  rw [updatedShards, List.map_map]
  exact List.map_id _

variable {operationId originDevice dir datasetId updatedGroups}

theorem updatedShards_valid (h : UpdatesValid updatedGroups) :
    ∀ shard ∈ updatedShards operationId originDevice dir datasetId updatedGroups,
      shard.Valid := by
  intro shard hmem
  obtain ⟨layoutId, hlayout, rfl⟩ := List.mem_map.mp hmem
  obtain ⟨group, hgroup, rfl⟩ := ((layoutsOf_spec updatedGroups).2 layoutId).mp hlayout
  refine (valid_iff _).mpr ⟨(h group hgroup).1, ?_, ?_⟩
  · unfold updatedShard
    dsimp only
    split <;> omega
  · refine overlayGroup_valid ?_ ?_
    · cases hprevious : (previousLayouts dir).get? group.layoutId with
      | none => exact fun _ _ hget => absurd hget (by simp)
      | some layoutHead =>
        dsimp only
        cases hload : loadShard dir group.layoutId layoutHead with
        | error error => exact fun _ _ hget => absurd hget (by simp)
        | ok previous =>
          obtain ⟨-, -, hvalid, hid, -⟩ := loadShard_ok hload
          exact hid ▸ ((valid_iff previous).mp hvalid).2.2
    · intro g hg
      obtain ⟨hin, hsame⟩ := List.mem_filter.mp hg
      exact (of_decide_eq_true hsame : g.layoutId = group.layoutId) ▸ (h g hin).2

/-- The shard of a layout does not depend on what was written for others. -/
theorem updatedShard_stable {done : List IndexShard} {layoutId : LayoutId}
    (h : ∀ shard ∈ done, shard.layoutId ≠ layoutId) (groups : List IndexGroup) :
    updatedShard operationId originDevice (dir.withShards done)
        (withHeads (previousLayouts dir) done) datasetId layoutId groups
      = updatedShard operationId originDevice dir (previousLayouts dir) datasetId layoutId
          groups := by
  unfold updatedShard
  rw [get?_withHeads_of_ne _ h]
  cases hget : (previousLayouts dir).get? layoutId with
  | none => rfl
  | some layoutHead =>
    dsimp only
    rw [loadShard_withShards rfl (object_of_layoutHead (previousLayouts_valid hget)) h]

/-- How an interrupted publication leaves the directory: marker and HEAD as they were, and some of
    the new shards written over free names. -/
def Interrupted (dir : IndexDir) (shards : List IndexShard) (d : IndexDir) : Prop :=
  d.owner = dir.owner ∧ d.head = dir.head
    ∧ ∃ done rest, shards = done ++ rest ∧ (∀ shard ∈ done, Free dir shard)
        ∧ d.shards = (dir.withShards done).shards

variable {env : Env Site Interruption} {datasetIdHint : Option Text} {freshId : Text}
variable {journalGeneration : ℕ}

/-- The HEAD a publication of group updates writes. -/
def updatedHead (dir : IndexDir) (datasetId : Text) (journalGeneration : ℕ)
    (shards : List IndexShard) : IndexHead where
  datasetId := datasetId
  indexGeneration := (((loadHeadSafe dir).map IndexHead.indexGeneration).getD 0) + 1
  journalGeneration := journalGeneration
  layouts := withHeads (previousLayouts dir) shards

/-- **Publishing group updates** succeeds exactly when the new shards can be written. -/
theorem publishGroupUpdates_writable
    (hid : datasetId = resolvedDatasetId (loadHeadSafe dir) datasetIdHint freshId)
    {shards : List IndexShard}
    (hshards : shards = updatedShards operationId originDevice dir datasetId updatedGroups) :
    Exact env (fun d => d = dir)
      (publishGroupUpdates operationId originDevice datasetIdHint freshId journalGeneration
        updatedGroups)
      (∀ shard ∈ shards, Writable dir shard)
      (fun head d => head = updatedHead dir datasetId journalGeneration shards
        ∧ d.owner = dir.owner ∧ d.shards = (dir.withShards shards).shards ∧ d.head = .valid head)
      (Interrupted dir shards) := by
  unfold publishGroupUpdates
  refine Exact.look (fun _ => rfl) ?_
  dsimp only
  rw [← hid]
  have hnodup : (shards.map IndexShard.layoutId).Nodup := by
    rw [hshards, updatedShards_layouts]
    exact (layoutsOf_spec updatedGroups).1
  have hloop : Exact env (fun d => d = dir)
      (publishLayouts operationId originDevice datasetId updatedGroups (layoutsOf updatedGroups)
        (previousLayouts dir))
      (∀ shard ∈ shards, Writable dir shard)
      (fun layouts d => layouts = withHeads (previousLayouts dir) shards
        ∧ d = dir.withShards shards)
      (SomeWritten dir shards) := by
    refine publishEach_writable hshards ?_ hnodup
    intro done x rest hxs
    refine updatedShard_stable ?_ _
    intro shard hmem
    obtain ⟨layoutId, hlayout, rfl⟩ := List.mem_map.mp hmem
    have hnd := (layoutsOf_spec updatedGroups).1
    rw [hxs, List.nodup_append] at hnd
    exact hnd.2.2 _ hlayout _ List.mem_cons_self
  refine (Exact.bind (hloop.weaken (fun _ h => h) Iff.rfl (fun _ _ _ h => h) ?_)
    fun hfree layouts => ?_).weaken (fun _ h => h) (iff_of_eq (and_true _)) (fun _ _ _ h => h)
      (fun _ h => h)
  · rintro d ⟨done, rest, hsplit, hdone, rfl⟩
    exact ⟨rfl, rfl, done, rest, hsplit, hdone, rfl⟩
  · refine Exact.assume ?_
    rintro rfl
    refine (Exact.bind ((writeHead_exact _ true).weaken (fun _ h => h) Iff.rfl
      (fun _ _ _ h => h) ?_) fun _ _ => Exact.pure _ ?_).weaken (fun _ h => h)
        (iff_of_eq (and_true _)) (fun _ _ _ h => h) (fun _ h => h)
    · rintro d ⟨⟨howner, hfiles⟩, hhead⟩
      exact ⟨howner, hhead, shards, [], by simp, fun shard hmem => (hfree shard hmem).2, hfiles⟩
    · rintro d ⟨⟨howner, hfiles⟩, hhead⟩
      exact ⟨rfl, howner, hfiles, hhead⟩

/-- Publishing valid group updates succeeds exactly when the files of the new shards are free. -/
theorem publishGroupUpdates_exact (hvalid : UpdatesValid updatedGroups)
    (hid : datasetId = resolvedDatasetId (loadHeadSafe dir) datasetIdHint freshId)
    {shards : List IndexShard}
    (hshards : shards = updatedShards operationId originDevice dir datasetId updatedGroups) :
    Exact env (fun d => d = dir)
      (publishGroupUpdates operationId originDevice datasetIdHint freshId journalGeneration
        updatedGroups)
      (∀ shard ∈ shards, Free dir shard)
      (fun head d => head = updatedHead dir datasetId journalGeneration shards
        ∧ d.owner = dir.owner ∧ d.shards = (dir.withShards shards).shards ∧ d.head = .valid head)
      (Interrupted dir shards) := by
  refine (publishGroupUpdates_writable hid hshards).weaken (fun _ h => h)
    (forall₂_congr fun shard hmem => ?_) (fun _ _ _ h => h) (fun _ h => h)
  rw [hshards] at hmem
  exact (updatedShards_valid hvalid shard hmem).writable_iff dir

end GroupUpdates

/-! ### Publishing the authoritative index -/

section Authoritative

variable {env : Env Site Interruption} {dir : IndexDir} {datasetId : Text}
variable {layoutGroups : LayoutGroups}

/-- Group sets that can be read once they are published. -/
def GroupSetsValid (layoutGroups : LayoutGroups) : Prop :=
  ∀ entry ∈ layoutGroups.val, safeLayoutId entry.1 = true ∧ GroupsValid entry.1 entry.2

/-- The shards `publish_authoritative_index` writes: those of the layouts whose groups changed. -/
def rebuiltShards (dir : IndexDir) (datasetId : Text) (layoutGroups : LayoutGroups) :
    List IndexShard :=
  (layoutGroups.val.filter (fun entry => !layoutUnchanged dir (previousLayouts dir) entry)).map
    (rebuiltShard (previousLayouts dir) datasetId)

/-- The HEAD it writes. -/
def rebuiltHead (dir : IndexDir) (datasetId : Text) (journalGeneration : ℕ)
    (shards : List IndexShard) : IndexHead where
  datasetId := datasetId
  indexGeneration :=
    (((loadHeadSafe dir).map IndexHead.indexGeneration).getD 0) + if shards = [] then 0 else 1
  journalGeneration := journalGeneration
  layouts := withHeads (previousLayouts dir) shards

/-- The layouts that a publication carries forward can be read. -/
def CarriedReadable (dir : IndexDir) (shards : List IndexShard) : Prop :=
  ∀ layoutId layoutHead, (previousLayouts dir).get? layoutId = some layoutHead →
    (∀ shard ∈ shards, shard.layoutId ≠ layoutId) →
    ∃ shard, loadShard dir layoutId layoutHead = .ok shard

/-- How an interrupted or refused publication leaves the directory: with the marker it had, and
    with the old HEAD or the complete new one. -/
def InterruptedRebuild (dir : IndexDir) (shards : List IndexShard) (head : IndexHead)
    (d : IndexDir) : Prop :=
  Interrupted dir shards d
    ∨ ((∀ shard ∈ shards, Free dir shard) ∧ d.owner = dir.owner
      ∧ d.shards = (dir.withShards shards).shards ∧ d.head = .valid head)

theorem rebuiltShards_nodup :
    ((rebuiltShards dir datasetId layoutGroups).map IndexShard.layoutId).Nodup := by
  rw [rebuiltShards, List.map_map]
  exact (layoutGroups.property.sublist (List.filter_sublist.map Prod.fst))

theorem rebuiltShards_valid (h : GroupSetsValid layoutGroups) :
    ∀ shard ∈ rebuiltShards dir datasetId layoutGroups, shard.Valid := by
  intro shard hmem
  obtain ⟨entry, hentry, rfl⟩ := List.mem_map.mp hmem
  obtain ⟨hsafe, hgroups⟩ := h entry (List.mem_filter.mp hentry).1
  refine (valid_iff _).mpr ⟨hsafe, ?_, hgroups⟩
  unfold rebuiltShard
  dsimp only
  split <;> omega

theorem shardError?_eq_none_iff (dir : IndexDir) (head : IndexHead) :
    shardError? dir head = none
      ↔ ∀ layoutId layoutHead, head.layouts.get? layoutId = some layoutHead →
          ∃ shard, loadShard dir layoutId layoutHead = .ok shard := by
  unfold shardError?
  rw [List.findSome?_eq_none_iff]
  have hentry : ∀ entry : LayoutId × IndexLayoutHead,
      loadError? dir entry = none ↔ ∃ shard, loadShard dir entry.1 entry.2 = .ok shard := by
    intro entry
    unfold loadError?
    cases loadShard dir entry.1 entry.2 with
    | error error => simp
    | ok shard => simp
  simp only [hentry]
  constructor
  · intro h layoutId layoutHead hget
    exact h _ ((Dict.get?_eq_some_iff _ _ _).mp hget)
  · intro h entry hmem
    exact h entry.1 entry.2 ((Dict.get?_eq_some_iff _ _ _).mpr hmem)

/-- The new HEAD can be read exactly when the layouts it carries forward can be. -/
theorem shardError?_published {after : IndexDir} {shards : List IndexShard} {head : IndexHead}
    (hshards : after.shards = (dir.withShards shards).shards)
    (hhead : head.layouts = withHeads (previousLayouts dir) shards)
    (hnodup : (shards.map IndexShard.layoutId).Nodup) (hvalid : ∀ shard ∈ shards, shard.Valid) :
    shardError? after head = none ↔ CarriedReadable dir shards := by
  rw [shardError?_eq_none_iff, hhead]
  constructor
  · intro h layoutId layoutHead hget hold
    rw [← loadShard_withShards hshards (object_of_layoutHead (previousLayouts_valid hget)) hold]
    exact h layoutId layoutHead ((get?_withHeads_of_ne _ hold).trans hget)
  · intro h layoutId layoutHead hget
    by_cases hnew : ∃ shard ∈ shards, shard.layoutId = layoutId
    · obtain ⟨shard, hmem, rfl⟩ := hnew
      rw [get?_withHeads_of_mem _ hnodup hmem] at hget
      cases hget
      refine ⟨shard, loadShard_written (hvalid shard hmem) ?_⟩
      rw [hshards]
      exact get?_withShards_of_mem dir hnodup hmem
    · push Not at hnew
      rw [get?_withHeads_of_ne _ hnew] at hget
      rw [loadShard_withShards hshards (object_of_layoutHead (previousLayouts_valid hget)) hnew]
      exact h layoutId layoutHead hget hnew

variable {datasetIdHint : Option Text} {freshId deviceId establishedAt : Text}
variable {journalGeneration : ℕ}

/-- **Publishing the authoritative index** succeeds exactly when the files of the new shards are
    free and the layouts carried forward can be read. -/
theorem publishAuthoritativeIndex_exact (hgroups : GroupSetsValid layoutGroups)
    (hid : datasetId = resolvedDatasetId (loadHeadSafe dir) datasetIdHint freshId)
    {shards : List IndexShard} (hshards : shards = rebuiltShards dir datasetId layoutGroups)
    {head : IndexHead} (hhead : head = rebuiltHead dir datasetId journalGeneration shards) :
    Exact env (fun d => d = dir)
      (publishAuthoritativeIndex datasetIdHint freshId journalGeneration layoutGroups deviceId
        establishedAt)
      ((∀ shard ∈ shards, Free dir shard) ∧ CarriedReadable dir shards)
      (fun verified d => verified = head ∧ d.owner = .valid ⟨datasetId, establishedAt, deviceId⟩
        ∧ d.shards = (dir.withShards shards).shards ∧ d.head = .valid head)
      (InterruptedRebuild dir shards head) := by
  have hnodup : (shards.map IndexShard.layoutId).Nodup := hshards ▸ rebuiltShards_nodup
  have hvalid : ∀ shard ∈ shards, shard.Valid := hshards ▸ rebuiltShards_valid hgroups
  have hlayouts : head.layouts = withHeads (previousLayouts dir) shards := by rw [hhead]; rfl
  unfold publishAuthoritativeIndex
  refine Exact.look (fun _ => rfl) ?_
  have hbuild : buildIndex dir (loadHeadSafe dir) datasetIdHint freshId journalGeneration
      layoutGroups = ({ head with layouts := previousLayouts dir }, shards) := by
    rw [hhead, hshards, hid]
    rfl
  rw [hbuild]
  dsimp only
  have hloop : Exact env (fun d => d = dir) (publishShards shards (previousLayouts dir))
      (∀ shard ∈ shards, Free dir shard)
      (fun layouts d => layouts = withHeads (previousLayouts dir) shards
        ∧ d = dir.withShards shards)
      (InterruptedRebuild dir shards head) := by
    refine (publishEach_exact (List.map_id _).symm (fun _ _ _ _ => rfl) hvalid hnodup).weaken
      (fun _ h => h) Iff.rfl (fun _ _ _ h => h) ?_
    rintro d ⟨done, rest, hsplit, hdone, rfl⟩
    exact Or.inl ⟨rfl, rfl, done, rest, hsplit, hdone, rfl⟩
  refine hloop.bind fun hfree layouts => Exact.assume ?_
  rintro rfl
  rw [← hlayouts]
  have hwrite : Exact env (fun d => d = dir.withShards shards) (writeHead head true) True
      (fun _ d => d.owner = dir.owner ∧ d.shards = (dir.withShards shards).shards
        ∧ d.head = .valid head)
      (InterruptedRebuild dir shards head) := by
    refine (writeHead_exact head true).weaken (fun _ h => h) Iff.rfl ?_ ?_
    · rintro _ d _ ⟨⟨howner, hfiles⟩, hvalidHead⟩
      exact ⟨howner, hfiles, hvalidHead⟩
    · rintro d ⟨⟨howner, hfiles⟩, hold⟩
      exact Or.inl ⟨howner, hold, shards, [], by simp, hfree, hfiles⟩
  refine (hwrite.bind fun _ _ => Exact.ofState ?_).weaken (fun _ h => h)
    (iff_of_eq (true_and _)) (fun _ _ _ h => h) (fun _ h => h)
  rintro after ⟨howner, hfiles, hvalidHead⟩
  refine Exact.look (fun _ => rfl) ?_
  have hstrict : loadHeadStrict after = .ok head := by
    unfold loadHeadStrict loadHead
    rw [hvalidHead]
    dsimp only
    rw [withHeads_valid hlayouts hnodup hvalid]
  have hreadable := shardError?_published hfiles hlayouts hnodup hvalid
  rw [hstrict]
  dsimp only
  cases herror : shardError? after head with
  | some error =>
    refine Exact.throw _ ?_ ?_
    · rintro d rfl
      exact Or.inr ⟨hfree, howner, hfiles, hvalidHead⟩
    · exact fun h => absurd (herror.symm.trans (hreadable.mpr h)) (by simp)
  | none =>
    have hmarker : Exact env (fun d => d = after)
        (writeOwnership ⟨head.datasetId, establishedAt, deviceId⟩) (CarriedReadable dir shards)
        (fun _ d => d.owner = .valid ⟨datasetId, establishedAt, deviceId⟩
          ∧ d.shards = (dir.withShards shards).shards ∧ d.head = .valid head)
        (InterruptedRebuild dir shards head) := by
      refine Exact.step ?_ ?_
      · rintro d rfl
        exact Or.inr ⟨hfree, howner, hfiles, hvalidHead⟩
      · rintro d rfl
        refine ⟨hreadable.mp herror, ?_, hfiles, hvalidHead⟩
        rw [hhead]
        rfl
    refine (hmarker.bind fun _ _ => Exact.pure _ ?_).weaken (fun _ h => h)
      (iff_of_eq (and_true _)) (fun _ _ _ h => h) (fun _ h => h)
    rintro d ⟨howned, hdone, hhead'⟩
    exact ⟨rfl, howned, hdone, hhead'⟩

/-- The loop of `publish_authoritative_index`, where it returns, has written every shard. -/
theorem publishShards_returned (shards : List IndexShard) (dir : IndexDir)
    (layouts : Dict LayoutId IndexLayoutHead) :
    Triple env (fun d => d = dir) (publishShards shards layouts)
      (fun published d => published = withHeads layouts shards ∧ d = dir.withShards shards)
      (fun _ _ => True) (fun _ => True) := by
  induction shards generalizing dir layouts with
  | nil => exact Triple.pure _ fun d hd => ⟨rfl, hd⟩
  | cons shard rest ih =>
    refine Triple.lookAt (fun _ => rfl) (Triple.bind writeShard_returned fun layoutHead => ?_)
    refine Triple.ofState fun d hd => ?_
    obtain ⟨rfl, rfl⟩ := hd
    exact ih (dir.withShards [shard]) (layouts.insert shard.layoutId shard.layoutHead)

/-- **What a published authoritative index gives.** Where the publication returns, every shard of
    the new HEAD can be read, the given layouts have the given groups, and the others what they
    had. -/
theorem publishAuthoritativeIndex_returned :
    Triple env (fun d => d = dir)
      (publishAuthoritativeIndex datasetIdHint freshId journalGeneration layoutGroups deviceId
        establishedAt)
      (fun verified d => d.head = .valid verified ∧ shardError? d verified = none
        ∧ (∀ entry ∈ layoutGroups.val, ∀ groupId,
            committedGroup d entry.1 groupId = entry.2.get? groupId)
        ∧ ∀ layoutId, layoutId ∉ layoutGroups.val.map Prod.fst → ∀ groupId,
            committedGroup d layoutId groupId = committedGroup dir layoutId groupId)
      (fun _ _ => True) (fun _ => True) := by
  unfold publishAuthoritativeIndex
  refine Triple.lookAt (fun _ => rfl) ?_
  obtain ⟨datasetId, hid⟩ : ∃ datasetId,
      datasetId = resolvedDatasetId (loadHeadSafe dir) datasetIdHint freshId := ⟨_, rfl⟩
  obtain ⟨shards, hshards⟩ : ∃ shards, shards = rebuiltShards dir datasetId layoutGroups :=
    ⟨_, rfl⟩
  have hnodup : (shards.map IndexShard.layoutId).Nodup := hshards ▸ rebuiltShards_nodup
  have hbuild : buildIndex dir (loadHeadSafe dir) datasetIdHint freshId journalGeneration
      layoutGroups = ({ rebuiltHead dir datasetId journalGeneration shards with
        layouts := previousLayouts dir }, shards) := by
    rw [hshards, hid]
    rfl
  rw [hbuild]
  refine Triple.bind (publishShards_returned shards dir _) fun published => ?_
  refine Triple.ofState fun d₁ hd₁ => ?_
  obtain ⟨rfl, rfl⟩ := hd₁
  have hwrite : Triple env (fun d => d = dir.withShards shards)
      (writeHead (rebuiltHead dir datasetId journalGeneration shards) true)
      (fun _ d => d.shards = (dir.withShards shards).shards
        ∧ d.head = .valid (rebuiltHead dir datasetId journalGeneration shards))
      (fun _ _ => True) (fun _ => True) :=
    Triple.weaken (writeHead_exact _ true) (fun _ h => h) (fun _ _ h => ⟨h.2.1.2, h.2.2⟩)
      (fun _ _ _ => trivial) (fun _ _ => trivial)
  refine Triple.bind hwrite fun _ => Triple.ofState fun after hafter => ?_
  obtain ⟨hfiles, hhead⟩ := hafter
  refine Triple.lookAt (fun _ => rfl) ?_
  cases hstrict : loadHeadStrict after with
  | error error => exact Triple.throw _ fun _ _ => trivial
  | ok verified =>
    dsimp only
    obtain ⟨hvalid, hverified⟩ : loadHeadSafe after = some verified
        ∧ verified = rebuiltHead dir datasetId journalGeneration shards := by
      unfold loadHeadStrict at hstrict
      unfold loadHeadSafe
      cases hload : loadHead after with
      | error error => simp [hload] at hstrict
      | ok found =>
        cases found with
        | none => simp [hload] at hstrict
        | some found =>
          simp only [hload, Except.ok.injEq] at hstrict
          subst hstrict
          have hfound : loadHeadSafe after = some found := by rw [loadHeadSafe, hload]
          exact ⟨rfl, Stored.valid.inj ((loadHeadSafe_eq_some.mp hfound).1.symm.trans hhead)⟩
    cases herror : shardError? after verified with
    | some error => exact Triple.throw _ fun _ _ => trivial
    | none =>
      have hread := (shardError?_eq_none_iff after verified).mp herror
      have hlayouts : previousLayouts after = withHeads (previousLayouts dir) shards := by
        rw [previousLayouts, hvalid, hverified]
        rfl
      have hcommitted : ∀ layoutId, (∀ shard ∈ shards, shard.layoutId ≠ layoutId) → ∀ groupId,
          committedGroup after layoutId groupId = committedGroup dir layoutId groupId := by
        intro layoutId hold groupId
        unfold committedGroup
        rw [hlayouts, get?_withHeads_of_ne _ hold]
        cases hget : (previousLayouts dir).get? layoutId with
        | none => rfl
        | some layoutHead =>
          dsimp only
          rw [loadShard_withShards hfiles (object_of_layoutHead (previousLayouts_valid hget)) hold]
      have hgiven : ∀ entry ∈ layoutGroups.val, ∀ groupId,
          committedGroup after entry.1 groupId = entry.2.get? groupId := by
        intro entry hentry groupId
        cases hsame : layoutUnchanged dir (previousLayouts dir) entry with
        | true =>
          -- the layout is carried forward, since its groups did not change
          have hold : ∀ shard ∈ shards, shard.layoutId ≠ entry.1 := by
            rw [hshards]
            intro shard hmem heq
            obtain ⟨other, hother, rfl⟩ := List.mem_map.mp hmem
            obtain ⟨hin, hchanged⟩ := List.mem_filter.mp hother
            have : other = entry := List.inj_on_of_nodup_map layoutGroups.property hin hentry heq
            rw [this, hsame] at hchanged
            exact absurd hchanged (by simp)
          rw [hcommitted entry.1 hold groupId]
          unfold layoutUnchanged at hsame
          unfold committedGroup
          cases hget : (previousLayouts dir).get? entry.1 with
          | none => simp [hget] at hsame
          | some layoutHead =>
            cases hload : loadShard dir entry.1 layoutHead with
            | error error => simp [hget, hload] at hsame
            | ok previous =>
              simp only [hget, hload, decide_eq_true_eq] at hsame
              simp only [hload, hsame]
        | false =>
          have hmem : rebuiltShard (previousLayouts dir) datasetId entry ∈ shards := by
            rw [hshards]
            exact List.mem_map_of_mem (List.mem_filter.mpr ⟨hentry, by simp [hsame]⟩)
          have hget := get?_withHeads_of_mem (previousLayouts dir) hnodup hmem
          obtain ⟨shard, hload⟩ := hread entry.1 _ (by rw [hverified]; exact hget)
          have hdigest := (loadShard_ok hload).2.1
          unfold committedGroup
          rw [hlayouts, show (withHeads (previousLayouts dir) shards).get? entry.1 = _ from hget]
          dsimp only
          rw [hload, ← hdigest]
          rfl
      refine Triple.bind (Triple.step (fun _ _ _ => trivial) (fun _ _ _ _ => trivial) ?_)
        fun _ => Triple.pure _ fun _ h => h
      rintro d rfl
      refine ⟨hverified ▸ hhead, herror, ?_, ?_⟩
      · exact hgiven
      · intro layoutId hnot groupId
        refine hcommitted layoutId ?_ groupId
        rw [hshards]
        intro shard hmem heq
        obtain ⟨entry, hentry, rfl⟩ := List.mem_map.mp hmem
        exact hnot (heq ▸ List.mem_map_of_mem (List.mem_filter.mp hentry).1)

end Authoritative

end RomCloud.SaveSync.Index
