import RomCloud.Catalog.RefreshSteps

namespace RomCloud.Catalog

open Lib

/-!
# What the transactions of a system leave

The rows and cache entries of a system after its transactions, when no exception cuts them short.

* `row_applyAll_of_saved`, `row_applyAll_of_spared`, `row_applyAll_of_deleted` — a list of
  transactions at one identity;
* `Identified.unique` — no row is taken by two of the found games;
* `Gone` — the rows that are deleted, with their cache entries: companions and duplicates;
* `row_identified`, `row_unidentified`, `row_gone`, `entry_body` — the rows after the transactions;
* `reached_spec` — the other systems leave all of this alone.
-/

/-! ### A list of transactions at one identity -/

def RowOp.Deletes : RowOp → ℕ → Prop
  | .delete ids, id => id ∈ ids
  | .save _, _ | .register _, _ | .record _ _, _ | .move _ _, _ | .hide _, _ => False

def RowOp.Saves : RowOp → ℕ → Game → Prop
  | .save rows, id, game => (id, game) ∈ rows
  | .delete _, _, _ | .register _, _, _ | .record _ _, _, _ | .move _ _, _, _ | .hide _, _, _ =>
    False

def RowOp.Hides : RowOp → ℕ → Prop
  | .hide j, id => id = j
  | .delete _, _ | .save _, _ | .register _, _ | .record _ _, _ | .move _ _, _ => False

/-- The transaction leaves the row of the game alone. -/
structure RowOp.Spares (op : RowOp) (id : ℕ) : Prop where
  deletes : ¬ op.Deletes id
  hides : ¬ op.Hides id
  saves : ∀ game, ¬ op.Saves id game

namespace Rows

variable {c d : Rows} {op : RowOp} {ops : List RowOp} {id : ℕ} {game : Game}

theorem nextId_le_apply (c : Rows) (op : RowOp) : c.nextId ≤ (c.apply op).nextId := by
  cases op with
  | delete | hide => exact Nat.le_refl _
  | save rows =>
    show c.nextId ≤ (rows.foldl (fun c r => c.save r.1 r.2) c).nextId
    exact List.foldlRecOn (motive := fun d : Rows => c.nextId ≤ d.nextId) rows _ (Nat.le_refl _)
      fun d h r _ => Nat.le_trans h (Nat.le_max_left ..)
  | register games =>
    show c.nextId ≤ (games.foldl (fun c g => c.register g.1 g.2) c).nextId
    refine List.foldlRecOn (motive := fun d : Rows => c.nextId ≤ d.nextId) games _ (Nat.le_refl _)
      fun d h g _ => ?_
    rw [register, nextId_recordMissing]
    exact Nat.le_trans h (Nat.le_max_left ..)
  | record id names => exact Nat.le_of_eq (c.nextId_recordMissing id names).symm
  | move id path => exact Nat.le_of_eq (c.nextId_record id path).symm

theorem row_apply_of_spared (hlt : id < d.nextId) (h : op.Spares id) :
    (d.apply op).row id = d.row id := by
  cases op with
  | delete ids => exact Run.row_apply_delete d ids id h.deletes
  | save rows =>
    rcases Run.row_apply_save d rows id with ⟨-, hsame⟩ | ⟨game, hmem, -⟩
    · exact hsame
    · exact absurd hmem (h.saves game)
  | register games => exact Run.row_apply_register d games id hlt
  | record j names => exact d.row_recordMissing j names id
  | move j path => exact d.row_record j path id
  | hide j => exact (d.row_hide j id).trans (if_neg h.hides)

theorem row_apply_of_saved (hsave : op.Saves id game) (hsame : ∀ g, op.Saves id g → g = game) :
    (d.apply op).row id = some game := by
  cases op with
  | save rows =>
    rcases Run.row_apply_save d rows id with ⟨hout, -⟩ | ⟨g, hmem, hrow⟩
    · exact absurd (List.mem_map.mpr ⟨_, hsave, rfl⟩) hout
    · exact hrow.trans (congrArg some (hsame g hmem))
  | delete | register | record | move | hide => exact hsave.elim

theorem row_apply_of_deleted (h : op.Deletes id) : (d.apply op).row id = none := by
  cases op with
  | delete ids => exact (d.row_delete ids id).trans (if_pos h)
  | save | register | record | move | hide => exact h.elim

/-- No transaction names the row. -/
theorem row_applyAll_of_spared (hlt : id < d.nextId) (h : ∀ op ∈ ops, op.Spares id) :
    (d.applyAll ops).row id = d.row id := by
  induction ops generalizing d with
  | nil => rfl
  | cons op rest ih =>
    have hrest := @ih (d.apply op) (Nat.lt_of_lt_of_le hlt (d.nextId_le_apply op))
      fun op hop => h op (List.mem_cons_of_mem _ hop)
    exact hrest.trans (row_apply_of_spared hlt (h op List.mem_cons_self))

/-- The row is saved, always as the same, and is not deleted. -/
theorem row_applyAll_of_saved (hlt : id < d.nextId)
    (hkeep : ∀ op ∈ ops, ¬ op.Deletes id ∧ ¬ op.Hides id)
    (hsame : ∀ op ∈ ops, ∀ g, op.Saves id g → g = game)
    (h : d.row id = some game ∨ ∃ op ∈ ops, op.Saves id game) :
    (d.applyAll ops).row id = some game := by
  induction ops generalizing d with
  | nil => exact h.resolve_right (by simp)
  | cons op rest ih =>
    refine @ih (d.apply op) (Nat.lt_of_lt_of_le hlt (d.nextId_le_apply op))
      (fun op hop => hkeep op (List.mem_cons_of_mem _ hop))
      (fun op hop => hsame op (List.mem_cons_of_mem _ hop)) ?_
    by_cases hsave : op.Saves id game
    · exact .inl (row_apply_of_saved hsave (hsame op List.mem_cons_self))
    · have hspared : op.Spares id := by
        obtain ⟨hdeletes, hhides⟩ := hkeep op List.mem_cons_self
        refine ⟨hdeletes, hhides, fun g hg => hsave ?_⟩
        exact hsame op List.mem_cons_self g hg ▸ hg
      rcases h with hrow | ⟨op', hop', hsave'⟩
      · exact .inl ((row_apply_of_spared hlt hspared).trans hrow)
      · rcases List.mem_cons.mp hop' with rfl | hop'
        · exact absurd hsave' hsave
        · exact .inr ⟨op', hop', hsave'⟩

/-- The row is deleted and never saved. -/
theorem row_applyAll_of_deleted (hlt : id < d.nextId) (hsave : ∀ op ∈ ops, ∀ g, ¬ op.Saves id g)
    (h : d.row id = none ∨ ∃ op ∈ ops, op.Deletes id) : (d.applyAll ops).row id = none := by
  induction ops generalizing d with
  | nil => exact h.resolve_right (by simp)
  | cons op rest ih =>
    refine @ih (d.apply op) (Nat.lt_of_lt_of_le hlt (d.nextId_le_apply op))
      (fun op hop => hsave op (List.mem_cons_of_mem _ hop)) ?_
    by_cases hdelete : op.Deletes id
    · exact .inl (row_apply_of_deleted hdelete)
    · rcases h with hrow | ⟨op', hop', hdelete'⟩
      · refine .inl ?_
        by_cases hhide : op.Hides id
        · cases op with
          | hide j =>
            obtain rfl : id = j := hhide
            refine (d.row_hide id id).trans ?_
            rw [if_pos rfl, hrow]
            rfl
          | delete | save | register | record | move => exact hhide.elim
        · exact (row_apply_of_spared hlt ⟨hdelete, hhide, hsave op List.mem_cons_self⟩).trans hrow
      · rcases List.mem_cons.mp hop' with rfl | hop'
        · exact absurd hdelete' hdelete
        · exact .inr ⟨op', hop', hdelete'⟩

theorem entry_apply_of_deleted (h : op.Deletes id) : (d.apply op).entry id = none := by
  cases op with
  | delete ids => exact (d.entry_delete ids id).trans (if_pos h)
  | save | register | record | move | hide => exact h.elim

/-- Only a deletion changes a cache entry. -/
theorem entry_apply_of_kept (h : ¬ op.Deletes id) : (d.apply op).entry id = d.entry id := by
  cases op with
  | delete ids => exact (d.entry_delete ids id).trans (if_neg h)
  | save rows =>
    show (rows.foldl (fun c r => c.save r.1 r.2) d).entry id = _
    exact List.foldlRecOn (motive := fun e : Rows => e.entry id = d.entry id) rows _ rfl
      fun e he r _ => he
  | register games =>
    show (games.foldl (fun c g => c.register g.1 g.2) d).entry id = _
    refine List.foldlRecOn (motive := fun e : Rows => e.entry id = d.entry id) games _ rfl
      fun e he g _ => ?_
    rw [register, entry_recordMissing, entry_save, he]
  | record j names => exact d.entry_recordMissing j names id
  | move j path => exact d.entry_record j path id
  | hide j => exact d.entry_hide j id

theorem entry_applyAll_of_kept (h : ∀ op ∈ ops, ¬ op.Deletes id) :
    (d.applyAll ops).entry id = d.entry id :=
  applyAll_induction (P := fun e => e.entry id = d.entry id) rfl
    fun _ he op hop => (entry_apply_of_kept (h op hop)).trans he

theorem entry_applyAll_of_deleted (h : d.entry id = none ∨ ∃ op ∈ ops, op.Deletes id) :
    (d.applyAll ops).entry id = none := by
  induction ops generalizing d with
  | nil => exact h.resolve_right (by simp)
  | cons op rest ih =>
    refine @ih (d.apply op) ?_
    by_cases hdelete : op.Deletes id
    · exact .inl (entry_apply_of_deleted hdelete)
    · rcases h with hentry | ⟨op', hop', hdelete'⟩
      · exact .inl ((entry_apply_of_kept hdelete).trans hentry)
      · rcases List.mem_cons.mp hop' with rfl | hop'
        · exact absurd hdelete' hdelete
        · exact .inr ⟨op', hop', hdelete'⟩

/-- Rows that are hidden one after the other. -/
theorem row_applyAll_hide (ids : List ℕ) :
    (d.applyAll (ids.map .hide)).row id
      = if id ∈ ids then (d.row id).map ({ · with isEligible := false }) else d.row id := by
  induction ids generalizing d with
  | nil => rfl
  | cons j rest ih =>
    rw [List.map_cons, applyAll, List.foldl_cons]
    refine (@ih (d.hide j)).trans ?_
    rw [row_hide]
    by_cases hj : id = j
    · subst hj
      rw [if_pos rfl, if_pos List.mem_cons_self, Option.map_map]
      split <;> rfl
    · simp only [List.mem_cons, hj, false_or, if_false]

theorem proxy_applyAll_hide (ids : List ℕ) :
    (d.applyAll (ids.map .hide)).proxy id = if id ∈ ids then none else d.proxy id := by
  induction ids generalizing d with
  | nil => rfl
  | cons j rest ih =>
    rw [List.map_cons, applyAll, List.foldl_cons]
    refine (@ih (d.hide j)).trans ?_
    rw [proxy_hide]
    by_cases hj : id = j
    · subst hj
      rw [if_pos rfl, if_pos List.mem_cons_self]
      split <;> rfl
    · simp only [List.mem_cons, hj, false_or, if_false]

end Rows

/-! ### Who goes on as whom -/

/-- The path of a game is that of one of its assets. -/
theorem exists_of_primaryPath {assets : List Asset} {path : SourcePath}
    (h : primaryPath assets = some path) : ∃ asset ∈ assets, asset.relativePath = path := by
  obtain ⟨asset, hasset, rfl⟩ := Option.map_eq_some_iff.mp h
  refine ⟨asset, ?_, rfl⟩
  rcases Option.or_eq_some_iff.mp hasset with hfind | ⟨-, hhead⟩
  · exact List.mem_of_find?_eq_some hfind
  · exact List.mem_of_head? hhead

/-- No two games were found at one path. -/
theorem Scan.eq_of_path (scan : Scan) {found other : Found} (h : found ∈ scan.games)
    (h' : other ∈ scan.games) {path : SourcePath} (hpath : found.path = some path)
    (hpath' : other.path = some path) : found = other := by
  have hdistinct := scan.distinct
  generalize scan.games = games at h h' hdistinct
  induction games with
  | nil => exact absurd h List.not_mem_nil
  | cons g rest ih =>
    have hrest : (rest.filterMap Found.path).Nodup := by
      rw [List.filterMap_cons] at hdistinct
      split at hdistinct
      · exact hdistinct
      · exact (List.nodup_cons.mp hdistinct).2
    have hout : ∀ {f : Found}, f ∈ rest → f.path = some path → g.path ≠ some path := by
      intro f hf hfpath hg
      rw [List.filterMap_cons, hg] at hdistinct
      exact (List.nodup_cons.mp hdistinct).1 (List.mem_filterMap.mpr ⟨f, hf, hfpath⟩)
    rcases List.mem_cons.mp h with rfl | hin
    · rcases List.mem_cons.mp h' with rfl | hin'
      · rfl
      · exact absurd hpath (hout hin' hpath')
    · rcases List.mem_cons.mp h' with rfl | hin'
      · exact absurd hpath' (hout hin hpath)
      · exact ih hin hin' hrest

namespace Run

variable {run : Run} {c d : Rows} {system : String} {scan : Scan} {id : ℕ} {old game : Game}
  {found other : Found} {path path' : SourcePath}

/-- The row of a directory is at no path that was found. -/
theorem Legacy.path_ne {row : Game} (h : Legacy scan.games scan.directories path row)
    (hfound : found ∈ scan.games) (hpath : found.path = some path') : row.path ≠ some path' := by
  obtain ⟨-, directory, hin, hrow, -⟩ := h
  rintro hsame
  obtain rfl : directory = path' := Option.some.inj (hrow.symm.trans hsame)
  exact scan.accepted found hfound directory hpath (scan.rejected directory hin)

/-- **No row is taken by two games.** -/
theorem Identified.unique (h : Identified c system scan found path (id, old))
    (h' : Identified c system scan other path' (id, game)) :
    old = game ∧ path = path' ∧ found = other := by
  obtain ⟨hmem, hcase⟩ := existing_cases h.row
  obtain ⟨hmem', hcase'⟩ := existing_cases h'.row
  obtain rfl : old = game := by
    have hrow := ((Rows.mem_systemRows ..).mp hmem).1
    have hrow' := ((Rows.mem_systemRows ..).mp hmem').1
    exact Option.some.inj (hrow.symm.trans hrow')
  have hpath : path = path' := by
    rcases hcase with hat | ⟨-, hlegacy⟩
    · rcases hcase' with hat' | ⟨-, hlegacy'⟩
      · exact Option.some.inj (hat.symm.trans hat')
      · exact absurd hat (hlegacy'.path_ne h.mem h.at_path)
    · rcases hcase' with hat' | ⟨-, hlegacy'⟩
      · exact absurd hat' (hlegacy.path_ne h'.mem h'.at_path)
      · -- one directory has one game below it
        obtain ⟨-, directory, -, hrow, hbelow⟩ := hlegacy
        obtain ⟨-, directory', -, hrow', hbelow'⟩ := hlegacy'
        obtain rfl : directory = directory' := Option.some.inj (hrow.symm.trans hrow')
        exact (List.cons.inj (hbelow.symm.trans hbelow')).1
  refine ⟨rfl, hpath, ?_⟩
  exact scan.eq_of_path h.mem h'.mem h.at_path (hpath ▸ h'.at_path)

/-- A row that a game goes on as is no duplicate. -/
theorem Identified.not_duplicate (h : Identified c system scan found path (id, old)) :
    ¬ Duplicate c system scan id := by
  rintro ⟨other, path', r, game, hid, hmem, hne⟩
  obtain ⟨hrow, hpath'⟩ := mem_candidates.mp hmem
  obtain ⟨hold, hcase⟩ := existing_cases h.row
  obtain rfl : old = game := Option.some.inj
    (((Rows.mem_systemRows ..).mp hold).1.symm.trans ((Rows.mem_systemRows ..).mp hrow).1)
  rcases hcase with hat | ⟨-, hlegacy⟩
  · obtain rfl : path = path' := Option.some.inj (hat.symm.trans hpath')
    exact hne (congrArg Prod.fst (Option.some.inj (h.row.symm.trans hid.row)))
  · exact hlegacy.path_ne hid.mem hid.at_path hpath'

/-- The row of a directory has to be written. -/
theorem changed_of_legacy (h : Legacy scan.games scan.directories path old)
    (hpath : found.path = some path) : run.changed found old = true := by
  obtain ⟨hsingle, directory, -, hrow, hbelow⟩ := h
  obtain ⟨asset, hasset⟩ := List.length_eq_one_iff.mp hsingle
  obtain ⟨first, hfirst, hat⟩ := exists_of_primaryPath hpath
  have hdirectory : asset.relativePath = directory := by
    obtain ⟨asset', hin, heq⟩ := exists_of_primaryPath hrow
    rw [hasset] at hin
    exact List.mem_singleton.mp hin ▸ heq
  have hne : first ∉ old.assets := by
    rw [hasset, List.mem_singleton]
    rintro rfl
    -- a path is not below itself
    have hmem : path ∈ (scan.games.filterMap Found.path).dedup.filter (below directory) := by
      rw [hbelow]
      exact List.mem_singleton.mpr rfl
    have hlt := (Bool.and_eq_true_iff.mp (List.mem_filter.mp hmem).2).2
    rw [decide_eq_true_eq, ← hdirectory, hat] at hlt
    exact absurd hlt (lt_irrefl _)
  have hdiffer : assetPathsDiffer old.assets found.assets = true := by
    rw [assetPathsDiffer, Bool.not_eq_true', Bool.and_eq_false_iff]
    refine .inr (List.all_eq_false.mpr ⟨first, hfirst, by simpa using hne⟩)
  simp [changed, hdiffer]

/-! ### The transactions of a system -/

/-- The row is deleted, with its cache entry. -/
def Gone (c : Rows) (system : String) (scan : Scan) (id : ℕ) : Prop :=
  (∃ game, Companion c system scan (id, game)) ∨ Duplicate c system scan id

theorem Gone.known (h : Gone c system scan id) : Known c system id := by
  rcases h with ⟨game, hmem, -⟩ | ⟨_, path, _, game, -, hmem, -⟩
  · exact ⟨game, hmem⟩
  · exact ⟨game, (mem_candidates.mp hmem).1⟩

/-- The transactions after the companions are pruned. -/
def passOps (run : Run) (c : Rows) (system : String) (scan : Scan) : List RowOp :=
  let pass := run.loop c system scan
  pass.ops ++ unlessEmpty .register pass.pending ++ unlessEmpty .save pass.migrations
    ++ pass.rewrites.flatMap (fun r => run.rewriteOps c system r.1 r.2)
    ++ unlessEmpty .delete pass.duplicates
    ++ pass.survivors.flatMap (fun r => run.canonicalOps c system r.1 r.2)

theorem bodyOps_eq : run.bodyOps c system scan
    = pruneOps c system scan ++ run.passOps c system scan := by
  simp only [bodyOps, passOps, loop, List.append_assoc]

theorem Needed.not_hides {op : RowOp} (h : Needed run c system scan op) : ¬ op.Hides id := by
  cases h <;> exact not_false

theorem Needed.written {op : RowOp} (h : Needed run c system scan op) (hsave : op.Saves id game) :
    Written run c system scan (id, game) := by
  cases h with
  | save hrows => exact hrows _ hsave
  | prune | retire | register | record | move => exact hsave.elim

theorem Needed.gone {op : RowOp} (h : Needed run c system scan op) (hdelete : op.Deletes id) :
    Gone c system scan id := by
  cases h with
  | @prune r hr =>
    obtain rfl : id = r.1 := List.mem_singleton.mp hdelete
    exact .inl ⟨r.2, hr⟩
  | retire hids => exact .inr (hids id hdelete)
  | save | register | record | move => exact hdelete.elim

/-- The loop itself deletes nothing. -/
theorem loop_not_deletes {op : RowOp} (h : op ∈ (run.loop c system scan).ops) :
    ¬ op.Deletes id := by
  revert op
  refine List.foldlRecOn (motive := fun pass : Pass => ∀ {op}, op ∈ pass.ops → ¬ op.Deletes id)
    scan.games _ (by simp) ?_
  intro pass hpass found _ op hop
  rw [turn] at hop
  split at hop
  · exact hpass hop
  · split at hop
    · dsimp only at hop
      split at hop
      · rcases List.mem_append.mp hop with hop | hop
        · exact hpass hop
        · exact List.mem_singleton.mp hop ▸ not_false
      · exact hpass hop
    · dsimp only at hop
      split at hop
      · exact hpass hop
      · split at hop
        · exact hpass hop
        · rcases List.mem_append.mp hop with hop | hop
          · exact hpass hop
          · rcases List.mem_cons.mp hop with rfl | hop
            · exact not_false
            · split at hop
              · rw [rewriteOps] at hop
                split at hop
                · exact absurd hop List.not_mem_nil
                · exact List.mem_singleton.mp hop ▸ not_false
              · exact absurd hop List.not_mem_nil

/-- What is deleted after the companions is a duplicate. -/
theorem duplicate_of_deletes {op : RowOp} (h : op ∈ run.passOps c system scan)
    (hdelete : op.Deletes id) : Duplicate c system scan id := by
  simp only [passOps, List.mem_append] at h
  rcases h with ((((h | h) | h) | h) | h) | h
  · exact absurd hdelete (loop_not_deletes h)
  · rw [mem_unlessEmpty h] at hdelete
    exact hdelete.elim
  · rw [mem_unlessEmpty h] at hdelete
    exact hdelete.elim
  · obtain ⟨r, -, hop⟩ := List.mem_flatMap.mp h
    rw [rewriteOps] at hop
    split at hop
    · exact absurd hop List.not_mem_nil
    · rw [List.mem_singleton.mp hop] at hdelete
      exact hdelete.elim
  · rw [mem_unlessEmpty h] at hdelete
    exact loop_ok.duplicates id hdelete
  · obtain ⟨r, -, hop⟩ := List.mem_flatMap.mp h
    rw [canonicalOps] at hop
    split at hop
    · obtain ⟨path, -, rfl⟩ := Option.map_eq_some_iff.mp (Option.mem_toList.mp hop)
      exact hdelete.elim
    · rw [List.mem_singleton.mp hop] at hdelete
      exact hdelete.elim

theorem mem_unlessEmpty_self {α : Type} {op : List α → RowOp} {xs : List α} {x : α} (h : x ∈ xs) :
    op xs ∈ unlessEmpty op xs := by
  rw [unlessEmpty, if_neg, List.mem_singleton]
  rw [List.isEmpty_iff]
  exact List.ne_nil_of_mem h

/-- A row that a game goes on as is saved, if it has to be written. -/
theorem saves_of_identified (h : Identified c system scan found path (id, old))
    (hchanged : run.changed found old = true) :
    ∃ op ∈ run.passOps c system scan, op.Saves id (run.adopt system found old) := by
  obtain ⟨pass, hpass⟩ := @exists_turn run c system scan found h.mem
  by_cases hcurrent : run.current old = true
  · refine ⟨.save [(id, run.adopt system found old)], ?_, List.mem_singleton.mpr rfl⟩
    have hmem : RowOp.save [(id, run.adopt system found old)] ∈ (run.loop c system scan).ops :=
      hpass.ops _ (by simp [turn, h.at_path, h.row, hchanged, hcurrent])
    simp only [passOps, List.mem_append]
    exact .inl (.inl (.inl (.inl (.inl hmem))))
  · have hmem : (id, run.adopt system found old) ∈ (run.loop c system scan).migrations :=
      hpass.migrations _ (by simp [turn, h.at_path, h.row, hchanged, hcurrent])
    refine ⟨.save (run.loop c system scan).migrations, ?_, hmem⟩
    simp only [passOps, List.mem_append]
    exact .inl (.inl (.inl (.inr (mem_unlessEmpty_self hmem))))

theorem deletes_of_gone (h : Gone c system scan id) :
    ∃ op ∈ run.bodyOps c system scan, op.Deletes id := by
  rw [bodyOps_eq]
  rcases h with ⟨game, hmem, heligible, path, hconsumed, hpath⟩
    | ⟨found, path, r, game, hid, hmem, hne⟩
  · refine ⟨.delete [id], List.mem_append_left _ ?_, List.mem_singleton.mpr rfl⟩
    refine List.mem_map.mpr ⟨(id, game), List.mem_filter.mpr ⟨hmem, ?_⟩, rfl⟩
    have hpath' : game.path = some path := hpath
    simp only [Bool.and_eq_true, hpath', Option.any_some, decide_eq_true_eq]
    exact ⟨heligible, hconsumed⟩
  · obtain ⟨pass, hpass⟩ := @exists_turn run c system scan found hid.mem
    have hduplicate : id ∈ (run.loop c system scan).duplicates := by
      refine hpass.duplicates _ ?_
      have hin : id ∈ ((candidates (c.systemRows system) path).map (·.1)).filter (· ≠ r.1) :=
        List.mem_filter.mpr ⟨List.mem_map.mpr ⟨_, hmem, rfl⟩, by simpa using hne⟩
      have hrow : existing c (c.systemRows system) scan path = some (r.1, r.2) := hid.row
      rw [turn, hid.at_path]
      simp only [hrow]
      split
      · exact List.mem_append_right _ hin
      · split
        · exact List.mem_append_right _ hin
        · exact List.mem_append_right _ hin
    refine ⟨.delete (run.loop c system scan).duplicates, List.mem_append_right _ ?_, hduplicate⟩
    simp only [passOps, List.mem_append]
    exact .inl (.inr (mem_unlessEmpty_self hduplicate))

/-! ### The rows after the transactions -/

theorem Identified.lt (h : Identified c system scan found path (id, old)) : id < c.nextId :=
  Rows.row_lt ((Rows.mem_systemRows ..).mp (existing_eq_some h.row).1).1

/-- **A row that a found game goes on as.**  A companion that needs no writing is not written again
    after it was pruned. -/
theorem row_identified (h : Identified c system scan found path (id, old))
    (hkept : run.changed found old = true ∨ ¬ Companion c system scan (id, old)) :
    (c.applyAll (run.bodyOps c system scan)).row id
      = some (if run.changed found old then run.adopt system found old else old) := by
  have hrow : c.row id = some old := ((Rows.mem_systemRows ..).mp (existing_eq_some h.row).1).1
  have hsame : ∀ op ∈ run.bodyOps c system scan, ∀ game, op.Saves id game →
      game = run.adopt system found old := by
    intro op hop game hsave
    obtain ⟨other, path', old', hid, -, heq⟩ := (needed_of_mem hop).written hsave
    obtain ⟨rfl, -, rfl⟩ := h.unique hid
    exact heq
  have hhides : ∀ op ∈ run.bodyOps c system scan, ¬ op.Hides id :=
    fun op hop => (needed_of_mem hop).not_hides
  have hdeletes : ∀ op ∈ run.passOps c system scan, ¬ op.Deletes id :=
    fun op hop hdelete => h.not_duplicate (duplicate_of_deletes hop hdelete)
  have hpass : ∀ op ∈ run.passOps c system scan, op ∈ run.bodyOps c system scan := by
    intro op hop
    rw [bodyOps_eq]
    exact List.mem_append_right _ hop
  by_cases hchanged : run.changed found old = true
  · rw [if_pos hchanged, bodyOps_eq, Rows.applyAll, List.foldl_append]
    refine Rows.row_applyAll_of_saved ?_ ?_ ?_ (.inr (saves_of_identified h hchanged))
    · exact Rows.applyAll_induction (P := fun d => id < d.nextId) h.lt
        fun d hd op _ => Nat.lt_of_lt_of_le hd (d.nextId_le_apply op)
    · exact fun op hop => ⟨hdeletes op hop, hhides op (hpass op hop)⟩
    · exact fun op hop => hsame op (hpass op hop)
  · rw [if_neg hchanged]
    refine (Rows.row_applyAll_of_spared h.lt fun op hop =>
      ⟨fun hdelete => ?_, hhides op hop, ?_⟩).trans hrow
    · rcases (needed_of_mem hop).gone hdelete with ⟨game, hcompanion⟩ | hduplicate
      · have hgame : game = old :=
          eq_of_mem_systemRows hrow hcompanion.1
        exact (hkept.resolve_left hchanged) (hgame ▸ hcompanion)
      · exact h.not_duplicate hduplicate
    · intro game hsave
      obtain ⟨other, path', old', hid, hwritten, -⟩ := (needed_of_mem hop).written hsave
      obtain ⟨rfl, -, rfl⟩ := h.unique hid
      exact hchanged hwritten

/-- A row that no game goes on as stays, if it is not deleted. -/
theorem row_unidentified (hlt : id < c.nextId) (hgone : ¬ Gone c system scan id)
    (h : ∀ found path old, ¬ Identified c system scan found path (id, old)) :
    (c.applyAll (run.bodyOps c system scan)).row id = c.row id := by
  refine Rows.row_applyAll_of_spared hlt fun op hop => ?_
  have hneeded : Needed run c system scan op := needed_of_mem hop
  refine ⟨fun hdelete => hgone (hneeded.gone hdelete), hneeded.not_hides, fun game hsave => ?_⟩
  obtain ⟨found, path, old, hid, -⟩ := hneeded.written hsave
  exact h found path old hid

/-- A row that is deleted is gone, unless a game goes on as it. -/
theorem row_gone (hgone : Gone c system scan id)
    (h : ∀ found path old, ¬ Identified c system scan found path (id, old)) :
    (c.applyAll (run.bodyOps c system scan)).row id = none := by
  obtain ⟨game, hmem⟩ := hgone.known
  refine Rows.row_applyAll_of_deleted (Rows.row_lt ((Rows.mem_systemRows ..).mp hmem).1) ?_
    (.inr (deletes_of_gone hgone))
  intro op hop game hsave
  obtain ⟨found, path, old, hid, -⟩ := (needed_of_mem hop).written hsave
  exact h found path old hid

/-- **The cache entries.** -/
theorem entry_body (hgone : ¬ Gone c system scan id) :
    (c.applyAll (run.bodyOps c system scan)).entry id = c.entry id :=
  Rows.entry_applyAll_of_kept fun _ hop hdelete => hgone ((needed_of_mem hop).gone hdelete)

theorem entry_body_gone (hgone : Gone c system scan id) :
    (c.applyAll (run.bodyOps c system scan)).entry id = none :=
  Rows.entry_applyAll_of_deleted (.inr (deletes_of_gone hgone))

/-- A system without an exception. -/
theorem systemPass_eq (hscan : run.scan system = some scan) (hstop : run.stop system = none) :
    run.systemPass c system
      = (c.applyAll (run.bodyOps c system scan)).applyAll
          (run.rejectOps (c.applyAll (run.bodyOps c system scan)) system scan) := by
  simp only [systemPass, hscan, hstop, cut, Option.map_none]

theorem refresh_eq : run.refresh c = suppress (run.scanned c) run.stale := rfl

/-! ### The rows of one system -/

/-- The rows of a system are the same, with their cache entries. -/
structure Agree (system : String) (c d : Rows) : Prop where
  row : ∀ id game, game.system = system → (d.row id = some game ↔ c.row id = some game)
  entry : ∀ id game, game.system = system → c.row id = some game → d.entry id = c.entry id

theorem Agree.systemRows (h : Agree system c d) : d.systemRows system = c.systemRows system :=
  Rows.systemRows_congr h.row

/-- The choice among rows looks at their cache entries only. -/
theorem selectExisting_congr {rows : List (ℕ × Game)}
    (h : ∀ r ∈ rows, d.entry r.1 = c.entry r.1) :
    selectExisting d rows = selectExisting c rows := by
  have hkey : ∀ r ∈ rows, identityKey d r = identityKey c r := by
    intro r hr
    rw [identityKey, identityKey, h r hr]
  have hmem : ∀ r, r ∈ rows.argmin (identityKey d) ↔ r ∈ rows.argmin (identityKey c) := by
    intro r
    rw [List.mem_argmin_iff, List.mem_argmin_iff]
    refine and_congr_right fun hr => and_congr ?_ ?_
    · refine forall₂_congr fun a ha => ?_
      rw [hkey r hr, hkey a ha]
    · refine forall₂_congr fun a ha => ?_
      rw [hkey r hr, hkey a ha]
  exact Option.ext hmem

theorem Agree.existing (h : Agree system c d) (path : SourcePath) :
    existing d (d.systemRows system) scan path = existing c (c.systemRows system) scan path := by
  rw [h.systemRows, Catalog.existing, Catalog.existing, selectExisting_congr]
  intro r hr
  obtain ⟨hrow, hsystem⟩ := (Rows.mem_systemRows ..).mp (mem_candidates.mp hr).1
  exact h.entry r.1 r.2 hsystem hrow

theorem Agree.identified (h : Agree system c d) {r : ℕ × Game} :
    Identified d system scan found path r ↔ Identified c system scan found path r := by
  constructor
  · exact fun hid => ⟨hid.mem, hid.at_path, (h.existing path).symm.trans hid.row⟩
  · exact fun hid => ⟨hid.mem, hid.at_path, (h.existing path).trans hid.row⟩

theorem Agree.companion (h : Agree system c d) {r : ℕ × Game} :
    Companion d system scan r ↔ Companion c system scan r := by
  rw [Companion, Companion, h.systemRows]

theorem Agree.gone (h : Agree system c d) : Gone d system scan id ↔ Gone c system scan id := by
  simp only [Gone, Duplicate, h.companion, h.identified, h.systemRows]

/-- An identity that is not new, and is none of another system. -/
structure Belongs (c : Rows) (system : String) (id : ℕ) : Prop where
  lt : id < c.nextId
  system_eq : ∀ game, c.row id = some game → game.system = system

theorem belongs_of_row (h : c.row id = some game) : Belongs c game.system id :=
  ⟨Rows.row_lt h, fun _ h' => congrArg Game.system (Option.some.inj (h'.symm.trans h))⟩

theorem Belongs.not_own {other : String} (h : Belongs c system id) (hne : system ≠ other) :
    ¬ Own c other id := by
  rintro (⟨game, hmem⟩ | hnew)
  · obtain ⟨hrow, hsystem⟩ := (Rows.mem_systemRows ..).mp hmem
    exact hne ((h.system_eq game hrow).symm.trans hsystem)
  · exact absurd h.lt (Nat.not_lt.mpr hnew)

/-- What is the same of an identity. -/
structure Same (c d : Rows) (id : ℕ) : Prop where
  row : d.row id = c.row id
  entry : d.entry id = c.entry id
  proxy : d.proxy id = c.proxy id

theorem Belongs.of_same (h : Belongs c system id) (hlt : c.nextId ≤ d.nextId)
    (hsame : Same c d id) : Belongs d system id :=
  ⟨Nat.lt_of_lt_of_le h.lt hlt, fun game hrow => h.system_eq game (hsame.row.symm.trans hrow)⟩

/-- The other systems leave it alone. -/
theorem Belongs.foldl (h : Belongs c system id) {systems : List String}
    (hout : system ∉ systems) :
    Same c (systems.foldl run.systemPass c) id
      ∧ Belongs (systems.foldl run.systemPass c) system id := by
  refine List.foldlRecOn (motive := fun d : Rows => Same c d id ∧ Belongs d system id) systems _
    ⟨⟨rfl, rfl, rfl⟩, h⟩ ?_
  rintro d ⟨hsame, hbelongs⟩ other hother
  have hne : system ≠ other := fun heq => hout (heq ▸ hother)
  have hpass : Confined (Own d other) other d (run.systemPass d other) := systemPass_confined
  have hnot := hbelongs.not_own hne
  have hstep : Same d (run.systemPass d other) id :=
    ⟨hpass.row id hnot, hpass.entry id hnot, hpass.proxy id hnot⟩
  exact ⟨⟨hstep.row.trans hsame.row, hstep.entry.trans hsame.entry, hstep.proxy.trans hsame.proxy⟩,
    hbelongs.of_same hpass.nextId hstep⟩

/-- The system itself keeps its identities. -/
theorem Belongs.systemPass (h : Belongs c system id) :
    Belongs (run.systemPass c system) system id := by
  have hpass : Confined (Own c system) system c (run.systemPass c system) := systemPass_confined
  refine ⟨Nat.lt_of_lt_of_le h.lt hpass.nextId, fun game hrow => ?_⟩
  rcases hpass.written id game hrow with hsystem | hrow
  · exact hsystem
  · exact h.system_eq game hrow

/-! ### Before the first system -/

theorem proxy_suppress (c : Rows) (test : Game → Bool) (id : ℕ) :
    (suppress c test).proxy id = if (c.row id).any test then none else c.proxy id := by
  have hmap : (c.games.entries.filter fun r => test r.2).map (RowOp.hide ·.1)
      = ((c.games.entries.filter fun r => test r.2).map Prod.fst).map RowOp.hide := by
    rw [List.map_map]
    rfl
  rw [suppress, hmap, Rows.proxy_applyAll_hide]
  refine if_congr ?_ rfl rfl
  rw [List.mem_map, Option.any_eq_true]
  constructor
  · rintro ⟨r, hr, rfl⟩
    obtain ⟨hmem, htest⟩ := List.mem_filter.mp hr
    exact ⟨r.2, (c.games.get?_eq_some_iff r.1 r.2).mpr hmem, htest⟩
  · rintro ⟨game, hrow, htest⟩
    exact ⟨(id, game), List.mem_filter.mpr ⟨(c.games.get?_eq_some_iff id game).mp hrow, htest⟩, rfl⟩

theorem suppress_same {test : Game → Bool} (h : ∀ game, c.row id = some game → test game = false) :
    Same c (suppress c test) id := by
  refine ⟨?_, entry_suppress c test id, ?_⟩
  · rw [row_suppress]
    cases hrow : c.row id with
    | none => rfl
    | some game => simp [h game hrow]
  · rw [proxy_suppress]
    cases hrow : c.row id with
    | none => rfl
    | some game => simp [h game hrow]

theorem nextId_suppress (c : Rows) (test : Game → Bool) : (suppress c test).nextId = c.nextId :=
  Rows.applyAll_induction (P := fun d => d.nextId = c.nextId) rfl fun d hd op hop => by
    obtain ⟨r, -, rfl⟩ := List.mem_map.mp hop
    exact hd

/-- To be hidden changes nothing of this. -/
theorem Belongs.suppress (h : Belongs c system id) (test : Game → Bool) :
    Belongs (suppress c test) system id := by
  refine ⟨?_, fun game hrow => ?_⟩
  · rw [nextId_suppress]
    exact h.lt
  · rw [row_suppress] at hrow
    obtain ⟨old, hold, rfl⟩ := Option.map_eq_some_iff.mp hrow
    split
    · exact h.system_eq old hold
    · exact h.system_eq old hold

theorem Belongs.start (h : Belongs c system id) : Belongs (run.start c) system id := by
  rw [Run.start, suppressUnmatched]
  split
  · exact (h.suppress _).suppress _
  · exact h.suppress _

/-- The rows of a system that is scanned are not hidden before. -/
theorem start_same (hmatched : system ∈ run.matched) (h : Belongs c system id) :
    Same c (run.start c) id := by
  obtain ⟨-, hname, hselected⟩ := mem_matched.mp hmatched
  have hfirst : Same c (run.suppressDeselected c) id :=
    suppress_same fun game hrow => by simp [h.system_eq game hrow, hselected]
  have hfirst' : Belongs (run.suppressDeselected c) system id := h.suppress _
  rw [Run.start, suppressUnmatched]
  split
  · have hsecond : Same (run.suppressDeselected c) (suppress (run.suppressDeselected c)
        fun game => decide (game.system ∈ run.unmatched)) id :=
      suppress_same fun game hrow => by simp [hfirst'.system_eq game hrow, unmatched, hname]
    exact ⟨hsecond.row.trans hfirst.row, hsecond.entry.trans hfirst.entry,
      hsecond.proxy.trans hfirst.proxy⟩
  · exact hfirst

/-- The rows when a system has its turn. -/
def reached (run : Run) (c : Rows) (system : String) : Rows :=
  (run.matched.takeWhile (· ≠ system)).foldl run.systemPass (run.start c)

theorem exists_after (h : system ∈ run.matched) :
    ∃ after, run.matched = run.matched.takeWhile (· ≠ system) ++ system :: after := by
  obtain ⟨before, after, hsplit, hbefore⟩ := List.eq_append_cons_of_mem h
  refine ⟨after, ?_⟩
  have htake : run.matched.takeWhile (· ≠ system) = before := by
    rw [hsplit, List.takeWhile_append_of_pos, List.takeWhile_cons_of_neg, List.append_nil]
    · simp
    · intro other hother
      simpa using fun heq : other = system => hbefore (heq ▸ hother)
  rw [htake, hsplit]

/-- **A system in its turn.**  It finds its rows as they were before the refresh, and what it leaves
    stays until the rows of an earlier source are hidden. -/
theorem reached_spec (h : system ∈ run.matched) :
    Agree system c (run.reached c system)
    ∧ (∀ id, Belongs c system id →
        Same c (run.reached c system) id ∧ Belongs (run.reached c system) system id)
    ∧ Agree system (run.systemPass (run.reached c system) system) (run.scanned c)
    ∧ ∀ id, Belongs (run.systemPass (run.reached c system) system) system id →
        Same (run.systemPass (run.reached c system) system) (run.scanned c) id := by
  obtain ⟨after, hsplit⟩ := exists_after h
  have hnodup := run.matched_nodup
  rw [hsplit, List.nodup_append, List.nodup_cons] at hnodup
  have hbefore : system ∉ run.matched.takeWhile (· ≠ system) := fun hin =>
    hnodup.2.2 system hin system List.mem_cons_self rfl
  obtain ⟨-, hname, hselected⟩ := mem_matched.mp h
  have hscanned : run.scanned c
      = after.foldl run.systemPass (run.systemPass (run.reached c system) system) := by
    rw [scanned, hsplit, List.foldl_append, List.foldl_cons]
    rfl
  have hfirst : ∀ id, Belongs c system id →
      Same c (run.reached c system) id ∧ Belongs (run.reached c system) system id := by
    intro id hid
    have hsame : Same c (run.start c) id := start_same h hid
    obtain ⟨hsame', hbelongs'⟩ := @Belongs.foldl run _ _ _ hid.start _ hbefore
    exact ⟨⟨hsame'.row.trans hsame.row, hsame'.entry.trans hsame.entry,
      hsame'.proxy.trans hsame.proxy⟩, hbelongs'⟩
  refine ⟨⟨fun id game hsystem => ?_, fun id game hsystem hrow => ?_⟩, hfirst,
    ⟨fun id game hsystem => ?_, fun id game hsystem hrow => ?_⟩, fun id hid => ?_⟩
  · rw [reached, foldl_systemPass_other hbefore hsystem]
    exact start_row hselected (fun _ hin => by simp [unmatched, hname] at hin) hsystem
  · exact (hfirst id (hsystem ▸ belongs_of_row hrow)).1.entry
  · rw [hscanned]
    exact foldl_systemPass_other hnodup.2.1.1 hsystem
  · have hbelongs : Belongs _ game.system id := belongs_of_row hrow
    rw [hsystem] at hbelongs
    rw [hscanned]
    exact (hbelongs.foldl hnodup.2.1.1).1.entry
  · rw [hscanned]
    exact (hid.foldl hnodup.2.1.1).1

end Run

end RomCloud.Catalog
