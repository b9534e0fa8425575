import RomCloud.Catalog.RefreshResult
import RomCloud.Lib.Positions

namespace RomCloud.Catalog

open Lib

/-!
# The rows that a system registers

New identities are consecutive, so the rows under them are the registered games in their order.

* `applyAll_new` — the rows that a list of transactions registers;
* `registered_bodyOps` — a system registers the games without a row, in the order of the scan;
* `row_body_cases` — where a row comes from;
* `exists_row`, `row_unique` — a found game has one row.
-/

/-- The games that a transaction registers. -/
def RowOp.registered : RowOp → List Game
  | .register games => games.map Prod.fst
  | .delete _ | .save _ | .record _ _ | .move _ _ | .hide _ => []

namespace Rows

variable {d : Rows} {op : RowOp} {ops : List RowOp} {base : ℕ}

theorem row_eq_none {id : ℕ} (h : d.nextId ≤ id) : d.row id = none := by
  cases hrow : d.row id with
  | none => rfl
  | some game => exact absurd (row_lt hrow) (Nat.not_lt.mpr h)

theorem apply_register (games : List (Game × (ℕ → String))) :
    (d.apply (.register games)).nextId = d.nextId + games.length
      ∧ ∀ k < games.length,
        (d.apply (.register games)).row (d.nextId + k) = (games.map Prod.fst)[k]? := by
  induction games generalizing d with
  | nil => exact ⟨rfl, fun k hk => absurd hk (Nat.not_lt_zero k)⟩
  | cons g rest ih =>
    have hnext : (d.register g.1 g.2).nextId = d.nextId + 1 := by
      rw [register, nextId_recordMissing]
      exact Nat.max_eq_right (Nat.le_succ _)
    obtain ⟨hlength, hrows⟩ := @ih (d.register g.1 g.2)
    rw [hnext] at hlength hrows
    show ((d.register g.1 g.2).apply (.register rest)).nextId = _
      ∧ ∀ k < _, ((d.register g.1 g.2).apply (.register rest)).row _ = _
    refine ⟨?_, fun k hk => ?_⟩
    · rw [hlength, List.length_cons]
      omega
    · cases k with
      | zero =>
        rw [Run.row_apply_register _ rest _ (by omega), register, row_recordMissing, row_save]
        simp
      | succ k =>
        have hk' : k < rest.length := by
          rw [List.length_cons] at hk
          omega
        have hid : d.nextId + (k + 1) = d.nextId + 1 + k := by omega
        rw [hid, hrows k hk']
        rfl

/-- One transaction: the new identities are those of the games it registers. -/
theorem apply_new (hspare : ∀ id, base ≤ id → op.Spares id) (hbase : base ≤ d.nextId) :
    (d.apply op).nextId = d.nextId + op.registered.length
      ∧ ∀ k < op.registered.length, (d.apply op).row (d.nextId + k) = op.registered[k]? := by
  cases op with
  | register games =>
    obtain ⟨hnext, hrows⟩ := @apply_register d games
    refine ⟨?_, fun k hk => hrows k ?_⟩
    · rw [hnext, RowOp.registered, List.length_map]
    · rwa [RowOp.registered, List.length_map] at hk
  | save rows =>
    refine ⟨?_, fun k hk => absurd hk (Nat.not_lt_zero k)⟩
    show (rows.foldl (fun c r => c.save r.1 r.2) d).nextId = _
    refine List.foldlRecOn (motive := fun e : Rows => e.nextId = d.nextId) rows _ rfl ?_
    intro e he r hr
    have hlt : r.1 < base := by
      by_contra hge
      exact (hspare r.1 (Nat.le_of_not_lt hge)).saves r.2 hr
    show max e.nextId (r.1 + 1) = _
    omega
  | delete | hide => exact ⟨rfl, fun k hk => absurd hk (Nat.not_lt_zero k)⟩
  | record id names =>
    exact ⟨d.nextId_recordMissing id names, fun k hk => absurd hk (Nat.not_lt_zero k)⟩
  | move id path => exact ⟨d.nextId_record id path, fun k hk => absurd hk (Nat.not_lt_zero k)⟩

/-- **The new rows.** -/
theorem applyAll_new (hspare : ∀ op ∈ ops, ∀ id, base ≤ id → op.Spares id)
    (hbase : base ≤ d.nextId) (k : ℕ) :
    (d.applyAll ops).row (d.nextId + k) = (ops.flatMap RowOp.registered)[k]? := by
  induction ops generalizing d k with
  | nil => exact row_eq_none (Nat.le_add_right ..)
  | cons op rest ih =>
    obtain ⟨hnext, hrows⟩ := apply_new (d := d) (hspare op List.mem_cons_self) hbase
    have hrest : ∀ op ∈ rest, ∀ id, base ≤ id → op.Spares id :=
      fun op hop => hspare op (List.mem_cons_of_mem _ hop)
    show ((d.apply op).applyAll rest).row _ = (op.registered ++ rest.flatMap _)[k]?
    by_cases hk : k < op.registered.length
    · -- registered here, and left alone from there on
      rw [List.getElem?_append_left hk, ← hrows k hk]
      exact row_applyAll_of_spared (by omega) fun op hop => hrest op hop _ (by omega)
    · have hid : d.nextId + k = (d.apply op).nextId + (k - op.registered.length) := by omega
      rw [List.getElem?_append_right (Nat.le_of_not_lt hk), hid]
      exact ih hrest (by omega) _

end Rows

namespace Run

variable {run : Run} {c d : Rows} {system : String} {scan : Scan} {id : ℕ} {old game : Game}
  {found other : Found} {path path' : SourcePath}

/-! ### What a system registers -/

/-- The game of a path without a row. -/
def newGame (run : Run) (c : Rows) (system : String) (scan : Scan) (found : Found) : Option Game :=
  found.path.bind fun path =>
    if (existing c (c.systemRows system) scan path).isNone then some (run.create system found)
    else none

theorem newGame_eq_some : run.newGame c system scan found = some game
    ↔ ∃ path, found.path = some path ∧ existing c (c.systemRows system) scan path = none
      ∧ run.create system found = game := by
  rw [newGame, Option.bind_eq_some_iff]
  refine exists_congr fun path => and_congr_right fun _ => ?_
  split
  · next hnone => simp [Option.isNone_iff_eq_none.mp hnone]
  · next hsome =>
    have hne : existing c (c.systemRows system) scan path ≠ none :=
      fun h => hsome (Option.isNone_iff_eq_none.mpr h)
    simp [hne]

/-- What has been registered, or waits for it. -/
def Pass.registered (pass : Pass) : List Game :=
  pass.ops.flatMap RowOp.registered ++ pass.pending.map Prod.fst

theorem registered_rewriteOps :
    (run.rewriteOps c system id found).flatMap RowOp.registered = [] := by
  rw [rewriteOps]
  split <;> rfl

theorem registered_canonicalOps :
    (run.canonicalOps c system id found).flatMap RowOp.registered = [] := by
  rw [canonicalOps]
  split
  · cases run.canonical system found <;> rfl
  · rfl

theorem registered_turn (pass : Pass) (found : Found) :
    (run.turn c system scan pass found).registered
      = pass.registered ++ (run.newGame c system scan found).toList := by
  rw [turn, newGame]
  split
  · next hpath => simp [hpath]
  · next path hpath =>
    rw [hpath, Option.bind_some]
    split
    · next hnone =>
      rw [hnone]
      dsimp only
      split
      · simp [Pass.registered, RowOp.registered]
      · simp [Pass.registered]
    · next id old hrow =>
      rw [hrow]
      dsimp only
      split
      · simp [Pass.registered]
      · split
        · simp [Pass.registered]
        · have hops : ((if (((candidates (c.systemRows system) path).map (·.1)).filter
              (· ≠ id)).isEmpty then run.rewriteOps c system id found else []).flatMap
              RowOp.registered) = [] := by
            split
            · exact registered_rewriteOps
            · rfl
          simp only [Pass.registered, List.flatMap_append, List.flatMap_cons, hops,
            RowOp.registered, List.append_nil, Option.isNone_some, Bool.false_eq_true, if_false,
            Option.toList_none]

theorem registered_loop :
    (run.loop c system scan).registered = scan.games.filterMap (run.newGame c system scan) := by
  have hfold : ∀ (games : List Found) (pass : Pass),
      (games.foldl (run.turn c system scan) pass).registered
        = pass.registered ++ games.filterMap (run.newGame c system scan) := by
    intro games
    induction games with
    | nil => exact fun pass => (List.append_nil _).symm
    | cons found rest ih =>
      intro pass
      rw [List.foldl_cons, ih, registered_turn, List.append_assoc, List.filterMap_cons]
      cases run.newGame c system scan found <;> rfl
  exact hfold scan.games _

/-- **A system registers the games without a row, in the order of the scan.** -/
theorem registered_bodyOps : (run.bodyOps c system scan).flatMap RowOp.registered
    = scan.games.filterMap (run.newGame c system scan) := by
  have hprune : (pruneOps c system scan).flatMap RowOp.registered = [] := by
    refine List.flatMap_eq_nil_iff.mpr fun op hop => ?_
    obtain ⟨r, -, rfl⟩ := companion_of_prune hop
    rfl
  have hempty : ∀ {α : Type} (op : List α → RowOp) (xs : List α), (op xs).registered = [] →
      (unlessEmpty op xs).flatMap RowOp.registered = [] := by
    intro α op xs h
    refine List.flatMap_eq_nil_iff.mpr fun o ho => ?_
    rw [mem_unlessEmpty ho, h]
  have hpending : (unlessEmpty .register (run.loop c system scan).pending).flatMap RowOp.registered
      = (run.loop c system scan).pending.map Prod.fst := by
    rw [unlessEmpty]
    split
    · next h => rw [List.isEmpty_iff.mp h]; rfl
    · simp [RowOp.registered]
  rw [bodyOps_eq, List.flatMap_append, hprune, List.nil_append, ← registered_loop, passOps,
    Pass.registered]
  simp only [List.flatMap_append, hpending, hempty .save _ rfl, hempty .delete _ rfl,
    List.append_assoc]
  rw [List.flatMap_assoc, List.flatMap_assoc]
  simp only [registered_rewriteOps, registered_canonicalOps]
  simp

theorem Needed.spares_new {op : RowOp} (h : Needed run c system scan op) (hid : c.nextId ≤ id) :
    op.Spares id := by
  refine ⟨fun hdelete => ?_, h.not_hides, fun game hsave => ?_⟩
  · obtain ⟨game, hmem⟩ := (h.gone hdelete).known
    exact absurd (Rows.row_lt ((Rows.mem_systemRows ..).mp hmem).1) (Nat.not_lt.mpr hid)
  · obtain ⟨found, path, old, hold, -⟩ := h.written hsave
    exact absurd hold.lt (Nat.not_lt.mpr hid)

theorem row_new (k : ℕ) : (c.applyAll (run.bodyOps c system scan)).row (c.nextId + k)
    = (scan.games.filterMap (run.newGame c system scan))[k]? := by
  rw [Rows.applyAll_new (fun op hop id hid => (needed_of_mem hop).spares_new hid) (Nat.le_refl _),
    registered_bodyOps]

/-- A new row is that of a game without a row. -/
theorem exists_new (hid : c.nextId ≤ id)
    (h : (c.applyAll (run.bodyOps c system scan)).row id = some game) :
    ∃ found ∈ scan.games, run.newGame c system scan found = some game := by
  obtain ⟨k, rfl⟩ := Nat.exists_eq_add_of_le hid
  rw [row_new] at h
  exact List.mem_filterMap.mp (List.mem_of_getElem? h)

/-- No two new rows have one path. -/
theorem new_unique {i j : ℕ} {g g' : Game} (hi : c.nextId ≤ i) (hj : c.nextId ≤ j)
    (h : (c.applyAll (run.bodyOps c system scan)).row i = some g)
    (h' : (c.applyAll (run.bodyOps c system scan)).row j = some g')
    (hpath : g.path = some path) (hpath' : g'.path = some path) : i = j := by
  obtain ⟨k, rfl⟩ := Nat.exists_eq_add_of_le hi
  obtain ⟨k', rfl⟩ := Nat.exists_eq_add_of_le hj
  rw [row_new] at h h'
  have hnodup : ((scan.games.filterMap (run.newGame c system scan)).filterMap
      Game.path).Nodup := by
    rw [List.filterMap_filterMap]
    refine nodup_filterMap_iff.mpr fun m n x y p hx hy hp hp' => ?_
    have hfound : ∀ {f : Found}, (run.newGame c system scan f).bind Game.path = some p →
        f.path = some p := by
      intro f hf
      obtain ⟨game, hgame, hgpath⟩ := Option.bind_eq_some_iff.mp hf
      obtain ⟨-, -, -, rfl⟩ := newGame_eq_some.mp hgame
      exact hgpath
    exact nodup_filterMap_iff.mp scan.distinct m n x y p hx hy (hfound hp) (hfound hp')
  rw [nodup_filterMap_iff.mp hnodup k k' g g' path h h' hpath hpath']

/-! ### Where a row comes from -/

/-- A row as the scan has found the game. -/
structure Fits (run : Run) (system : String) (found : Found) (game : Game) : Prop where
  system_eq : game.system = system
  path_eq : game.path = found.path
  unchanged : run.changed found game = false

theorem not_differ_self (assets : List Asset) : assetPathsDiffer assets assets = false := by
  simp [assetPathsDiffer]

theorem fits_create : Fits run system found (run.create system found) :=
  ⟨rfl, rfl, by simp [changed, create, current, not_differ_self]⟩

theorem fits_adopt : Fits run system found (run.adopt system found old) :=
  ⟨rfl, rfl, by simp [changed, adopt, create, current, not_differ_self]⟩

/-- A game that needs no writing is at the path of its row. -/
theorem Identified.fits (h : Identified c system scan found path (id, old))
    (hchanged : ¬ run.changed found old = true) : Fits run system found old := by
  obtain ⟨hmem, hcase⟩ := existing_cases h.row
  refine ⟨((Rows.mem_systemRows ..).mp hmem).2, ?_, by simpa using hchanged⟩
  rcases hcase with hat | ⟨-, hlegacy⟩
  · exact hat.trans h.at_path.symm
  · exact absurd (changed_of_legacy hlegacy h.at_path) hchanged

/-- Whether no cue set lists a game that was found. -/
def Apart (scan : Scan) : Prop :=
  ∀ found ∈ scan.games, ∀ path, found.path = some path → path ∉ scan.consumed

/-- A row that a found game goes on as is there afterwards. -/
theorem row_fits (hapart : Apart scan) (h : Identified c system scan found path (id, old)) :
    ∃ game, (c.applyAll (run.bodyOps c system scan)).row id = some game
      ∧ Fits run system found game := by
  have hkept : run.changed found old = true ∨ ¬ Companion c system scan (id, old) := by
    by_cases hchanged : run.changed found old = true
    · exact .inl hchanged
    · refine .inr ?_
      rintro ⟨-, -, path', hconsumed, hpath⟩
      have hsame : old.path = some path := (h.fits hchanged).path_eq.trans h.at_path
      obtain rfl : path' = path := Option.some.inj (hpath.symm.trans hsame)
      exact hapart found h.mem path' h.at_path hconsumed
  refine ⟨_, row_identified h hkept, ?_⟩
  split
  · exact fits_adopt
  · next hchanged => exact h.fits hchanged

/-- **Where a row comes from.**  It is that of a found game, or it was there before, and is neither
    a companion nor a duplicate nor that of a found game. -/
theorem row_body_cases (hapart : Apart scan)
    (h : (c.applyAll (run.bodyOps c system scan)).row id = some game) :
    (∃ found ∈ scan.games, Fits run system found game
        ∧ ((∃ path old, Identified c system scan found path (id, old))
          ∨ c.nextId ≤ id ∧ run.newGame c system scan found = some game))
      ∨ c.row id = some game ∧ ¬ Gone c system scan id
        ∧ ∀ found path old, ¬ Identified c system scan found path (id, old) := by
  by_cases hnew : c.nextId ≤ id
  · obtain ⟨found, hfound, hgame⟩ := exists_new hnew h
    obtain ⟨-, -, -, rfl⟩ := newGame_eq_some.mp hgame
    exact .inl ⟨found, hfound, fits_create, .inr ⟨hnew, hgame⟩⟩
  by_cases hid : ∃ found path old, Identified c system scan found path (id, old)
  · obtain ⟨found, path, old, hid⟩ := hid
    obtain ⟨game', hgame', hfits⟩ := @row_fits run c system scan id old found path hapart hid
    obtain rfl : game = game' := Option.some.inj (h.symm.trans hgame')
    exact .inl ⟨found, hid.mem, hfits, .inl ⟨path, old, hid⟩⟩
  · have hnone : ∀ found path old, ¬ Identified c system scan found path (id, old) :=
      fun found path old h => hid ⟨found, path, old, h⟩
    by_cases hgone : Gone c system scan id
    · rw [row_gone hgone hnone] at h
      exact absurd h (by simp)
    · rw [row_unidentified (Nat.lt_of_not_le hnew) hgone hnone] at h
      exact .inr ⟨h, hgone, hnone⟩

/-- **A found game has a row.** -/
theorem exists_row (hapart : Apart scan) (hfound : found ∈ scan.games)
    (hpath : found.path = some path) :
    ∃ id game, (c.applyAll (run.bodyOps c system scan)).row id = some game
      ∧ Fits run system found game := by
  cases hrow : existing c (c.systemRows system) scan path with
  | some r =>
    obtain ⟨id, old⟩ := r
    obtain ⟨game, hgame, hfits⟩ :=
      @row_fits run c system scan id old found path hapart ⟨hfound, hpath, hrow⟩
    exact ⟨id, game, hgame, hfits⟩
  | none =>
    have hmem : run.create system found ∈ scan.games.filterMap (run.newGame c system scan) :=
      List.mem_filterMap.mpr ⟨found, hfound, newGame_eq_some.mpr ⟨path, hpath, hrow, rfl⟩⟩
    obtain ⟨k, hk⟩ := List.mem_iff_getElem?.mp hmem
    exact ⟨c.nextId + k, _, (row_new k).trans hk, fits_create⟩

/-- **And only one.** -/
theorem row_unique (hapart : Apart scan) (hfound : found ∈ scan.games)
    (hpath : found.path = some path) {i j : ℕ} {g g' : Game}
    (h : (c.applyAll (run.bodyOps c system scan)).row i = some g)
    (h' : (c.applyAll (run.bodyOps c system scan)).row j = some g') (hsystem : g.system = system)
    (hsystem' : g'.system = system) (hg : g.path = some path) (hg' : g'.path = some path) :
    i = j := by
  -- a row that was there before would be the one of the found game, or a duplicate of it
  have hnotold : ∀ {id : ℕ} {game : Game}, c.row id = some game → game.system = system →
      game.path = some path → ¬ Gone c system scan id →
      (∀ found path old, ¬ Identified c system scan found path (id, old)) → False := by
    intro id game hrow hsys hgpath hgone hnone
    have hmem : (id, game) ∈ candidates (c.systemRows system) path :=
      mem_candidates.mpr ⟨(Rows.mem_systemRows ..).mpr ⟨hrow, hsys⟩, hgpath⟩
    obtain ⟨r, hr, -⟩ := @existing_of_mem c scan _ _ _ hmem
    have hid : Identified c system scan found path (r.1, r.2) := ⟨hfound, hpath, hr⟩
    by_cases heq : id = r.1
    · exact hnone found path r.2 (heq ▸ hid)
    · exact hgone (.inr ⟨found, path, r, game, hid, hmem, heq⟩)
  -- so both are rows of the found game
  have hfrom : ∀ {id : ℕ} {game : Game},
      (c.applyAll (run.bodyOps c system scan)).row id = some game → game.system = system →
      game.path = some path →
      (∃ old, existing c (c.systemRows system) scan path = some (id, old))
        ∨ c.nextId ≤ id ∧ existing c (c.systemRows system) scan path = none := by
    intro id game hrow hsys hgpath
    rcases row_body_cases hapart hrow with ⟨other, hother, hfits, hcase⟩ | ⟨hold, hgone, hnone⟩
    · have hother' : other.path = some path := hfits.path_eq.symm.trans hgpath
      rcases hcase with ⟨path', old, hid⟩ | ⟨hnew, hgame⟩
      · obtain rfl : path' = path := Option.some.inj (hid.at_path.symm.trans hother')
        exact .inl ⟨old, hid.row⟩
      · obtain ⟨path', hat, hnone, -⟩ := newGame_eq_some.mp hgame
        obtain rfl : path' = path := Option.some.inj (hat.symm.trans hother')
        exact .inr ⟨hnew, hnone⟩
    · exact (hnotold hold hsys hgpath hgone hnone).elim
  rcases hfrom h hsystem hg with ⟨old, hi⟩ | ⟨hi, hnone⟩
  · rcases hfrom h' hsystem' hg' with ⟨old', hj⟩ | ⟨-, hnone⟩
    · exact congrArg Prod.fst (Option.some.inj (hi.symm.trans hj))
    · exact absurd (hi.symm.trans hnone) (by simp)
  · rcases hfrom h' hsystem' hg' with ⟨old', hj⟩ | ⟨hj, -⟩
    · exact absurd (hj.symm.trans hnone) (by simp)
    · exact new_unique hi hj h h' hg hg'

end Run

end RomCloud.Catalog
