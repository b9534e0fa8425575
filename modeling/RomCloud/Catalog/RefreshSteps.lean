import RomCloud.Catalog.Refresh

namespace RomCloud.Catalog

open Lib

/-!
# What the steps of a refresh touch

* `Confined` — only some games change, and only rows of one system are written;
* `Needed`, `needed_of_mem` — the transactions of a system by what they do: the companions of cue
  sets, the duplicates, the rows that found games go on as, and the new games;
* `systemPass_confined`, `foldl_systemPass_other` — a system keeps to its own rows;
* `row_suppress` — what hiding rows leaves;
* `exists_mid`, `scanned_other` — the rows of a system are those of before the refresh when it is
  scanned, and stay as they are from then on.
-/

/-! ### What a transaction touches -/

/-- The transaction names the game. -/
def RowOp.Touches : RowOp → ℕ → Prop
  | .delete ids, id => id ∈ ids
  | .save rows, id => id ∈ rows.map Prod.fst
  | .register _, _ => False
  | .record j _, id | .move j _, id | .hide j, id => id = j

/-- The transaction writes the row of a game. -/
def RowOp.Writes : RowOp → Game → Prop
  | .save rows, game => game ∈ rows.map Prod.snd
  | .register games, game => game ∈ games.map Prod.fst
  | .delete _, _ | .record _ _, _ | .move _ _, _ | .hide _, _ => False

/-- **What is confined.**  From the first catalog to the second only some games have changed, and
    the rows that were written are rows of the system. -/
structure Confined (ids : ℕ → Prop) (system : String) (c d : Rows) : Prop where
  nextId : c.nextId ≤ d.nextId
  row : ∀ id, ¬ ids id → d.row id = c.row id
  entry : ∀ id, ¬ ids id → d.entry id = c.entry id
  proxy : ∀ id, ¬ ids id → d.proxy id = c.proxy id
  written : ∀ id game, d.row id = some game → game.system = system ∨ c.row id = some game

namespace Confined

variable {ids : ℕ → Prop} {system : String} {c d e : Rows}

theorem refl : Confined ids system c c :=
  ⟨Nat.le_refl _, fun _ _ => rfl, fun _ _ => rfl, fun _ _ => rfl, fun _ _ h => .inr h⟩

theorem trans (h : Confined ids system c d) (h' : Confined ids system d e) :
    Confined ids system c e where
  nextId := Nat.le_trans h.nextId h'.nextId
  row id hout := (h'.row id hout).trans (h.row id hout)
  entry id hout := (h'.entry id hout).trans (h.entry id hout)
  proxy id hout := (h'.proxy id hout).trans (h.proxy id hout)
  written id game hgame := by
    rcases h'.written id game hgame with hsystem | hd
    · exact .inl hsystem
    · exact h.written id game hd

/-- A game that is named keeps being one of the system. -/
theorem system_eq (h : Confined ids system c d)
    (hc : ∀ id game, ids id → c.row id = some game → game.system = system) :
    ∀ id game, ids id → d.row id = some game → game.system = system := by
  intro id game hid hgame
  rcases h.written id game hgame with hsystem | hrow
  · exact hsystem
  · exact hc id game hid hrow

theorem save {id : ℕ} {game : Game} (hid : ids id) (hsystem : game.system = system) :
    Confined ids system c (c.save id game) where
  nextId := Nat.le_max_left _ _
  row j hout := by
    rw [Rows.row_save, if_neg]
    rintro rfl
    exact hout hid
  entry _ _ := rfl
  proxy _ _ := rfl
  written j old hold := by
    rw [Rows.row_save] at hold
    split at hold
    · cases hold
      exact .inl hsystem
    · exact .inr hold

/-- A proxy record. -/
theorem record {id : ℕ} {path : String} (hid : ids id) :
    Confined ids system c (c.record id path) where
  nextId := Nat.le_of_eq (c.nextId_record id path).symm
  row j _ := c.row_record id path j
  entry j _ := c.entry_record id path j
  proxy j hout := c.proxy_record_of_ne path fun heq => hout (heq ▸ hid)
  written j game hgame := .inr ((c.row_record id path j).symm.trans hgame)

theorem recordMissing {id : ℕ} {names : ℕ → String} (hid : ids id) :
    Confined ids system c (c.recordMissing id names) := by
  rw [Rows.recordMissing]
  split
  · exact refl
  · exact record hid

/-- One transaction. -/
theorem apply {op : RowOp} (hnew : ∀ id, c.nextId ≤ id → ids id)
    (hsystem : ∀ id game, ids id → c.row id = some game → game.system = system)
    (htouch : ∀ id, op.Touches id → ids id)
    (hwrite : ∀ game, op.Writes game → game.system = system) :
    Confined ids system c (c.apply op) := by
  cases op with
  | delete gone =>
    have hout : ∀ {id}, ¬ ids id → id ∉ gone := fun hout hin => hout (htouch _ hin)
    refine ⟨Nat.le_refl _, fun id h => ?_, fun id h => ?_, fun id h => ?_, fun id game hgame => ?_⟩
    · exact (c.row_delete gone id).trans (if_neg (hout h))
    · exact (c.entry_delete gone id).trans (if_neg (hout h))
    · exact (c.proxy_delete gone id).trans (if_neg (hout h))
    · have hgame : (c.delete gone).row id = some game := hgame
      rw [Rows.row_delete] at hgame
      split at hgame
      · exact absurd hgame (by simp)
      · exact .inr hgame
  | save rows =>
    show Confined ids system c (rows.foldl (fun c r => c.save r.1 r.2) c)
    refine List.foldlRecOn (motive := fun d => Confined ids system c d) rows _ refl ?_
    intro d hd r hr
    have hin : ids r.1 := htouch r.1 (List.mem_map.mpr ⟨r, hr, rfl⟩)
    exact hd.trans (save hin (hwrite r.2 (List.mem_map.mpr ⟨r, hr, rfl⟩)))
  | register games =>
    show Confined ids system c (games.foldl (fun c g => c.register g.1 g.2) c)
    refine List.foldlRecOn (motive := fun d => Confined ids system c d) games _ refl ?_
    intro d hd g hg
    have hid : ids d.nextId := hnew _ hd.nextId
    exact hd.trans ((save hid (hwrite g.1 (List.mem_map.mpr ⟨g, hg, rfl⟩))).trans
      (recordMissing hid))
  | record id names => exact recordMissing (htouch id rfl)
  | move id path => exact record (htouch id rfl)
  | hide id =>
    have hid : ids id := htouch id rfl
    have hne : ∀ {j}, ¬ ids j → j ≠ id := fun hout heq => hout (heq ▸ hid)
    refine ⟨Nat.le_refl _, fun j h => ?_, fun _ _ => rfl, fun j h => ?_, fun j game hgame => ?_⟩
    · exact (c.row_hide id j).trans (if_neg (hne h))
    · exact (c.proxy_hide id j).trans (if_neg (hne h))
    · have hgame : (c.hide id).row j = some game := hgame
      rw [Rows.row_hide] at hgame
      split at hgame
      · obtain ⟨old, hold, rfl⟩ := Option.map_eq_some_iff.mp hgame
        exact .inl (hsystem id old hid hold)
      · exact .inr hgame

/-- A list of transactions. -/
theorem applyAll {ops : List RowOp} (hnew : ∀ id, c.nextId ≤ id → ids id)
    (hsystem : ∀ id game, ids id → c.row id = some game → game.system = system)
    (htouch : ∀ op ∈ ops, ∀ id, op.Touches id → ids id)
    (hwrite : ∀ op ∈ ops, ∀ game, op.Writes game → game.system = system) :
    Confined ids system c (c.applyAll ops) := by
  refine List.foldlRecOn (motive := fun d => Confined ids system c d) ops _ refl ?_
  intro d hd op hop
  refine hd.trans (apply ?_ (hd.system_eq hsystem) (htouch op hop) (hwrite op hop))
  exact fun id hid => hnew id (Nat.le_trans hd.nextId hid)

end Confined

/-- What every transaction of a list keeps, the list keeps. -/
theorem Rows.applyAll_induction {P : Rows → Prop} {c : Rows} {ops : List RowOp} (h : P c)
    (hstep : ∀ d, P d → ∀ op ∈ ops, P (d.apply op)) : P (c.applyAll ops) :=
  List.foldlRecOn (motive := P) ops _ h hstep

/-- The rows of a system are determined by their lookups. -/
theorem Rows.systemRows_congr {c d : Rows} {system : String}
    (h : ∀ id game, game.system = system → (d.row id = some game ↔ c.row id = some game)) :
    d.systemRows system = c.systemRows system := by
  have hsorted : ∀ c : Rows, (c.games.entries.filter fun r => r.2.system = system).Pairwise
      fun a b => a.1 < b.1 := fun c =>
    (List.pairwise_map.mp c.games.sorted).sublist List.filter_sublist
  have hmem : ∀ r, r ∈ (d.games.entries.filter fun r => r.2.system = system)
      ↔ r ∈ (c.games.entries.filter fun r => r.2.system = system) := by
    intro r
    have hd := d.mem_systemRows system r
    have hc := c.mem_systemRows system r
    rw [Rows.systemRows, List.mem_insertionSort] at hd hc
    rw [hd, hc]
    exact and_congr_left fun hsystem => h r.1 r.2 hsystem
  have hnodup : ∀ c : Rows, (c.games.entries.filter fun r => r.2.system = system).Nodup :=
    fun c => (hsorted c).imp fun hlt heq => absurd (heq ▸ hlt) (lt_irrefl _)
  have hperm := (List.perm_ext_iff_of_nodup (hnodup d) (hnodup c)).mpr hmem
  rw [Rows.systemRows, Rows.systemRows, hperm.eq_of_pairwise (fun _ _ _ _ hab hba =>
    absurd (lt_trans hab hba) (lt_irrefl _)) (hsorted d) (hsorted c)]

/-! ### What a system needs -/

namespace Run

variable {run : Run} {c : Rows} {system : String} {scan : Scan} {id : ℕ}

theorem mem_candidates {rows : List (ℕ × Game)} {path : SourcePath} {r : ℕ × Game} :
    r ∈ candidates rows path ↔ r ∈ rows ∧ r.2.path = some path := by
  rw [candidates, List.mem_filter, decide_eq_true_eq]

/-- The row of a single directory, below which the path is the only one that was found. -/
def Legacy (games : List Found) (directories : List SourcePath) (path : SourcePath)
    (row : Game) : Prop :=
  row.assets.length = 1 ∧ ∃ directory ∈ directories, row.path = some directory
    ∧ (games.filterMap Found.path).dedup.filter (below directory) = [path]

theorem legacyMatch_eq_some {primaries : List SourcePath} {legacy : List (ℕ × Game)}
    {directory path : SourcePath} {r : ℕ × Game}
    (h : legacyMatch primaries legacy directory = some (path, r)) :
    r ∈ legacy ∧ r.2.path = some directory ∧ primaries.filter (below directory) = [path] := by
  rw [legacyMatch] at h
  split at h
  · next path' hbelow =>
    obtain ⟨r', hfind, heq⟩ := Option.map_eq_some_iff.mp h
    cases heq
    have hpath := List.find?_some hfind
    refine ⟨List.mem_reverse.mp (List.mem_of_find?_eq_some hfind), by simpa using hpath, hbelow⟩
  · exact absurd h (by simp)

/-- A row that is adopted is one of a directory that the scan has gone through. -/
theorem mem_legacyMatches {games : List Found} {directories : List SourcePath}
    {rows : List (ℕ × Game)} {m : SourcePath × ℕ × Game}
    (h : m ∈ legacyMatches games directories rows) :
    m.2 ∈ rows ∧ Legacy games directories m.1 m.2.2 := by
  revert m
  refine List.foldlRecOn (motive := fun found : List (SourcePath × ℕ × Game) => ∀ {m}, m ∈ found →
    m.2 ∈ rows ∧ Legacy games directories m.1 m.2.2) _ _ ?_ ?_
  · exact fun h => absurd h List.not_mem_nil
  · intro found hfound directory _ m hm
    split at hm
    · next m' hmatch =>
      split at hm
      · exact hfound hm
      · rcases List.mem_append.mp hm with hm | hm
        · exact hfound hm
        · obtain rfl := List.mem_singleton.mp hm
          obtain ⟨hlegacy, hpath, hbelow⟩ := legacyMatch_eq_some hmatch
          rw [legacyRows, List.mem_filter, Bool.and_eq_true, hpath] at hlegacy
          obtain ⟨hrow, hsingle, hdirectory⟩ := hlegacy
          exact ⟨hrow, by simpa using hsingle, directory, by simpa using hdirectory, hpath, hbelow⟩
    · exact hfound hm

/-- The row that a game goes on as is one with its path, or that of a directory. -/
theorem existing_cases {rows : List (ℕ × Game)} {path : SourcePath} {r : ℕ × Game}
    (h : existing c rows scan path = some r) :
    r ∈ rows ∧ (r.2.path = some path
      ∨ candidates rows path = [] ∧ Legacy scan.games scan.directories path r.2) := by
  rw [existing, Option.or_eq_some_iff] at h
  rcases h with hselect | ⟨hnone, hlegacy⟩
  · have hmem := mem_candidates.mp (List.argmin_mem hselect)
    exact ⟨hmem.1, .inl hmem.2⟩
  · obtain ⟨m, hfind, rfl⟩ := Option.map_eq_some_iff.mp hlegacy
    obtain ⟨hrow, hdirectory⟩ := mem_legacyMatches (List.mem_of_find?_eq_some hfind)
    have hpath : m.1 = path := by simpa using List.find?_some hfind
    exact ⟨hrow, .inr ⟨List.argmin_eq_none.mp hnone, hpath ▸ hdirectory⟩⟩

theorem existing_eq_some {rows : List (ℕ × Game)} {path : SourcePath} {r : ℕ × Game}
    (h : existing c rows scan path = some r) :
    r ∈ rows ∧ (r.2.path = some path
      ∨ candidates rows path = [] ∧ ∃ directory ∈ scan.directories, r.2.path = some directory) :=
  (existing_cases h).imp_right fun h => h.imp_right fun ⟨hnone, _, directory, hin, hpath, _⟩ =>
    ⟨hnone, directory, hin, hpath⟩

/-- A path that a row has is taken by one of the rows with this path. -/
theorem existing_of_mem {rows : List (ℕ × Game)} {path : SourcePath} {r : ℕ × Game}
    (h : r ∈ candidates rows path) :
    ∃ r', existing c rows scan path = some r' ∧ r' ∈ candidates rows path := by
  obtain ⟨r', hr'⟩ := Option.ne_none_iff_exists'.mp fun hnone : selectExisting c _ = none =>
    List.ne_nil_of_mem h (List.argmin_eq_none.mp hnone)
  exact ⟨r', by rw [existing, hr', Option.some_or], List.argmin_mem hr'⟩

/-- A found game and the row it goes on as. -/
structure Identified (c : Rows) (system : String) (scan : Scan) (found : Found)
    (path : SourcePath) (r : ℕ × Game) : Prop where
  mem : found ∈ scan.games
  at_path : found.path = some path
  row : existing c (c.systemRows system) scan path = some r

/-- A row that shares its path with the one that a game goes on as. -/
def Duplicate (c : Rows) (system : String) (scan : Scan) (id : ℕ) : Prop :=
  ∃ found path r game, Identified c system scan found path r
    ∧ (id, game) ∈ candidates (c.systemRows system) path ∧ id ≠ r.1

/-- A row that a found game goes on as, with what is written to it. -/
def Adopted (run : Run) (c : Rows) (system : String) (scan : Scan) (r : ℕ × Game) : Prop :=
  ∃ found path old, Identified c system scan found path (r.1, old)
    ∧ r.2 = run.adopt system found old

/-- A row that has to be written. -/
def Written (run : Run) (c : Rows) (system : String) (scan : Scan) (r : ℕ × Game) : Prop :=
  ∃ found path old, Identified c system scan found path (r.1, old)
    ∧ run.changed found old = true ∧ r.2 = run.adopt system found old

theorem Written.adopted {r : ℕ × Game} (h : Written run c system scan r) :
    Adopted run c system scan r := by
  obtain ⟨found, path, old, hid, -, heq⟩ := h
  exact ⟨found, path, old, hid, heq⟩

/-- A game that is found for the first time. -/
def New (run : Run) (c : Rows) (system : String) (scan : Scan) (game : Game) : Prop :=
  ∃ found path, found ∈ scan.games ∧ found.path = some path
    ∧ existing c (c.systemRows system) scan path = none ∧ game = run.create system found

/-- A row of a companion of a cue set. -/
def Companion (c : Rows) (system : String) (scan : Scan) (r : ℕ × Game) : Prop :=
  r ∈ c.systemRows system ∧ r.2.isEligible = true
    ∧ ∃ path ∈ scan.consumed, r.2.path = some path

/-- The transactions of a system, by what they do. -/
inductive Needed (run : Run) (c : Rows) (system : String) (scan : Scan) : RowOp → Prop
  | prune {r : ℕ × Game} (h : Companion c system scan r) : Needed run c system scan (.delete [r.1])
  | retire {ids : List ℕ} (h : ∀ id ∈ ids, Duplicate c system scan id) :
      Needed run c system scan (.delete ids)
  | save {rows : List (ℕ × Game)} (h : ∀ r ∈ rows, Written run c system scan r) :
      Needed run c system scan (.save rows)
  | register {games : List (Game × (ℕ → String))}
      (h : ∀ g ∈ games, New run c system scan g.1) : Needed run c system scan (.register games)
  | record {id : ℕ} {names : ℕ → String} (h : ∃ game, Adopted run c system scan (id, game)) :
      Needed run c system scan (.record id names)
  | move {id : ℕ} {path : String} (h : ∃ game, Adopted run c system scan (id, game)) :
      Needed run c system scan (.move id path)

/-- What the loop has put together is needed. -/
structure Pass.Ok (run : Run) (c : Rows) (system : String) (scan : Scan) (pass : Pass) : Prop where
  ops : ∀ op ∈ pass.ops, Needed run c system scan op
  pending : ∀ g ∈ pass.pending, New run c system scan g.1
  migrations : ∀ r ∈ pass.migrations, Written run c system scan r
  rewrites : ∀ r ∈ pass.rewrites, ∃ game, Adopted run c system scan (r.1, game)
  duplicates : ∀ id ∈ pass.duplicates, Duplicate c system scan id
  survivors : ∀ r ∈ pass.survivors, ∃ game, Adopted run c system scan (r.1, game)

theorem needed_of_rewrite {found : Found} (h : ∃ game, Adopted run c system scan (id, game))
    {op : RowOp} (hop : op ∈ run.rewriteOps c system id found) : Needed run c system scan op := by
  rw [rewriteOps] at hop
  split at hop
  · exact absurd hop List.not_mem_nil
  · exact List.mem_singleton.mp hop ▸ .record h

theorem needed_of_canonical {found : Found} (h : ∃ game, Adopted run c system scan (id, game))
    {op : RowOp} (hop : op ∈ run.canonicalOps c system id found) : Needed run c system scan op := by
  rw [canonicalOps] at hop
  split at hop
  · obtain ⟨path, -, rfl⟩ := Option.map_eq_some_iff.mp (Option.mem_toList.mp hop)
    exact .move h
  · exact List.mem_singleton.mp hop ▸ .record h

theorem mem_append_ite {α : Type} {p : Prop} [Decidable p] {xs : List α} {x y : α}
    (h : y ∈ xs ++ if p then [] else [x]) : y ∈ xs ∨ y = x := by
  rcases List.mem_append.mp h with h | h
  · exact .inl h
  · split at h
    · exact absurd h List.not_mem_nil
    · exact .inr (List.mem_singleton.mp h)

theorem turn_ok {pass : Pass} (h : pass.Ok run c system scan) {found : Found}
    (hfound : found ∈ scan.games) : (run.turn c system scan pass found).Ok run c system scan := by
  rw [turn]
  split
  · exact h
  · next path hpath =>
    split
    · next hnone =>
      have hpending : ∀ g ∈ pass.pending ++ [(run.create system found, run.names system found)],
          New run c system scan g.1 := by
        intro g hg
        rcases List.mem_append.mp hg with hg | hg
        · exact h.pending g hg
        · rw [List.mem_singleton.mp hg]
          exact ⟨found, path, hfound, hpath, hnone, rfl⟩
      dsimp only
      split
      · refine { h with ops := fun op hop => ?_, pending := by simp }
        rcases List.mem_append.mp hop with hop | hop
        · exact h.ops op hop
        · exact List.mem_singleton.mp hop ▸ .register hpending
      · exact { h with pending := hpending }
    · next id old hrow =>
      have hid : Identified c system scan found path (id, old) := ⟨hfound, hpath, hrow⟩
      have hadopted : Adopted run c system scan (id, run.adopt system found old) :=
        ⟨found, path, old, hid, rfl⟩
      have hduplicates : ∀ j ∈ pass.duplicates
          ++ ((candidates (c.systemRows system) path).map (·.1)).filter (· ≠ id),
          Duplicate c system scan j := by
        intro j hj
        rcases List.mem_append.mp hj with hj | hj
        · exact h.duplicates j hj
        · obtain ⟨hj, hne⟩ := List.mem_filter.mp hj
          obtain ⟨r, hr, rfl⟩ := List.mem_map.mp hj
          exact ⟨found, path, (id, old), r.2, hid, hr, by simpa using hne⟩
      have hsurvivors : ∀ r ∈ pass.survivors ++ if (((candidates (c.systemRows system) path).map
          (·.1)).filter (· ≠ id)).isEmpty then [] else [(id, found)],
          ∃ game, Adopted run c system scan (r.1, game) := by
        intro r hr
        rcases mem_append_ite hr with hr | rfl
        · exact h.survivors r hr
        · exact ⟨_, hadopted⟩
      dsimp only
      split
      · exact { h with duplicates := hduplicates, survivors := hsurvivors }
      · next hchanged =>
        have hwritten : Written run c system scan (id, run.adopt system found old) :=
          ⟨found, path, old, hid, by simpa using hchanged, rfl⟩
        split
        · refine { h with
            duplicates := hduplicates
            survivors := hsurvivors
            migrations := fun r hr => ?_
            rewrites := fun r hr => ?_ }
          · rcases List.mem_append.mp hr with hr | hr
            · exact h.migrations r hr
            · exact List.mem_singleton.mp hr ▸ hwritten
          · rcases List.mem_append.mp hr with hr | hr
            · exact h.rewrites r hr
            · split at hr
              · obtain rfl := List.mem_singleton.mp hr
                exact ⟨_, hadopted⟩
              · exact absurd hr List.not_mem_nil
        · refine { h with
            duplicates := hduplicates, survivors := hsurvivors, ops := fun op hop => ?_ }
          rcases List.mem_append.mp hop with hop | hop
          · exact h.ops op hop
          · rcases List.mem_cons.mp hop with rfl | hop
            · exact .save fun r hr => List.mem_singleton.mp hr ▸ hwritten
            · split at hop
              · exact needed_of_rewrite ⟨_, hadopted⟩ hop
              · exact absurd hop List.not_mem_nil

/-- The loop over the games of a system. -/
def loop (run : Run) (c : Rows) (system : String) (scan : Scan) : Pass :=
  scan.games.foldl (run.turn c system scan) ⟨[], [], [], [], [], []⟩

theorem loop_ok : (run.loop c system scan).Ok run c system scan :=
  List.foldlRecOn (motive := fun pass => Pass.Ok run c system scan pass) _ _
    ⟨by simp, by simp, by simp, by simp, by simp, by simp⟩ fun _ h _ hfound => turn_ok h hfound

/-- What has been put together stays. -/
structure Pass.Grows (pass pass' : Pass) : Prop where
  ops : ∀ op ∈ pass.ops, op ∈ pass'.ops
  migrations : ∀ r ∈ pass.migrations, r ∈ pass'.migrations
  duplicates : ∀ id ∈ pass.duplicates, id ∈ pass'.duplicates

theorem turn_grows (pass : Pass) (found : Found) :
    pass.Grows (run.turn c system scan pass found) := by
  have happend : ∀ {α : Type} (xs ys : List α), ∀ x ∈ xs, x ∈ xs ++ ys :=
    fun _ _ _ => List.mem_append_left _
  rw [turn]
  split
  · exact ⟨fun _ h => h, fun _ h => h, fun _ h => h⟩
  · split
    · dsimp only
      split
      · exact ⟨happend _ _, fun _ h => h, fun _ h => h⟩
      · exact ⟨fun _ h => h, fun _ h => h, fun _ h => h⟩
    · dsimp only
      split
      · exact ⟨fun _ h => h, fun _ h => h, happend _ _⟩
      · split
        · exact ⟨fun _ h => h, happend _ _, happend _ _⟩
        · exact ⟨happend _ _, fun _ h => h, happend _ _⟩

/-- Every game that was found has its turn. -/
theorem exists_turn {found : Found} (h : found ∈ scan.games) :
    ∃ pass, (run.turn c system scan pass found).Grows (run.loop c system scan) := by
  obtain ⟨before, after, hsplit⟩ := List.append_of_mem h
  refine ⟨before.foldl (run.turn c system scan) ⟨[], [], [], [], [], []⟩, ?_⟩
  rw [loop, hsplit, List.foldl_append, List.foldl_cons]
  refine List.foldlRecOn (motive := fun pass : Pass => Pass.Grows _ pass) after _
    ⟨fun _ h => h, fun _ h => h, fun _ h => h⟩ ?_
  intro pass hpass other _
  have hturn := @turn_grows run c system scan pass other
  exact ⟨fun op hop => hturn.ops op (hpass.ops op hop),
    fun r hr => hturn.migrations r (hpass.migrations r hr),
    fun id hid => hturn.duplicates id (hpass.duplicates id hid)⟩

theorem mem_unlessEmpty {α : Type} {op : List α → RowOp} {xs : List α} {o : RowOp}
    (h : o ∈ unlessEmpty op xs) : o = op xs := by
  rw [unlessEmpty] at h
  split at h
  · exact absurd h List.not_mem_nil
  · exact List.mem_singleton.mp h

theorem companion_of_prune {op : RowOp} (h : op ∈ pruneOps c system scan) :
    ∃ r, Companion c system scan r ∧ op = .delete [r.1] := by
  obtain ⟨r, hr, rfl⟩ := List.mem_map.mp h
  obtain ⟨hrow, hr⟩ := List.mem_filter.mp hr
  rw [Bool.and_eq_true, Option.any_eq_true] at hr
  obtain ⟨heligible, path, hpath, hconsumed⟩ := hr
  exact ⟨r, ⟨hrow, heligible, path, by simpa using hconsumed, hpath⟩, rfl⟩

/-- **The transactions of a system.** -/
theorem needed_of_mem {op : RowOp} (h : op ∈ run.bodyOps c system scan) :
    Needed run c system scan op := by
  have hloop : Pass.Ok run c system scan _ := loop_ok
  simp only [bodyOps, List.mem_append] at h
  rcases h with (((((h | h) | h) | h) | h) | h) | h
  · obtain ⟨r, hr, rfl⟩ := companion_of_prune h
    exact .prune hr
  · exact hloop.ops op h
  · exact mem_unlessEmpty h ▸ .register hloop.pending
  · exact mem_unlessEmpty h ▸ .save hloop.migrations
  · obtain ⟨r, hr, hop⟩ := List.mem_flatMap.mp h
    exact needed_of_rewrite (hloop.rewrites r hr) hop
  · exact mem_unlessEmpty h ▸ .retire hloop.duplicates
  · obtain ⟨r, hr, hop⟩ := List.mem_flatMap.mp h
    exact needed_of_canonical (hloop.survivors r hr) hop

/-- A row of the system, before its first transaction. -/
def Known (c : Rows) (system : String) (id : ℕ) : Prop := ∃ game, (id, game) ∈ c.systemRows system

theorem Adopted.known {game : Game} (h : Adopted run c system scan (id, game)) :
    Known c system id := by
  obtain ⟨_, _, old, hid, -⟩ := h
  exact ⟨old, (existing_eq_some hid.row).1⟩

theorem Needed.known {op : RowOp} (h : Needed run c system scan op) (htouch : op.Touches id) :
    Known c system id := by
  cases h with
  | prune h =>
    obtain rfl := List.mem_singleton.mp htouch
    exact ⟨_, h.1⟩
  | retire h =>
    obtain ⟨_, path, _, game, -, hmem, -⟩ := h id htouch
    exact ⟨game, (mem_candidates.mp hmem).1⟩
  | save h =>
    obtain ⟨r, hr, rfl⟩ := List.mem_map.mp htouch
    exact (h r hr).adopted.known
  | register => exact htouch.elim
  | record h | move h =>
    obtain rfl := htouch
    obtain ⟨game, h⟩ := h
    exact h.known

theorem Needed.writes {op : RowOp} (h : Needed run c system scan op) {game : Game}
    (hwrite : op.Writes game) : game.system = system := by
  cases h with
  | prune | retire | record | move => exact hwrite.elim
  | save h =>
    obtain ⟨r, hr, rfl⟩ := List.mem_map.mp hwrite
    obtain ⟨_, _, _, -, hgame⟩ := (h r hr).adopted
    rw [hgame]
    rfl
  | register h =>
    obtain ⟨g, hg, rfl⟩ := List.mem_map.mp hwrite
    obtain ⟨_, _, -, -, -, hgame⟩ := h g hg
    rw [hgame]
    rfl

theorem mem_of_mem_cut {stop : Option ℕ} {ops : List RowOp} {op : RowOp} (h : op ∈ cut stop ops) :
    op ∈ ops := by
  cases stop with
  | none => exact h
  | some n => exact List.mem_of_mem_take h

theorem mem_rejectedIds : id ∈ run.rejectedIds c system scan ↔ run.live = true
    ∧ ∃ game path, c.row id = some game ∧ game.system = system ∧ game.path = some path
      ∧ path ∈ scan.ineligible := by
  rw [rejectedIds]
  split
  · next hlive =>
    simp only [hlive, true_and, List.mem_map, List.mem_filter, Rows.mem_systemRows,
      Option.any_eq_true, decide_eq_true_eq]
    constructor
    · rintro ⟨r, ⟨⟨hrow, hsystem⟩, path, hpath, hin⟩, rfl⟩
      exact ⟨r.2, path, hrow, hsystem, hpath, hin⟩
    · rintro ⟨game, path, hrow, hsystem, hpath, hin⟩
      exact ⟨(id, game), ⟨⟨hrow, hsystem⟩, path, hpath, hin⟩, rfl⟩
  · next hlive => simp [hlive]

theorem mem_rejectOps {op : RowOp} (h : op ∈ run.rejectOps c system scan) : run.live = true
    ∧ ∃ r ∈ c.systemRows system, (∃ path ∈ scan.ineligible, r.2.path = some path)
      ∧ op = .hide r.1 := by
  obtain ⟨id, hid, rfl⟩ := List.mem_map.mp h
  obtain ⟨hlive, game, path, hrow, hsystem, hpath, hin⟩ := mem_rejectedIds.mp hid
  exact ⟨hlive, (id, game), (Rows.mem_systemRows ..).mpr ⟨hrow, hsystem⟩, ⟨path, hin, hpath⟩, rfl⟩

/-- A game that a system may touch: one of its rows, or a new one. -/
def Own (c : Rows) (system : String) (id : ℕ) : Prop := Known c system id ∨ c.nextId ≤ id

theorem Own.system_eq {id : ℕ} {game : Game} (h : Own c system id) (hrow : c.row id = some game) :
    game.system = system := by
  rcases h with ⟨game', hmem⟩ | hnew
  · obtain ⟨hrow', hgame'⟩ := (Rows.mem_systemRows ..).mp hmem
    cases hrow.symm.trans hrow'
    exact hgame'
  · exact absurd (Rows.row_lt hrow) (Nat.not_lt.mpr hnew)

/-- **A system keeps to itself.** -/
theorem systemPass_confined : Confined (Own c system) system c (run.systemPass c system) := by
  rw [systemPass]
  split
  · exact .refl
  · next scan _ =>
    have hbody : Confined (Own c system) system c
        (c.applyAll (cut (run.stop system) (run.bodyOps c system scan))) :=
      .applyAll (fun _ hid => .inr hid) (fun _ _ => Own.system_eq)
        (fun op hop id htouch => .inl ((needed_of_mem (mem_of_mem_cut hop)).known htouch))
        fun op hop game => (needed_of_mem (mem_of_mem_cut hop)).writes
    refine hbody.trans (.applyAll (fun id hid => .inr (Nat.le_trans hbody.nextId hid))
      (hbody.system_eq fun _ _ => Own.system_eq) ?_ ?_)
    · intro op hop id htouch
      obtain ⟨-, r, hr, -, rfl⟩ := mem_rejectOps (mem_of_mem_cut hop)
      obtain rfl : id = r.1 := htouch
      obtain ⟨hrow, hsystem⟩ := (Rows.mem_systemRows ..).mp hr
      -- a row of another system would have been left alone
      by_contra hout
      rw [hbody.row r.1 hout] at hrow
      exact hout (.inl ⟨r.2, (Rows.mem_systemRows ..).mpr ⟨hrow, hsystem⟩⟩)
    · intro op hop game hwrite
      obtain ⟨-, r, -, -, rfl⟩ := mem_rejectOps (mem_of_mem_cut hop)
      exact hwrite.elim

/-- The rows of another system stay as they are. -/
theorem systemPass_other {other : String} (hne : other ≠ system) {id : ℕ} {game : Game}
    (hgame : game.system = other) :
    (run.systemPass c system).row id = some game ↔ c.row id = some game := by
  have hpass : Confined (Own c system) system c (run.systemPass c system) := systemPass_confined
  constructor
  · intro hrow
    exact (hpass.written id game hrow).resolve_left fun hsystem => hne (hgame.symm.trans hsystem)
  · intro hrow
    rw [hpass.row id fun hown => hne (hgame.symm.trans (hown.system_eq hrow))]
    exact hrow

theorem foldl_systemPass_other {systems : List String} {other : String} (h : other ∉ systems)
    {id : ℕ} {game : Game} (hgame : game.system = other) :
    (systems.foldl run.systemPass c).row id = some game ↔ c.row id = some game := by
  refine List.foldlRecOn (motive := fun d : Rows => d.row id = some game ↔ c.row id = some game)
    systems _ Iff.rfl ?_
  intro d hd system hsystem
  have hne : other ≠ system := fun heq => h (heq ▸ hsystem)
  rw [systemPass_other hne hgame, hd]

/-! ### What is suppressed -/

theorem row_suppress (c : Rows) (test : Game → Bool) (id : ℕ) :
    (suppress c test).row id
      = (c.row id).map fun g => if test g then { g with isEligible := false } else g := by
  have hfold : suppress c test
      = (c.games.entries.filter fun r => test r.2).foldl (fun c r => c.hide r.1) c := by
    rw [suppress, Rows.applyAll, List.foldl_map]
    rfl
  have hnodup : ((c.games.entries.filter fun r => test r.2).map Prod.fst).Nodup :=
    c.games.keys_nodup.sublist (List.filter_sublist.map _)
  rw [hfold, Dict.look_foldl_of_nodup Rows.row Prod.fst (fun c r => c.hide r.1)
    (fun _ o => o.map ({ · with isEligible := false })) ?_ _ hnodup]
  · cases hrow : c.row id with
    | none =>
      split <;> rfl
    | some game =>
      have hmem : (id, game) ∈ c.games.entries := (c.games.get?_eq_some_iff id game).mp hrow
      by_cases htest : test game = true
      · have hsome : ((c.games.entries.filter fun r => test r.2).find?
            fun e => e.1 = id).isSome := by
          rw [List.find?_isSome]
          exact ⟨(id, game), List.mem_filter.mpr ⟨hmem, htest⟩, by simp⟩
        obtain ⟨e, he⟩ := Option.isSome_iff_exists.mp hsome
        simp [he, htest]
      · have hnone : (c.games.entries.filter fun r => test r.2).find? (fun e => e.1 = id)
            = none := by
          rw [List.find?_eq_none]
          rintro ⟨j, other⟩ he hj
          obtain ⟨he, hother⟩ := List.mem_filter.mp he
          obtain rfl : j = id := by simpa using hj
          have hother' : c.row j = some other := (c.games.get?_eq_some_iff j other).mpr he
          cases hrow.symm.trans hother'
          exact htest hother
        simp [hnone, htest]
  · intro d r j
    rw [Rows.row_hide]
    by_cases hj : r.1 = j
    · rw [if_pos hj, if_pos hj.symm, hj]
    · rw [if_neg hj, if_neg (Ne.symm hj)]

theorem entry_suppress (c : Rows) (test : Game → Bool) (id : ℕ) :
    (suppress c test).entry id = c.entry id := by
  refine Rows.applyAll_induction (P := fun d => d.entry id = c.entry id) rfl ?_
  intro d hd op hop
  obtain ⟨r, -, rfl⟩ := List.mem_map.mp hop
  exact hd

/-! ### What a transaction does to a row -/

section Row

variable {d : Rows} {game : Game}

theorem row_apply_delete (d : Rows) (ids : List ℕ) (id : ℕ) (h : id ∉ ids) :
    (d.apply (.delete ids)).row id = d.row id := (d.row_delete ids id).trans (if_neg h)

theorem row_apply_register (d : Rows) (games : List (Game × (ℕ → String))) (id : ℕ)
    (h : id < d.nextId) : (d.apply (.register games)).row id = d.row id := by
  show (games.foldl (fun c g => c.register g.1 g.2) d).row id = _
  have hfold : (games.foldl (fun c g => c.register g.1 g.2) d).row id = d.row id ∧
      id < (games.foldl (fun c g => c.register g.1 g.2) d).nextId := by
    refine List.foldlRecOn (motive := fun e : Rows => e.row id = d.row id ∧ id < e.nextId) games _
      ⟨rfl, h⟩ ?_
    rintro e ⟨he, hlt⟩ g -
    rw [Rows.register, Rows.row_recordMissing, Rows.nextId_recordMissing, Rows.row_save,
      if_neg (Nat.ne_of_lt hlt), he]
    exact ⟨rfl, Nat.lt_of_lt_of_le hlt (Nat.le_max_left _ _)⟩
  exact hfold.1

/-- What is saved under an identity is in the list. -/
theorem row_apply_save (d : Rows) (rows : List (ℕ × Game)) (id : ℕ) :
    (id ∉ rows.map Prod.fst ∧ (d.apply (.save rows)).row id = d.row id)
      ∨ ∃ game, (id, game) ∈ rows ∧ (d.apply (.save rows)).row id = some game := by
  show (_ ∧ (rows.foldl (fun c r => c.save r.1 r.2) d).row id = _) ∨ _
  induction rows using List.reverseRecOn with
  | nil => exact .inl ⟨by simp, rfl⟩
  | append_singleton rows r ih =>
    have hlast : (d.apply (.save (rows ++ [r]))).row id
        = if id = r.1 then some r.2 else (d.apply (.save rows)).row id := by
      show ((rows ++ [r]).foldl (fun c r => c.save r.1 r.2) d).row id = _
      rw [List.foldl_append]
      exact Rows.row_save ..
    by_cases hid : id = r.1
    · rw [if_pos hid] at hlast
      exact .inr ⟨r.2, List.mem_append_right _ (by simp [hid]), hlast⟩
    · rw [if_neg hid] at hlast
      rcases ih with ⟨hout, hrow⟩ | ⟨game, hmem, hrow⟩
      · exact .inl ⟨by simpa [hid] using hout, hlast.trans hrow⟩
      · exact .inr ⟨game, List.mem_append_left _ hmem, hlast.trans hrow⟩

/-- A transaction that does not name the row. -/
theorem row_apply_of_untouched {op : RowOp} (h : ¬ op.Touches id) (hrow : d.row id = some game) :
    (d.apply op).row id = some game := by
  cases op with
  | delete ids => exact (row_apply_delete d ids id h).trans hrow
  | save rows =>
    rcases row_apply_save d rows id with ⟨-, hsame⟩ | ⟨row, hmem, -⟩
    · exact hsame.trans hrow
    · exact absurd (List.mem_map.mpr ⟨_, hmem, rfl⟩) h
  | register games => exact (row_apply_register d games id (Rows.row_lt hrow)).trans hrow
  | record j names => exact (d.row_recordMissing j names id).trans hrow
  | move j path => exact (d.row_record j path id).trans hrow
  | hide j => exact ((d.row_hide j id).trans (if_neg h)).trans hrow

/-- A row and what is known of it. -/
theorem eq_of_mem_systemRows (hrow : c.row id = some game) {row : Game}
    (h : (id, row) ∈ c.systemRows system) : row = game :=
  Option.some.inj (((Rows.mem_systemRows ..).mp h).1.symm.trans hrow)

end Row

/-! ### All systems -/

section Systems

variable {game : Game}

/-- The rows before the first system is scanned. -/
def start (run : Run) (c : Rows) : Rows := run.suppressUnmatched (run.suppressDeselected c)

theorem start_row (hselected : run.selects system = true)
    (hknown : run.live = true → system ∉ run.unmatched) (hsystem : game.system = system) :
    (run.start c).row id = some game ↔ c.row id = some game := by
  have hsuppress : ∀ (d : Rows) (test : Game → Bool),
      (∀ row : Game, row.system = system → test row = false) →
      ((suppress d test).row id = some game ↔ d.row id = some game) := by
    intro d test htest
    rw [row_suppress, Option.map_eq_some_iff]
    constructor
    · rintro ⟨row, hrow, heq⟩
      split at heq
      · next h =>
        have hrowsystem : row.system = system := by rw [← hsystem, ← heq]
        exact absurd h (by simp [htest row hrowsystem])
      · rw [← heq]
        exact hrow
    · intro hrow
      exact ⟨game, hrow, by simp [htest game hsystem]⟩
  have hdeselected := hsuppress c (fun row => !run.selects row.system && lists c row.system)
    fun row hrow => by simp [hrow, hselected]
  rw [start, suppressUnmatched]
  split
  · next hlive =>
    rw [hsuppress _ _ fun row hrow => by simpa [hrow] using hknown hlive]
    exact hdeselected
  · exact hdeselected

theorem mem_matched : system ∈ run.matched
    ↔ system ∈ run.remoteSystems ∧ system ∈ run.registry.names ∧ run.selects system = true := by
  simp [matched, List.mem_filter]

theorem matched_nodup : run.matched.Nodup := run.distinct.filter _

/-- The rows after the last system. -/
def scanned (run : Run) (c : Rows) : Rows := run.matched.foldl run.systemPass (run.start c)

/-- The rows of a system are those of before the refresh when it is scanned, and stay as they are
    from then on. -/
theorem exists_mid (h : system ∈ run.matched) : ∃ mid : Rows,
    (∀ id game, game.system = system → (mid.row id = some game ↔ c.row id = some game))
    ∧ ∀ id game, game.system = system → ((run.scanned c).row id = some game
        ↔ (run.systemPass mid system).row id = some game) := by
  obtain ⟨before, after, hsplit⟩ := List.append_of_mem h
  have hnodup := run.matched_nodup
  rw [hsplit, List.nodup_append, List.nodup_cons] at hnodup
  have hbefore : system ∉ before := fun hin =>
    hnodup.2.2 system hin system List.mem_cons_self rfl
  obtain ⟨-, hname, hselected⟩ := mem_matched.mp h
  refine ⟨before.foldl run.systemPass (run.start c), ?_, ?_⟩
  · intro id game hsystem
    rw [foldl_systemPass_other hbefore hsystem]
    exact start_row hselected (fun _ hin => by simp [unmatched, hname] at hin) hsystem
  · intro id game hsystem
    rw [scanned, hsplit, List.foldl_append, List.foldl_cons]
    exact foldl_systemPass_other hnodup.2.1.1 hsystem

/-- The rows of a system that is not scanned stay as they are. -/
theorem scanned_other (h : system ∉ run.matched) (hselected : run.selects system = true)
    (hknown : run.live = true → system ∉ run.unmatched) (hsystem : game.system = system) :
    (run.scanned c).row id = some game ↔ c.row id = some game := by
  rw [scanned, foldl_systemPass_other h hsystem]
  exact start_row hselected hknown hsystem

end Systems

end Run

end RomCloud.Catalog
