import RomCloud.Catalog.RefreshResult
import RomCloud.Catalog.HidingEvidence

namespace RomCloud.Catalog

open Lib

/-!
# Pins and cached files over a refresh

* `Run.KeepsPins`, `Run.KeepsFiles` — a pinned game that is found stays pinned, and a file of the
  cache stays recorded;
* `Run.Forgets` — a row that is deleted, with its cache entry;
* `Run.PinsStay`, `Run.FilesStay` — the conditions on the rows before the refresh;
* `pins_and_files_kept_iff` — a refresh keeps both, if and only if they hold.
-/

/-- A row with the path among its assets is pinned. -/
def Rows.Pins (c : Rows) (path : SourcePath) : Prop :=
  ∃ id game entry, c.row id = some game ∧ path ∈ game.assets.map (·.relativePath)
    ∧ c.entry id = some entry ∧ entry.isPinned = true

/-- A cache member has the path. -/
def Rows.Records (c : Rows) (path : SourcePath) : Prop :=
  ∃ id entry, c.entry id = some entry ∧ path ∈ entry.members

namespace Run

/-- The refresh without an exception that cuts a system short; listings may fail. -/
def whole (run : Run) : Run := { run with stop := fun _ => none }

/-- The scan of the game's system has the path, alone or as part of a game. -/
def Finds (run : Run) (game : Game) (path : SourcePath) : Prop :=
  ∃ scan, run.Scanned game.system scan
    ∧ ∃ found ∈ scan.games, path ∈ found.assets.map (·.relativePath)

def KeepsPins (run : Run) (c : Rows) : Prop :=
  ∀ id game entry path, c.row id = some game → c.entry id = some entry → entry.isPinned = true →
    game.path = some path → run.Finds game path → (run.refresh c).Pins path

def KeepsFiles (run : Run) (c : Rows) (onDisk : SourcePath → Bool) : Prop :=
  ∀ path, c.Records path → onDisk path = true → (run.refresh c).Records path

/-! ### The conditions -/

/-- The row is pruned as a companion or retired as a duplicate. -/
def Forgets (run : Run) (c : Rows) (id : ℕ) (game : Game) : Prop :=
  ∃ scan, run.Scanned game.system scan ∧ Gone c game.system scan id

/-- A found game goes on as the row. -/
def GoesOn (run : Run) (c : Rows) (id : ℕ) (game : Game) (found : Found)
    (path : SourcePath) : Prop :=
  ∃ scan, run.Scanned game.system scan ∧ Identified c game.system scan found path (id, game)

/-- The row does not keep its path: it is a companion now, or the row of a directory that a game
    at another path goes on as. -/
def Leaves (run : Run) (c : Rows) (id : ℕ) (game : Game) (path : SourcePath) : Prop :=
  (∃ scan, run.Scanned game.system scan ∧ Companion c game.system scan (id, game))
    ∨ ∃ found path', path' ≠ path ∧ run.GoesOn c id game found path'

/-- The assets that the row has afterwards have the path. -/
def Lists (run : Run) (c : Rows) (id : ℕ) (game : Game) (path : SourcePath) : Prop :=
  (∃ found path', run.GoesOn c id game found path' ∧ path ∈ found.assets.map (·.relativePath))
    ∨ (∀ found path', ¬ run.GoesOn c id game found path')
      ∧ path ∈ game.assets.map (·.relativePath)

/-- A pinned row that is not forgotten lists the path. -/
def PinStays (run : Run) (c : Rows) (path : SourcePath) : Prop :=
  ∃ id game entry, c.row id = some game ∧ c.entry id = some entry ∧ entry.isPinned = true
    ∧ ¬ run.Forgets c id game ∧ run.Lists c id game path

/-- The path of a pinned row that leaves it is listed by another one. -/
def PinsStay (run : Run) (c : Rows) : Prop :=
  ∀ id game entry path, c.row id = some game → c.entry id = some entry → entry.isPinned = true →
    game.path = some path → run.Leaves c id game path → run.Finds game path → run.PinStays c path

/-- The files of a forgotten row that are on the disk are recorded for another one, too. -/
def FilesStay (run : Run) (c : Rows) (onDisk : SourcePath → Bool) : Prop :=
  ∀ id game entry path, c.row id = some game → c.entry id = some entry → run.Forgets c id game →
    path ∈ entry.members → onDisk path = true →
    ∃ j other entry', c.row j = some other ∧ c.entry j = some entry' ∧ ¬ run.Forgets c j other
      ∧ path ∈ entry'.members

/-! ### What a refresh leaves of a row -/

variable {run : Run} {c d : Rows} {system : String} {scan : Scan} {id : ℕ} {game : Game}
  {path : SourcePath}

theorem Scanned.unique {scan' : Scan} (h : run.Scanned system scan)
    (h' : run.Scanned system scan') : scan = scan' :=
  Option.some.inj (h.2.symm.trans h'.2)

/-- The assets of a row. -/
def assetsOf (c : Rows) (id : ℕ) : Option (List Asset) := (c.row id).map (·.assets)

theorem assetsOf_suppress (c : Rows) (test : Game → Bool) (id : ℕ) :
    assetsOf (suppress c test) id = assetsOf c id := by
  rw [assetsOf, assetsOf, row_suppress, Option.map_map]
  congr 1
  funext g
  show (if test g then { g with isEligible := false } else g).assets = g.assets
  split <;> rfl

theorem assetsOf_applyAll_hide (ids : List ℕ) :
    assetsOf (d.applyAll (ids.map .hide)) id = assetsOf d id := by
  rw [assetsOf, assetsOf, Rows.row_applyAll_hide]
  split
  · rw [Option.map_map]
    rfl
  · rfl

/-- The assets and the cache entry of a row of a system that is scanned. -/
theorem exists_body (hscan : run.Scanned system scan) (hstop : run.stop system = none) :
    ∃ mid : Rows, Agree system c mid ∧ ∀ id, Belongs c system id →
      Same c mid id
      ∧ assetsOf (run.refresh c) id = assetsOf (mid.applyAll (run.bodyOps mid system scan)) id
      ∧ (run.refresh c).entry id = (mid.applyAll (run.bodyOps mid system scan)).entry id := by
  obtain ⟨hagree, hmid, -, hlast⟩ := @reached_spec run c system hscan.1
  refine ⟨run.reached c system, hagree, fun id hid => ?_⟩
  obtain ⟨hsame, hbelongs⟩ := hmid id hid
  have hpass := hlast id hbelongs.systemPass
  rw [systemPass_eq hscan.2 hstop, rejectOps] at hpass
  refine ⟨hsame, ?_, ?_⟩
  · rw [refresh_eq, assetsOf_suppress, assetsOf, hpass.row]
    exact assetsOf_applyAll_hide _
  · rw [refresh_eq, entry_suppress, hpass.entry]
    refine Rows.entry_applyAll_of_kept fun op hop => ?_
    obtain ⟨j, -, rfl⟩ := List.mem_map.mp hop
    exact not_false

/-- A row of a system that is not scanned keeps both. -/
theorem refresh_unscanned (hrow : c.row id = some game)
    (h : ∀ scan, ¬ run.Scanned game.system scan) :
    assetsOf (run.refresh c) id = assetsOf c id ∧ (run.refresh c).entry id = c.entry id := by
  have hbelongs : Belongs c game.system id := belongs_of_row hrow
  rw [refresh_eq, assetsOf_suppress, entry_suppress]
  by_cases hmatched : game.system ∈ run.matched
  · obtain ⟨-, hmid, -, hlast⟩ := @reached_spec run c game.system hmatched
    obtain ⟨hsame, hbelongs'⟩ := hmid id hbelongs
    have hpass := hlast id hbelongs'.systemPass
    have hfails : run.systemPass (run.reached c game.system) game.system
        = run.reached c game.system := by
      cases hscan : run.scan game.system with
      | none => simp only [systemPass, hscan]
      | some scan => exact absurd ⟨hmatched, hscan⟩ (h scan)
    rw [hfails] at hpass
    exact ⟨by rw [assetsOf, hpass.row, hsame.row]; rfl, hpass.entry.trans hsame.entry⟩
  · have hstart : assetsOf (run.start c) id = assetsOf c id
        ∧ (run.start c).entry id = c.entry id := by
      rw [start, suppressUnmatched]
      split
      · rw [assetsOf_suppress, entry_suppress, suppressDeselected, assetsOf_suppress,
          entry_suppress]
        exact ⟨rfl, rfl⟩
      · rw [suppressDeselected, assetsOf_suppress, entry_suppress]
        exact ⟨rfl, rfl⟩
    have hsame : Same (run.start c) (run.scanned c) id :=
      (@Belongs.foldl run _ _ _ hbelongs.start _ hmatched).1
    exact ⟨by rw [assetsOf, hsame.row]; exact hstart.1, hsame.entry.trans hstart.2⟩

/-! ### The rows that are left -/

theorem Forgets.entry (hstop : ∀ system, run.stop system = none) (hrow : c.row id = some game)
    (h : run.Forgets c id game) : (run.refresh c).entry id = none := by
  obtain ⟨scan, hscan, hgone⟩ := h
  obtain ⟨mid, hagree, hbody⟩ := exists_body (c := c) hscan (hstop _)
  rw [(hbody id (belongs_of_row hrow)).2.2]
  exact entry_body_gone (hagree.gone.mpr hgone)

/-- A game that needs no writing has the same paths. -/
theorem mem_paths_of_unchanged {found : Found} (h : ¬ run.changed found game = true) :
    path ∈ game.assets.map (·.relativePath) ↔ path ∈ found.assets.map (·.relativePath) := by
  simp only [changed, assetPathsDiffer, Bool.or_eq_true, not_or, Bool.not_eq_true,
    Bool.not_eq_false', Bool.and_eq_true, List.all_eq_true, decide_eq_true_eq] at h
  obtain ⟨⟨⟨⟨hold, hnew⟩, -⟩, -⟩, -⟩ := h
  simp only [List.mem_map]
  constructor
  · rintro ⟨asset, hin, rfl⟩
    exact ⟨asset, hold asset hin, rfl⟩
  · rintro ⟨asset, hin, rfl⟩
    exact ⟨asset, hnew asset hin, rfl⟩

/-- A row that is not forgotten keeps its cache entry, and has the assets that it lists. -/
theorem kept (hstop : ∀ system, run.stop system = none) (hrow : c.row id = some game)
    (h : ¬ run.Forgets c id game) :
    (run.refresh c).entry id = c.entry id
      ∧ ∃ row, (run.refresh c).row id = some row
        ∧ ∀ path, path ∈ row.assets.map (·.relativePath) ↔ run.Lists c id game path := by
  by_cases hscanned : ∃ scan, run.Scanned game.system scan
  · obtain ⟨scan, hscan⟩ := hscanned
    obtain ⟨mid, hagree, hbody⟩ := exists_body (c := c) hscan (hstop _)
    obtain ⟨hsame, hassets, hentry⟩ := hbody id (belongs_of_row hrow)
    have hgone : ¬ Gone c game.system scan id := fun hgone => h ⟨scan, hscan, hgone⟩
    have hgone' : ¬ Gone mid game.system scan id := fun h => hgone (hagree.gone.mp h)
    have hlt : id < mid.nextId := Rows.row_lt (hsame.row.trans hrow)
    refine ⟨hentry.trans ((entry_body hgone').trans hsame.entry), ?_⟩
    by_cases hid : ∃ found path, Identified c game.system scan found path (id, game)
    · obtain ⟨found, path, hid⟩ := hid
      have hbodyrow : (mid.applyAll (run.bodyOps mid game.system scan)).row id
          = some (if run.changed found game then run.adopt game.system found game else game) :=
        row_identified (hagree.identified.mpr hid)
          (.inr fun hcompanion => hgone' (.inl ⟨game, hcompanion⟩))
      rw [assetsOf, assetsOf, hbodyrow, Option.map_some] at hassets
      obtain ⟨row, hrow', hrowassets⟩ := Option.map_eq_some_iff.mp hassets
      refine ⟨row, hrow', fun path' => ?_⟩
      have hlists : run.Lists c id game path' ↔ path' ∈ found.assets.map (·.relativePath) := by
        constructor
        · rintro (⟨found', path'', ⟨scan', hscan', hid'⟩, hin⟩ | ⟨hnone, -⟩)
          · obtain rfl := hscan.unique hscan'
            obtain ⟨-, -, rfl⟩ := hid.unique hid'
            exact hin
          · exact absurd ⟨scan, hscan, hid⟩ (hnone found path)
        · exact fun hin => .inl ⟨found, path, ⟨scan, hscan, hid⟩, hin⟩
      rw [hlists, hrowassets]
      split
      · exact Iff.rfl
      · next hunchanged => exact mem_paths_of_unchanged hunchanged
    · have hnone : ∀ found path old, ¬ Identified mid game.system scan found path (id, old) := by
        intro found path old hmid
        have hc := hagree.identified.mp hmid
        obtain rfl : old = game := eq_of_mem_systemRows hrow (existing_eq_some hc.row).1
        exact hid ⟨found, path, hc⟩
      have hsamerow : (mid.applyAll (run.bodyOps mid game.system scan)).row id = mid.row id :=
        row_unidentified hlt hgone' hnone
      rw [assetsOf, assetsOf, hsamerow, hsame.row, hrow, Option.map_some] at hassets
      obtain ⟨row, hrow', hrowassets⟩ := Option.map_eq_some_iff.mp hassets
      refine ⟨row, hrow', fun path' => ?_⟩
      rw [hrowassets]
      refine ⟨fun hin => .inr ⟨?_, hin⟩, ?_⟩
      · rintro found path'' ⟨scan', hscan', hid'⟩
        obtain rfl := hscan.unique hscan'
        exact hid ⟨found, path'', hid'⟩
      · rintro (⟨found, path'', ⟨scan', hscan', hid'⟩, -⟩ | ⟨-, hin⟩)
        · obtain rfl := hscan.unique hscan'
          exact absurd ⟨found, path'', hid'⟩ hid
        · exact hin
  · have hno : ∀ scan, ¬ run.Scanned game.system scan := fun scan h => hscanned ⟨scan, h⟩
    obtain ⟨hassets, hentry⟩ := refresh_unscanned hrow hno
    refine ⟨hentry, ?_⟩
    rw [assetsOf, assetsOf, hrow, Option.map_some] at hassets
    obtain ⟨row, hrow', hrowassets⟩ := Option.map_eq_some_iff.mp hassets
    refine ⟨row, hrow', fun path' => ?_⟩
    rw [hrowassets]
    refine ⟨fun hin => .inr ⟨?_, hin⟩, ?_⟩
    · rintro found path'' ⟨scan, hscan, -⟩
      exact hno scan hscan
    · rintro (⟨found, path'', ⟨scan, hscan, -⟩, -⟩ | ⟨-, hin⟩)
      · exact absurd hscan (hno scan)
      · exact hin

/-- No cache entry is new. -/
theorem entry_of_refresh {entry : CacheEntry} (h : (run.refresh c).entry id = some entry) :
    c.entry id = some entry := by
  have happly : ∀ (d : Rows) (ops : List RowOp), (d.applyAll ops).entry id = some entry →
      d.entry id = some entry := by
    intro d ops hops
    by_cases hdelete : ∃ op ∈ ops, op.Deletes id
    · rw [Rows.entry_applyAll_of_deleted (.inr hdelete)] at hops
      exact absurd hops (by simp)
    · rw [Rows.entry_applyAll_of_kept fun op hop hdel => hdelete ⟨op, hop, hdel⟩] at hops
      exact hops
  rw [refresh_eq, entry_suppress] at h
  have hstart : (run.start c).entry id = c.entry id := by
    rw [start, suppressUnmatched]
    split
    · rw [entry_suppress, suppressDeselected, entry_suppress]
    · rw [suppressDeselected, entry_suppress]
  rw [← hstart]
  revert h
  refine List.foldlRecOn (motive := fun d : Rows => d.entry id = some entry →
    (run.start c).entry id = some entry) run.matched _ (fun h => h) ?_
  intro d hd system _ hpass
  refine hd ?_
  rw [systemPass] at hpass
  split at hpass
  · exact hpass
  · exact happly _ _ (happly _ _ hpass)

/-- What is pinned afterwards. -/
theorem pins_refresh_iff (hstop : ∀ system, run.stop system = none) :
    (run.refresh c).Pins path ↔ run.PinStays c path := by
  constructor
  · rintro ⟨id, row, entry, hrow, hpath, hentry, hpinned⟩
    have hentry' := entry_of_refresh hentry
    obtain ⟨game, hgame⟩ := c.cached id entry hentry'
    have hforgets : ¬ run.Forgets c id game := by
      intro hforgets
      rw [hforgets.entry hstop hgame] at hentry
      exact absurd hentry (by simp)
    obtain ⟨-, row', hrow', hlists⟩ := kept hstop hgame hforgets
    obtain rfl : row = row' := Option.some.inj (hrow.symm.trans hrow')
    exact ⟨id, game, entry, hgame, hentry', hpinned, hforgets, (hlists path).mp hpath⟩
  · rintro ⟨id, game, entry, hgame, hentry, hpinned, hforgets, hlists⟩
    obtain ⟨hkept, row, hrow, hpaths⟩ := kept hstop hgame hforgets
    exact ⟨id, row, entry, hrow, (hpaths path).mpr hlists, hkept.trans hentry, hpinned⟩

/-- What is recorded afterwards. -/
theorem records_refresh_iff (hstop : ∀ system, run.stop system = none) :
    (run.refresh c).Records path ↔ ∃ id game entry, c.row id = some game
      ∧ c.entry id = some entry ∧ ¬ run.Forgets c id game ∧ path ∈ entry.members := by
  constructor
  · rintro ⟨id, entry, hentry, hin⟩
    have hentry' := entry_of_refresh hentry
    obtain ⟨game, hgame⟩ := c.cached id entry hentry'
    refine ⟨id, game, entry, hgame, hentry', fun hforgets => ?_, hin⟩
    rw [hforgets.entry hstop hgame] at hentry
    exact absurd hentry (by simp)
  · rintro ⟨id, game, entry, hgame, hentry, hforgets, hin⟩
    exact ⟨id, entry, (kept hstop hgame hforgets).1.trans hentry, hin⟩

/-! ### A pinned duplicate -/

/-- A pinned row is chosen before those that are not. -/
theorem pinned_of_le {r r' : ℕ × Game} {entry : CacheEntry} (h : identityKey c r ≤ identityKey c r')
    (hentry : c.entry r'.1 = some entry) (hpinned : entry.isPinned = true) :
    ∃ entry', c.entry r.1 = some entry' ∧ entry'.isPinned = true := by
  rw [identityKey, identityKey, hentry, Prod.Lex.toLex_le_toLex] at h
  simp only [Option.isNone_some, Option.any_some, hpinned] at h
  cases hr : c.entry r.1 with
  | none =>
    rw [hr, Option.isNone_none] at h
    rcases h with hlt | ⟨heq, -⟩
    · exact absurd hlt (by decide)
    · exact absurd heq (by decide)
  | some entry' =>
    simp only [hr, Option.isNone_some, lt_irrefl, Option.any_some, Bool.not_true, true_and,
      false_or, Prod.Lex.toLex_le_toLex] at h
    refine ⟨entry', rfl, ?_⟩
    cases hp : entry'.isPinned with
    | true => rfl
    | false =>
      rw [hp] at h
      rcases h with hlt | ⟨heq, -⟩
      · exact absurd hlt (by decide)
      · exact absurd heq (by decide)

/-- The row that is kept instead of a pinned duplicate is pinned. -/
theorem exists_survivor {entry : CacheEntry} (hrow : c.row id = some game)
    (hentry : c.entry id = some entry) (hpinned : entry.isPinned = true)
    (hpath : game.path = some path) (h : Duplicate c game.system scan id) :
    ∃ found r entry', Identified c game.system scan found path r ∧ c.row r.1 = some r.2
      ∧ r.2.system = game.system ∧ r.2.path = some path ∧ c.entry r.1 = some entry'
      ∧ entry'.isPinned = true := by
  obtain ⟨found, path', r, row, hid, hmem, -⟩ := h
  obtain ⟨hin, hrowpath⟩ := mem_candidates.mp hmem
  obtain rfl : row = game := eq_of_mem_systemRows hrow hin
  obtain rfl : path' = path := Option.some.inj (hrowpath.symm.trans hpath)
  obtain ⟨hr, hcase⟩ := existing_cases hid.row
  have hat : r.2.path = some path' :=
    hcase.resolve_right fun hlegacy => List.ne_nil_of_mem hmem hlegacy.1
  obtain ⟨hrrow, hrsystem⟩ := (Rows.mem_systemRows ..).mp hr
  have hselect : r ∈ selectExisting c (candidates (c.systemRows row.system) path') := by
    rcases Option.or_eq_some_iff.mp hid.row with hselect | ⟨hnone, -⟩
    · exact hselect
    · exact absurd (List.argmin_eq_none.mp hnone) (List.ne_nil_of_mem hmem)
  obtain ⟨entry', hentry', hpinned'⟩ :=
    pinned_of_le (List.le_of_mem_argmin hmem hselect) hentry hpinned
  exact ⟨found, r, entry', hid, hrrow, hrsystem, hat, hentry', hpinned'⟩

/-- A pinned row that keeps its path stays, or the one that is kept instead of it does. -/
theorem PinsStay.stays {entry : CacheEntry} (h : run.PinsStay c) (hrow : c.row id = some game)
    (hentry : c.entry id = some entry) (hpinned : entry.isPinned = true)
    (hpath : game.path = some path) (hfinds : run.Finds game path) : run.PinStays c path := by
  by_cases hleaves : run.Leaves c id game path
  · exact h id game entry path hrow hentry hpinned hpath hleaves hfinds
  have hassets : path ∈ game.assets.map (·.relativePath) := by
    obtain ⟨asset, hin, heq⟩ := exists_of_primaryPath hpath
    exact List.mem_map.mpr ⟨asset, hin, heq⟩
  have hlisted : ∀ {found : Found}, found.path = some path →
      path ∈ found.assets.map (·.relativePath) := by
    intro found hfound
    obtain ⟨asset, hin, heq⟩ := exists_of_primaryPath hfound
    exact List.mem_map.mpr ⟨asset, hin, heq⟩
  obtain ⟨scan, hscan, -⟩ := hfinds
  by_cases hduplicate : Duplicate c game.system scan id
  · obtain ⟨found, r, entry', hid, hrrow, hrsystem, hrpath, hentry', hpinned'⟩ :=
      exists_survivor hrow hentry hpinned hpath hduplicate
    rw [← hrsystem] at hscan hid
    by_cases hcompanion : Companion c r.2.system scan r
    · -- the one that is kept instead is a companion itself
      refine h r.1 r.2 entry' path hrrow hentry' hpinned' hrpath (.inl ⟨scan, hscan, hcompanion⟩) ?_
      exact ⟨scan, hscan, found, hid.mem, hlisted hid.at_path⟩
    · refine ⟨r.1, r.2, entry', hrrow, hentry', hpinned', ?_,
        .inl ⟨found, path, ⟨scan, hscan, hid⟩, hlisted hid.at_path⟩⟩
      rintro ⟨scan', hscan', ⟨row, hgone⟩ | hgone⟩
      · obtain rfl := hscan.unique hscan'
        obtain rfl : row = r.2 := eq_of_mem_systemRows hrrow hgone.1
        exact hcompanion hgone
      · obtain rfl := hscan.unique hscan'
        exact hid.not_duplicate hgone
  · refine ⟨id, game, entry, hrow, hentry, hpinned, ?_, ?_⟩
    · rintro ⟨scan', hscan', ⟨row, hgone⟩ | hgone⟩
      · obtain rfl : row = game := eq_of_mem_systemRows hrow hgone.1
        exact hleaves (.inl ⟨scan', hscan', hgone⟩)
      · obtain rfl := hscan.unique hscan'
        exact hduplicate hgone
    · by_cases hgoes : ∃ found path', run.GoesOn c id game found path'
      · obtain ⟨found, path', hgoes⟩ := hgoes
        have hsame : path' = path := by
          by_contra hne
          exact hleaves (.inr ⟨found, path', hne, hgoes⟩)
        have hat : found.path = some path := by
          obtain ⟨_, _, hid⟩ := hgoes
          exact hsame ▸ hid.at_path
        exact .inl ⟨found, path', hgoes, hlisted hat⟩
      · exact .inr ⟨fun found path' hgoes' => hgoes ⟨found, path', hgoes'⟩, hassets⟩

end Run

/-- **Pins and files.**  A refresh keeps them, if and only if a pinned row that leaves its path, and
    a forgotten row with files on the disk, has another one that stays for it. -/
theorem pins_and_files_kept_iff (run : Run) (c : Rows) (onDisk : SourcePath → Bool) :
    run.whole.KeepsPins c ∧ run.whole.KeepsFiles c onDisk
      ↔ run.whole.PinsStay c ∧ run.whole.FilesStay c onDisk := by
  have hstop : ∀ system, run.whole.stop system = none := fun _ => rfl
  refine and_congr ⟨fun h => ?_, fun h => ?_⟩ ⟨fun h => ?_, fun h => ?_⟩
  · intro id game entry path hrow hentry hpinned hpath _ hfinds
    exact (Run.pins_refresh_iff hstop).mp (h id game entry path hrow hentry hpinned hpath hfinds)
  · intro id game entry path hrow hentry hpinned hpath hfinds
    exact (Run.pins_refresh_iff hstop).mpr (h.stays hrow hentry hpinned hpath hfinds)
  · intro id game entry path hrow hentry hforgets hin hdisk
    exact (Run.records_refresh_iff hstop).mp (h path ⟨id, entry, hentry, hin⟩ hdisk)
  · rintro path ⟨id, entry, hentry, hin⟩ hdisk
    obtain ⟨game, hgame⟩ := c.cached id entry hentry
    refine (Run.records_refresh_iff hstop).mpr ?_
    by_cases hforgets : run.whole.Forgets c id game
    · exact h id game entry path hgame hentry hforgets hin hdisk
    · exact ⟨id, game, entry, hgame, hentry, hforgets, hin⟩

/-- A pinned track, found before its cue was there. -/
def trackGame : Game where
  system := "psx"
  title := "Game"
  sourceProvider := "local"
  sourceRoot := "/roms"
  assets := [⟨"Game.bin", ["psx", "Game.bin"], true⟩]
  addedAt := 0
  lastPlayed := none
  isEligible := true

def trackRows : Rows :=
  { Rows.empty.save 0 trackGame with
    cache := Dict.insert ∅ 0 ⟨true, [["psx", "Game.bin"]]⟩
    cached := by
      intro id entry h
      rw [Dict.get?_insert] at h
      split at h
      · next heq => exact ⟨trackGame, by rw [heq]; rfl⟩
      · exact absurd h (by simp) }

/-- A cue with its track. -/
def cueGames : List Found :=
  [⟨"Game", [⟨"Game.cue", ["psx", "Game.cue"], true⟩, ⟨"Game.bin", ["psx", "Game.bin"], false⟩], 1⟩]

theorem cueGames_nodup : (cueGames.filterMap Found.path).Nodup := by decide

/-- The next refresh finds the cue. -/
def cueRun : Run where
  provider := "local"
  sourceRoot := "/roms"
  selectedSystems := none
  writesProxies := true
  registry := ⟨["psx"], false⟩
  remoteSystems := ["psx"]
  distinct := List.nodup_singleton _
  scan _ := some (.ofGames cueGames cueGames_nodup)
  stop _ := none
  names _ found _ := found.title
  canonical _ _ := none

theorem cue_loses_pin :
    ¬ (cueRun.whole.KeepsPins trackRows ∧ cueRun.whole.KeepsFiles trackRows fun _ => true) := by
  rintro ⟨hpins, -⟩
  have hempty : (cueRun.whole.refresh trackRows).cache.entries = [] := by decide +kernel
  obtain ⟨id, game, entry, -, -, hentry, -⟩ := hpins 0 trackGame ⟨true, [["psx", "Game.bin"]]⟩
    ["psx", "Game.bin"] rfl rfl rfl rfl
    ⟨_, ⟨by decide, rfl⟩, _, List.mem_singleton.mpr rfl, by decide⟩
  have hmem := (Dict.get?_eq_some_iff _ id entry).mp hentry
  rw [hempty] at hmem
  exact absurd hmem List.not_mem_nil

end RomCloud.Catalog
