import Mathlib.Data.List.MinMax
import Mathlib.Data.List.Dedup
import Mathlib.Data.Prod.Lex
import RomCloud.Lib.Dict

namespace RomCloud.Catalog

open Lib

/-!
# The refresh of the catalog

`CatalogService.refresh` on the rows of the database: the games with their assets, and the cache
entries and proxy records, which go with their game.

* `Rows` — the rows; a cache entry and a proxy record have a game, no two games have one proxy path,
  and the next identity is new;
* `RowOp` — the transactions of a refresh: delete, save, register, record, move, hide;
* `Run` — one refresh: the settings of the service, what the registry and the provider answer, and
  where an exception cuts a system short;
* `legacyMatches`, `selectExisting`, `turn` — which row a scanned game goes on as;
* `systemPass`, `sweep`, `refresh` — a system, the rows of an earlier source, and all of it.

Which transactions a system needs is decided from its rows before the first of them.
-/

/-- A path below the source root, by its parts. -/
abbrev SourcePath := List String

structure Asset where
  filename : String
  relativePath : SourcePath
  isPrimary : Bool
deriving DecidableEq

structure Game where
  system : String
  title : String
  sourceProvider : String
  sourceRoot : String
  assets : List Asset
  addedAt : ℕ
  lastPlayed : Option ℕ
  isEligible : Bool
deriving DecidableEq

/-- The path of `primary_asset`: the first asset that is marked, or else the first one. -/
def primaryPath (assets : List Asset) : Option SourcePath :=
  ((assets.find? (·.isPrimary)).or assets.head?).map (·.relativePath)

def Game.path (game : Game) : Option SourcePath := primaryPath game.assets

/-- A cache entry, with the files of its members. -/
structure CacheEntry where
  isPinned : Bool
  members : List SourcePath
deriving DecidableEq

/-- The rows of the database: its foreign keys, and the unique proxy paths.  Identities are never
    used again. -/
structure Rows where
  games : Dict ℕ Game
  cache : Dict ℕ CacheEntry
  proxies : Dict ℕ String
  nextId : ℕ
  fresh : ∀ id game, games.get? id = some game → id < nextId
  cached : ∀ id entry, cache.get? id = some entry → ∃ game, games.get? id = some game
  recorded : ∀ id path, proxies.get? id = some path → ∃ game, games.get? id = some game
  unique : ∀ i j path, proxies.get? i = some path → proxies.get? j = some path → i = j

namespace Rows

/-- The row of a game. -/
def row (c : Rows) (id : ℕ) : Option Game := c.games.get? id

/-- The cache entry of a game. -/
def entry (c : Rows) (id : ℕ) : Option CacheEntry := c.cache.get? id

/-- The proxy record of a game. -/
def proxy (c : Rows) (id : ℕ) : Option String := c.proxies.get? id

/-- A database without rows. -/
def empty : Rows where
  games := ∅
  cache := ∅
  proxies := ∅
  nextId := 0
  fresh id game h := absurd h (by simp)
  cached id entry h := absurd h (by simp)
  recorded id path h := absurd h (by simp)
  unique i j path h := absurd h (by simp)

/-- `game_repo.delete_many`: the cache entries and proxy records go with their games. -/
def delete (c : Rows) (ids : List ℕ) : Rows where
  games := c.games.restrict (· ∉ ids)
  cache := c.cache.restrict (· ∉ ids)
  proxies := c.proxies.restrict (· ∉ ids)
  nextId := c.nextId
  fresh := by
    intro id game h
    rw [Dict.get?_restrict] at h
    split at h
    · exact c.fresh id game h
    · exact absurd h (by simp)
  cached := by
    intro id entry h
    simp only [Dict.get?_restrict] at h ⊢
    split at h
    · next hkeep =>
      rw [if_pos hkeep]
      exact c.cached id entry h
    · exact absurd h (by simp)
  recorded := by
    intro id path h
    simp only [Dict.get?_restrict] at h ⊢
    split at h
    · next hkeep =>
      rw [if_pos hkeep]
      exact c.recorded id path h
    · exact absurd h (by simp)
  unique := by
    intro i j path hi hj
    simp only [Dict.get?_restrict] at hi hj
    split at hi
    · split at hj
      · exact c.unique i j path hi hj
      · exact absurd hj (by simp)
    · exact absurd hi (by simp)

/-- `game_repo.save`: what belongs to a game that is there stays. -/
def save (c : Rows) (id : ℕ) (game : Game) : Rows where
  games := c.games.insert id game
  cache := c.cache
  proxies := c.proxies
  nextId := max c.nextId (id + 1)
  fresh := by
    intro j old h
    rw [Dict.get?_insert] at h
    split at h
    · omega
    · have := c.fresh j old h
      omega
  cached := by
    intro j entry h
    rw [Dict.get?_insert]
    split
    · exact ⟨game, rfl⟩
    · exact c.cached j entry h
  recorded := by
    intro j path h
    rw [Dict.get?_insert]
    split
    · exact ⟨game, rfl⟩
    · exact c.recorded j path h
  unique := c.unique

/-- The path is registered for another game. -/
def taken (c : Rows) (id : ℕ) (path : String) : Bool :=
  c.proxies.entries.any fun r => decide (r.2 = path) && decide (r.1 ≠ id)

theorem taken_eq_false {c : Rows} {id : ℕ} {path : String} (h : c.taken id path = false) {j : ℕ}
    (hj : c.proxies.get? j = some path) : j = id := by
  by_contra hne
  have hmem := (c.proxies.get?_eq_some_iff j path).mp hj
  have htaken : c.taken id path = true := List.any_eq_true.mpr ⟨_, hmem, by simp [hne]⟩
  exact absurd (h.symm.trans htaken) (by simp)

/-- `proxy_repo.save`, where the game is there and the path is no other's. -/
def record (c : Rows) (id : ℕ) (path : String) : Rows :=
  if h : (c.games.get? id).isSome ∧ c.taken id path = false then
    { c with
      proxies := c.proxies.insert id path
      recorded := by
        intro j other hj
        rw [Dict.get?_insert] at hj
        split at hj
        · next heq => exact heq ▸ Option.isSome_iff_exists.mp h.1
        · exact c.recorded j other hj
      unique := by
        intro i j other hi hj
        rw [Dict.get?_insert] at hi hj
        split at hi
        · next hid =>
          cases hi
          split at hj
          · next hjd => exact hid.trans hjd.symm
          · exact hid.trans (taken_eq_false h.2 hj).symm
        · split at hj
          · next hjd =>
            cases hj
            exact (taken_eq_false h.2 hi).trans hjd.symm
          · exact c.unique i j other hi hj }
  else c

/-- `_allocate_proxy_path`: the first name that is no other's. -/
def allocate (c : Rows) (id : ℕ) (names : ℕ → String) : String :=
  (((List.range (c.proxies.entries.length + 1)).map names).find? fun path =>
    !c.taken id path).getD (names 0)

/-- `_write_proxy`, for a game without a record. -/
def recordMissing (c : Rows) (id : ℕ) (names : ℕ → String) : Rows :=
  if (c.proxies.get? id).isSome then c else c.record id (c.allocate id names)

/-- `register_many`, for one game: its identity is new. -/
def register (c : Rows) (game : Game) (names : ℕ → String) : Rows :=
  (c.save c.nextId game).recordMissing c.nextId names

/-- `_suppress_games`, for one row: the proxy record goes, and the row is hidden. -/
def hide (c : Rows) (id : ℕ) : Rows where
  games := c.games.assign id ((c.games.get? id).map ({ · with isEligible := false }))
  cache := c.cache
  proxies := c.proxies.erase id
  nextId := c.nextId
  fresh := by
    intro j game h
    rw [Dict.get?_assign] at h
    split at h
    · next heq =>
      obtain ⟨old, hold, -⟩ := Option.map_eq_some_iff.mp h
      exact heq ▸ c.fresh id old hold
    · exact c.fresh j game h
  cached := by
    intro j entry h
    obtain ⟨game, hgame⟩ := c.cached j entry h
    rw [Dict.get?_assign]
    split
    · next heq => exact ⟨_, by rw [← heq, hgame]; rfl⟩
    · exact ⟨game, hgame⟩
  recorded := by
    intro j path h
    rw [Dict.get?_erase] at h
    split at h
    · exact absurd h (by simp)
    · next hne =>
      rw [Dict.get?_assign, if_neg hne]
      exact c.recorded j path h
  unique := by
    intro i j path hi hj
    rw [Dict.get?_erase] at hi hj
    split at hi
    · exact absurd hi (by simp)
    · split at hj
      · exact absurd hj (by simp)
      · exact c.unique i j path hi hj

@[simp] theorem row_delete (c : Rows) (ids : List ℕ) (id : ℕ) :
    (c.delete ids).row id = if id ∈ ids then none else c.row id := by
  show (c.games.restrict _).get? id = _
  by_cases h : id ∈ ids <;> simp [h, row]

@[simp] theorem entry_delete (c : Rows) (ids : List ℕ) (id : ℕ) :
    (c.delete ids).entry id = if id ∈ ids then none else c.entry id := by
  show (c.cache.restrict _).get? id = _
  by_cases h : id ∈ ids <;> simp [h, entry]

@[simp] theorem proxy_delete (c : Rows) (ids : List ℕ) (id : ℕ) :
    (c.delete ids).proxy id = if id ∈ ids then none else c.proxy id := by
  show (c.proxies.restrict _).get? id = _
  by_cases h : id ∈ ids <;> simp [h, proxy]

@[simp] theorem row_save (c : Rows) (id : ℕ) (game : Game) (j : ℕ) :
    (c.save id game).row j = if j = id then some game else c.row j := Dict.get?_insert ..

@[simp] theorem entry_save (c : Rows) (id : ℕ) (game : Game) (j : ℕ) :
    (c.save id game).entry j = c.entry j := rfl

@[simp] theorem proxy_save (c : Rows) (id : ℕ) (game : Game) (j : ℕ) :
    (c.save id game).proxy j = c.proxy j := rfl

@[simp] theorem row_hide (c : Rows) (id j : ℕ) :
    (c.hide id).row j
      = if j = id then (c.row id).map ({ · with isEligible := false }) else c.row j :=
  Dict.get?_assign ..

@[simp] theorem entry_hide (c : Rows) (id j : ℕ) : (c.hide id).entry j = c.entry j := rfl

@[simp] theorem proxy_hide (c : Rows) (id j : ℕ) :
    (c.hide id).proxy j = if j = id then none else c.proxy j := Dict.get?_erase ..

@[simp] theorem row_record (c : Rows) (id : ℕ) (path : String) (j : ℕ) :
    (c.record id path).row j = c.row j := by
  rw [record]
  split <;> rfl

@[simp] theorem entry_record (c : Rows) (id : ℕ) (path : String) (j : ℕ) :
    (c.record id path).entry j = c.entry j := by
  rw [record]
  split <;> rfl

@[simp] theorem nextId_record (c : Rows) (id : ℕ) (path : String) :
    (c.record id path).nextId = c.nextId := by
  rw [record]
  split <;> rfl

theorem proxy_record_of_ne (c : Rows) {id j : ℕ} (path : String) (h : j ≠ id) :
    (c.record id path).proxy j = c.proxy j := by
  rw [record]
  split
  · exact (Dict.get?_insert ..).trans (if_neg h)
  · rfl

@[simp] theorem row_recordMissing (c : Rows) (id : ℕ) (names : ℕ → String) (j : ℕ) :
    (c.recordMissing id names).row j = c.row j := by
  rw [recordMissing]
  split
  · rfl
  · exact row_record ..

@[simp] theorem entry_recordMissing (c : Rows) (id : ℕ) (names : ℕ → String) (j : ℕ) :
    (c.recordMissing id names).entry j = c.entry j := by
  rw [recordMissing]
  split
  · rfl
  · exact entry_record ..

@[simp] theorem nextId_recordMissing (c : Rows) (id : ℕ) (names : ℕ → String) :
    (c.recordMissing id names).nextId = c.nextId := by
  rw [recordMissing]
  split
  · rfl
  · exact nextId_record ..

theorem proxy_recordMissing_of_ne (c : Rows) {id j : ℕ} (names : ℕ → String) (h : j ≠ id) :
    (c.recordMissing id names).proxy j = c.proxy j := by
  rw [recordMissing]
  split
  · rfl
  · exact proxy_record_of_ne c _ h

theorem row_lt {c : Rows} {id : ℕ} {game : Game} (h : c.row id = some game) : id < c.nextId :=
  c.fresh id game h

/-- `game_repo.find_by_system(system, include_ineligible=True)`, with the identities. -/
def systemRows (c : Rows) (system : String) : List (ℕ × Game) :=
  (c.games.entries.filter fun r => r.2.system = system).insertionSort
    fun a b => a.2.title ≤ b.2.title

@[simp] theorem mem_systemRows (c : Rows) (system : String) (r : ℕ × Game) :
    r ∈ c.systemRows system ↔ c.row r.1 = some r.2 ∧ r.2.system = system := by
  rw [systemRows, List.mem_insertionSort, List.mem_filter, decide_eq_true_eq, row,
    Dict.get?_eq_some_iff]

end Rows

/-- A transaction on the rows. -/
inductive RowOp
  | delete (ids : List ℕ)
  | save (rows : List (ℕ × Game))
  | register (games : List (Game × (ℕ → String)))
  | record (id : ℕ) (names : ℕ → String)
  | move (id : ℕ) (path : String)
  | hide (id : ℕ)

def Rows.apply (c : Rows) : RowOp → Rows
  | .delete ids => c.delete ids
  | .save rows => rows.foldl (fun c r => c.save r.1 r.2) c
  | .register games => games.foldl (fun c g => c.register g.1 g.2) c
  | .record id names => c.recordMissing id names
  | .move id path => c.record id path
  | .hide id => c.hide id

/-- One transaction after the other. -/
def Rows.applyAll (c : Rows) (ops : List RowOp) : Rows := ops.foldl Rows.apply c

/-- A game as the scan has found it. -/
structure Found where
  title : String
  assets : List Asset
  addedAt : ℕ
deriving DecidableEq

def Found.path (found : Found) : Option SourcePath := primaryPath found.assets

/-- What a complete scan of a system has found: the games, each at its own path, the paths it has
    rejected, which are others, and the directories among these. -/
structure Scan where
  games : List Found
  ineligible : List SourcePath
  directories : List SourcePath
  distinct : (games.filterMap Found.path).Nodup
  accepted : ∀ found ∈ games, ∀ path, found.path = some path → path ∉ ineligible
  rejected : ∀ directory ∈ directories, directory ∈ ineligible

/-- `consumed_paths`: the companions in the cue sets. -/
def Scan.consumed (scan : Scan) : List SourcePath :=
  scan.games.flatMap fun found => (found.assets.filter (!·.isPrimary)).map (·.relativePath)

/-- `EffectiveSystemRegistry`. -/
structure Registry where
  names : List String
  fromLastKnownGood : Bool

/-- One refresh.  `scan` has no answer where the listing fails, and `stop` says after how many
    transactions of a system an exception comes.  `names` are the proxy paths that are tried for a
    game, those on the disk left out, and `canonical` is the one its record is moved to. -/
structure Run where
  provider : String
  sourceRoot : String
  selectedSystems : Option (List String)
  writesProxies : Bool
  registry : Registry
  remoteSystems : List String
  distinct : remoteSystems.Nodup
  scan : String → Option Scan
  stop : String → Option ℕ
  names : String → Found → ℕ → String
  canonical : String → Found → Option String

/-! ### Which row a game goes on as -/

/-- The path lies below the directory. -/
def below (directory path : SourcePath) : Bool :=
  directory.isPrefixOf path && decide (directory.length < path.length)

/-- The rows of single directories that the scan has gone through. -/
def legacyRows (directories : List SourcePath) (rows : List (ℕ × Game)) : List (ℕ × Game) :=
  rows.filter fun r => decide (r.2.assets.length = 1) && r.2.path.any (· ∈ directories)

/-- The last row of a directory, if exactly one of the paths lies below it. -/
def legacyMatch (primaries : List SourcePath) (legacy : List (ℕ × Game))
    (directory : SourcePath) : Option (SourcePath × ℕ × Game) :=
  match primaries.filter (below directory) with
  | [path] =>
    (legacy.reverse.find? fun r => r.2.path = some directory).map fun r => (path, r)
  | _ => none

/-- `_legacy_container_matches`: the deepest directories first, and each path once. -/
def legacyMatches (games : List Found) (directories : List SourcePath)
    (rows : List (ℕ × Game)) : List (SourcePath × ℕ × Game) :=
  let primaries := (games.filterMap Found.path).dedup
  let legacy := legacyRows directories rows
  let order := ((legacy.filterMap fun r => r.2.path).dedup).insertionSort
    fun a b => b.length ≤ a.length
  order.foldl (fun found directory =>
    match legacyMatch primaries legacy directory with
    | some m => if found.any (fun f => f.1 = m.1) then found else found ++ [m]
    | none => found) []

/-- `_existing_games_by_primary`, at a path. -/
def candidates (rows : List (ℕ × Game)) (path : SourcePath) : List (ℕ × Game) :=
  rows.filter fun r => r.2.path = some path

/-- `identity_key`: cached games first, then pinned ones, then the oldest. -/
def identityKey (c : Rows) (r : ℕ × Game) : Bool ×ₗ Bool ×ₗ ℕ ×ₗ ℕ :=
  toLex ((c.entry r.1).isNone, toLex (!(c.entry r.1).any (·.isPinned),
    toLex (r.2.addedAt, r.1)))

/-- `_select_existing_identity`. -/
def selectExisting (c : Rows) (rows : List (ℕ × Game)) : Option (ℕ × Game) :=
  rows.argmin (identityKey c)

/-- `legacy_matches.get`. -/
def legacyAt (rows : List (ℕ × Game)) (scan : Scan) (path : SourcePath) : Option (ℕ × Game) :=
  ((legacyMatches scan.games scan.directories rows).find? fun m => m.1 = path).map (·.2)

/-- The row that a game found at a path goes on as. -/
def existing (c : Rows) (rows : List (ℕ × Game)) (scan : Scan) (path : SourcePath) :
    Option (ℕ × Game) :=
  (selectExisting c (candidates rows path)).or (legacyAt rows scan path)

/-- `_asset_paths_differ`. -/
def assetPathsDiffer (old new : List Asset) : Bool := !(old.all (· ∈ new) && new.all (· ∈ old))

namespace Run

/-- `_system_is_selected`. -/
def selects (run : Run) (system : String) : Bool := run.selectedSystems.all (system ∈ ·)

/-- A live registry. -/
def live (run : Run) : Bool := !run.registry.fromLastKnownGood

/-- The row is one of the source of this refresh. -/
def current (run : Run) (game : Game) : Bool :=
  decide (game.sourceProvider = run.provider) && decide (game.sourceRoot = run.sourceRoot)

/-- The systems that are scanned. -/
def matched (run : Run) : List String :=
  run.remoteSystems.filter fun system => decide (system ∈ run.registry.names) && run.selects system

/-- The systems that the registry does not know. -/
def unmatched (run : Run) : List String :=
  run.remoteSystems.filter fun system => system ∉ run.registry.names

/-- `Game.create`. -/
def create (run : Run) (system : String) (found : Found) : Game where
  system := system
  title := found.title
  sourceProvider := run.provider
  sourceRoot := run.sourceRoot
  assets := found.assets
  addedAt := found.addedAt
  lastPlayed := none
  isEligible := true

/-- The game goes on under the identity of an old row. -/
def adopt (run : Run) (system : String) (found : Found) (old : Game) : Game :=
  { run.create system found with addedAt := old.addedAt, lastPlayed := old.lastPlayed }

/-- Whether the row of a game has to be written. -/
def changed (run : Run) (found : Found) (old : Game) : Bool :=
  assetPathsDiffer old.assets found.assets || !old.isEligible || !run.current old
    || decide (old.title ≠ found.title)

/-- What the loop over the games of a system has put together. -/
structure Pass where
  ops : List RowOp
  pending : List (Game × (ℕ → String))
  migrations : List (ℕ × Game)
  rewrites : List (ℕ × Found)
  duplicates : List ℕ
  survivors : List (ℕ × Found)

/-- The proxy records of the system have been read before the loop. -/
def prefetches (run : Run) (c : Rows) (system : String) : Bool :=
  let rows := c.systemRows system
  rows.any (fun r => rows.any fun r' => decide (r'.1 ≠ r.1) && r.2.path.isSome
      && decide (r'.2.path = r.2.path))
    || rows.any (fun r => !run.current r.2) || run.writesProxies && !rows.isEmpty

/-- `_rewrite_owned_proxy`, on the records. -/
def rewriteOps (run : Run) (c : Rows) (system : String) (id : ℕ) (found : Found) : List RowOp :=
  if run.prefetches c system && (c.proxy id).isSome then []
  else [.record id (run.names system found)]

/-- `_canonicalize_proxy_path`, on the records. -/
def canonicalOps (run : Run) (c : Rows) (system : String) (id : ℕ) (found : Found) : List RowOp :=
  if (c.proxy id).isSome then ((run.canonical system found).map (.move id)).toList
  else [.record id (run.names system found)]

/-- One turn of the loop over the games of a system. -/
def turn (run : Run) (c : Rows) (system : String) (scan : Scan) (pass : Pass)
    (found : Found) : Pass :=
  match found.path with
  | none => pass
  | some path =>
    match existing c (c.systemRows system) scan path with
    | none =>
      let pending := pass.pending ++ [(run.create system found, run.names system found)]
      if 64 ≤ pending.length then
        { pass with ops := pass.ops ++ [.register pending], pending := [] }
      else { pass with pending := pending }
    | some (id, old) =>
      let game := run.adopt system found old
      let duplicates := ((candidates (c.systemRows system) path).map (·.1)).filter (· ≠ id)
      let pass := { pass with
        duplicates := pass.duplicates ++ duplicates
        survivors := pass.survivors ++ if duplicates.isEmpty then [] else [(id, found)] }
      if !run.changed found old then pass
      else if !run.current old then
        { pass with
          migrations := pass.migrations ++ [(id, game)]
          rewrites := pass.rewrites ++ if duplicates.isEmpty then [(id, found)] else [] }
      else
        { pass with
          ops := pass.ops ++ .save [(id, game)]
            :: if duplicates.isEmpty then run.rewriteOps c system id found else [] }

/-- `_prune_stale_entries`: the rows of the companions of cue sets. -/
def pruneOps (c : Rows) (system : String) (scan : Scan) : List RowOp :=
  ((c.systemRows system).filter fun r =>
    r.2.isEligible && r.2.path.any (· ∈ scan.consumed)).map fun r => .delete [r.1]

/-- A transaction that is left out where there is nothing to do. -/
def unlessEmpty {α : Type} (op : List α → RowOp) (xs : List α) : List RowOp :=
  if xs.isEmpty then [] else [op xs]

/-- The transactions of a system up to the rejected paths. -/
def bodyOps (run : Run) (c : Rows) (system : String) (scan : Scan) : List RowOp :=
  let pass := scan.games.foldl (run.turn c system scan) ⟨[], [], [], [], [], []⟩
  pruneOps c system scan ++ pass.ops ++ unlessEmpty .register pass.pending
    ++ unlessEmpty .save pass.migrations
    ++ pass.rewrites.flatMap (fun r => run.rewriteOps c system r.1 r.2)
    ++ unlessEmpty .delete pass.duplicates
    ++ pass.survivors.flatMap (fun r => run.canonicalOps c system r.1 r.2)

/-- The rows at rejected paths. -/
def rejectedIds (run : Run) (c : Rows) (system : String) (scan : Scan) : List ℕ :=
  if run.live then
    ((c.systemRows system).filter fun r => r.2.path.any (· ∈ scan.ineligible)).map (·.1)
  else []

/-- `_suppress_ineligible_paths`. -/
def rejectOps (run : Run) (c : Rows) (system : String) (scan : Scan) : List RowOp :=
  (run.rejectedIds c system scan).map .hide

/-- The transactions before the exception. -/
def cut (stop : Option ℕ) (ops : List RowOp) : List RowOp :=
  match stop with
  | none => ops
  | some n => ops.take n

/-- One system: whether it was completed, and the rows then. -/
def systemPass (run : Run) (c : Rows) (system : String) : Rows :=
  match run.scan system with
  | none => c
  | some scan =>
    let body := run.bodyOps c system scan
    let c := c.applyAll (cut (run.stop system) body)
    c.applyAll (cut ((run.stop system).map (· - body.length)) (run.rejectOps c system scan))

/-- `successfully_scanned_systems`. -/
def completed (run : Run) (system : String) : Bool :=
  decide (system ∈ run.matched) && (run.scan system).isSome && (run.stop system).isNone

/-- `_suppress_games`, for the rows that satisfy a test. -/
def suppress (c : Rows) (test : Game → Bool) : Rows :=
  c.applyAll ((c.games.entries.filter fun r => test r.2).map (.hide ·.1))

/-- `game_repo.list_systems`: some row of the system is eligible. -/
def lists (c : Rows) (system : String) : Bool :=
  c.games.entries.any fun r => r.2.isEligible && decide (r.2.system = system)

/-- The rows of the systems that are not selected any more. -/
def suppressDeselected (run : Run) (c : Rows) : Rows :=
  suppress c fun game => !run.selects game.system && lists c game.system

/-- The rows of the systems that a live registry does not know. -/
def suppressUnmatched (run : Run) (c : Rows) : Rows :=
  if run.live then suppress c fun game => decide (game.system ∈ run.unmatched) else c

/-- `_stale_previous_source_games`. -/
def stale (run : Run) (game : Game) : Bool :=
  !run.current game && run.selects game.system
    && (run.completed game.system || decide (game.system ∉ run.remoteSystems))

/-- The whole refresh. -/
def refresh (run : Run) (c : Rows) : Rows :=
  suppress (run.matched.foldl run.systemPass (run.suppressUnmatched (run.suppressDeselected c)))
    run.stale

end Run

end RomCloud.Catalog
