import RomCloud.Lib.Check
import RomCloud.Lib.DirTree
import RomCloud.Lib.Json
import RomCloud.Lib.Table
import RomCloud.Lib.Text
import Mathlib.Data.Prod.Lex

namespace RomCloud.Cache

open RomCloud.Lib

/-!
# The game cache

The rows of `CacheRepository`, the cache directory, and what `CacheService` reads of them:

* `resolveCachePath` — where an asset lies below the cache root;
* `cachedMemberPath` — where a member of an entry lies, in either of the two layouts;
* `isCached` — every member of a complete entry is there, with its size;
* `resolvedGame` — the closure of a game, from its members or from the resolver.
-/

/-- What `CacheService` raises. -/
inductive CacheError
  | invalidSystem (system : String)
  | invalidPath (relativePath : String)
  | foreignPath (relativePath system : String)
  | noFilename (relativePath : String)
  | pathTraversal (relativePath : String)
  | gameNotFound (gameId : String)
  | noCacheableAssets (gameId : String)
  | gamePinned (title : String)
  | dependenciesUnavailable (gameId : String)
  | dependency (message : String)
  | notAFile (path : FsPath)
deriving DecidableEq

/-! ### Where an asset lies -/

/-- `_validate_system`. -/
def validateSystem (system : String) : Except CacheError Unit :=
  require (system ≠ "" ∧ system ≠ "." ∧ system ≠ ".." ∧ '/' ∉ system.toList ∧ '\\' ∉ system.toList)
    (.invalidSystem system)

/-- `system_relative_path`, as the components below the source root of the system. -/
def systemRelativePath (system relativePath : String) : Except CacheError (List String) := do
  validateSystem system
  let normalised := String.ofList (relativePath.toList.map fun c => if c = '\\' then '/' else c)
  match posixParts normalised with
  | [] => throw (.invalidPath relativePath)
  | first :: remainder =>
    require (normalised.toList.head? ≠ some '/') (.invalidPath relativePath)
    require (first = system) (.foreignPath relativePath system)
    require (remainder ≠ []) (.noFilename relativePath)
    require (".." ∉ remainder) (.pathTraversal relativePath)
    pure remainder

/-- `resolve_cache_path`. -/
def resolveCachePath (root : FsPath) (system relativePath : String) : Except CacheError FsPath :=
  do
  let remainder ← systemRelativePath system relativePath
  pure (root ++ system :: remainder)

/-- `Path(path).name`. -/
def pathName (path : String) : String := (posixParts path).getLastD ""

/-- `Path(filename).suffix.lower()`. -/
def lowerSuffix (filename : String) : String :=
  let name := (pathName filename).toList
  let suffix := (name.reverse.takeWhile (· ≠ '.')).reverse
  if suffix = [] ∨ name.length ≤ suffix.length + 1 then "" else
    String.ofList ('.' :: suffix.map Char.toLower)

/-- `DESCRIPTOR_EXTENSIONS`. -/
def descriptorExtensions : List String := [".m3u", ".cue", ".xbox360", ".ccd", ".gdi"]

/-! ### Games and rows -/

structure GameAsset where
  filename : String
  relativePath : String
  sizeBytes : Option ℕ
  isPrimary : Bool
deriving DecidableEq

structure Game where
  id : String
  system : String
  title : String
  assets : List GameAsset
  isEligible : Bool

/-- `primary_asset`: the first primary asset, or the first asset. -/
def Game.primaryAsset (game : Game) : Option GameAsset :=
  (game.assets.find? GameAsset.isPrimary).or game.assets.head?

inductive CacheStatus
  | transferring
  | complete
  | failed
  | incomplete
deriving DecidableEq

/-- A row of `cache_entries`. -/
structure CacheEntry where
  gameId : String
  cachePath : FsPath
  status : CacheStatus
  lastAccessed : String
  sizeBytes : ℕ
  isPinned : Bool
  membershipResolved : Bool
deriving DecidableEq

/-- `is_evictable`. -/
def CacheEntry.isEvictable (entry : CacheEntry) : Bool :=
  decide (entry.status = .complete) && !entry.isPinned

/-- A row of `cache_members`. -/
structure CacheMember where
  gameId : String
  relativePath : String
  expectedSize : Option ℕ
  sizeBytes : ℕ
  isPrimary : Bool
deriving DecidableEq

/-- The primary key of `cache_members`. -/
def CacheMember.key (member : CacheMember) : String ×ₗ String :=
  toLex (member.gameId, member.relativePath)

/-- The asset of a member, as `_cached_member_path` and `_game_from_membership` rebuild it. -/
def CacheMember.asset (member : CacheMember) : GameAsset where
  filename := pathName member.relativePath
  relativePath := member.relativePath
  sizeBytes := member.expectedSize
  isPrimary := member.isPrimary

/-- The rows, the files, and the games that are being launched. -/
structure CacheState where
  entries : Table CacheEntry CacheEntry.gameId
  members : Table CacheMember CacheMember.key
  tree : DirTree
  stagingRecords : List String
  activeLaunches : List String

/-- The parts of `CacheService` that do not change: its directory, the catalog, the resolver of
dependency closures, the limits of its policy and, when a storage coordinator is configured, the
final paths that another process has locked. -/
structure CacheService where
  cacheRoot : FsPath
  games : String → Option Game
  dependencies : Option (Game → Except CacheError Game)
  coordinated : Bool
  locked : FsPath → Bool
  maxSizeBytes : ℕ
  minFreeBytes : ℕ
  freeBytes : DirTree → ℕ
  fitsCurrent : CacheState → ℕ → Bool

namespace CacheState

/-- `list_members`: the primary members first, then by path. -/
def listMembers (s : CacheState) (gameId : String) : List CacheMember :=
  sortOn (fun member => toLex (!member.isPrimary, member.relativePath))
    (s.members.toList.filter (fun member => member.gameId = gameId))

/-- `owner_count`. -/
def ownerCount (s : CacheState) (relativePath : String) : ℕ :=
  s.members.toList.countP (fun member => member.relativePath = relativePath)

/-- `membership_resolved`. -/
def membershipResolved (s : CacheState) (gameId : String) : Bool :=
  match s.entries.get? gameId with
  | none => false
  | some entry => entry.membershipResolved

/-- `list_evictable_lru`. -/
def listEvictableLru (s : CacheState) : List CacheEntry :=
  sortOn CacheEntry.lastAccessed (s.entries.toList.filter CacheEntry.isEvictable)

/-- `total_size`: the bytes of the members, shared paths counted once. -/
def totalSize (s : CacheState) : ℕ :=
  (s.members.toList.map CacheMember.relativePath).dedup.foldr (fun path total =>
    ((s.members.toList.filter (fun member => member.relativePath = path)).map
      CacheMember.sizeBytes).foldr Nat.max 0 + total) 0

/-- `CacheRepository.delete`: the row of an entry goes, and with it those of its members. -/
def delete (s : CacheState) (gameId : String) : CacheState :=
  { s with
    entries := s.entries.keep (fun id => id ≠ gameId)
    members := s.members.keep (fun key => (ofLex key).1 ≠ gameId) }

theorem mem_listMembers {s : CacheState} {gameId : String} {member : CacheMember} :
    member ∈ s.listMembers gameId ↔
      s.members.get? member.key = some member ∧ member.gameId = gameId := by
  unfold listMembers
  rw [mem_sortOn, List.mem_filter, Table.mem_toList_iff, decide_eq_true_eq]

theorem get?_entries_delete (s : CacheState) (gameId id : String) :
    (s.delete gameId).entries.get? id = if id = gameId then none else s.entries.get? id := by
  unfold delete
  rw [Table.get?_keep]
  by_cases h : id = gameId
  · simp [h]
  · simp [h]

/-- The members of the other games stay. -/
theorem mem_listMembers_delete {s : CacheState} {gameId id : String} (h : id ≠ gameId)
    {member : CacheMember} :
    member ∈ (s.delete gameId).listMembers id ↔ member ∈ s.listMembers id := by
  rw [mem_listMembers, mem_listMembers]
  constructor
  · rintro ⟨hget, hid⟩
    unfold delete at hget
    rw [Table.get?_keep] at hget
    split at hget
    · exact ⟨hget, hid⟩
    · exact absurd hget (by simp)
  · rintro ⟨hget, hid⟩
    refine ⟨?_, hid⟩
    unfold delete
    rw [Table.get?_keep, if_pos]
    · exact hget
    · show decide (member.gameId ≠ gameId) = true
      rw [hid]
      exact decide_eq_true h

end CacheState

namespace CacheService

variable (service : CacheService)

/-- `_partial_root` of the transfer service. -/
def partialRoot : FsPath := service.cacheRoot ++ [".partial"]

/-- `_staging_path`. -/
def stagingPath (system relativePath : String) : Except CacheError FsPath :=
  resolveCachePath service.partialRoot system relativePath

/-- `staged.with_name(staged.name + ".part")`. -/
def partPath (staged : FsPath) : FsPath := staged.dropLast ++ [staged.getLastD "" ++ ".part"]

/-- `_is_within`. -/
def isWithin (path : FsPath) : Bool := service.cacheRoot.isPrefixOf path

/-- `_cached_asset_path`. -/
def cachedAssetPath (tree : DirTree) (entry : CacheEntry) (game : Game) (asset : GameAsset) :
    Except CacheError FsPath := do
  let direct ← resolveCachePath service.cacheRoot game.system asset.relativePath
  let nested := entry.cachePath ++ [pathName asset.relativePath]
  pure (if !tree.exists direct && tree.isDir entry.cachePath && tree.exists nested then nested
    else direct)

/-- `_cached_member_path`. -/
def cachedMemberPath (tree : DirTree) (entry : CacheEntry) (game : Game) (member : CacheMember) :
    Except CacheError FsPath :=
  service.cachedAssetPath tree entry game member.asset

/-- One member of `_all_members_present`. -/
def memberPresent (tree : DirTree) (entry : CacheEntry) (game : Game) (member : CacheMember) :
    Except CacheError Bool := do
  let path ← service.cachedMemberPath tree entry game member
  pure (tree.exists path && !tree.isSymlink path
    && member.expectedSize.all (fun expected => tree.size path = expected))

/-- The loop of `_all_members_present`: it stops at the first member that is not there. -/
def allPresent (tree : DirTree) (entry : CacheEntry) (game : Game) :
    List CacheMember → Except CacheError Bool
  | [] => pure true
  | member :: rest => do
    if ← service.memberPresent tree entry game member then allPresent tree entry game rest
    else pure false

/-- `is_cached`, with `is_valid_cached_entry` and `_all_members_present`. -/
def isCached (s : CacheState) (gameId : String) : Except CacheError Bool :=
  match s.entries.get? gameId, service.games gameId with
  | some entry, some game =>
    if entry.status = .complete ∧ s.membershipResolved gameId = true then
      let members := s.listMembers gameId
      if members.any CacheMember.isPrimary then service.allPresent s.tree entry game members
      else pure false
    else pure false
  | _, _ => pure false

theorem allPresent_cons (tree : DirTree) (entry : CacheEntry) (game : Game) (member : CacheMember)
    (rest : List CacheMember) :
    service.allPresent tree entry game (member :: rest) =
      (service.memberPresent tree entry game member).bind fun present =>
        if present then service.allPresent tree entry game rest else .ok false := rfl

theorem allPresent_eq_ok_iff {tree : DirTree} {entry : CacheEntry} {game : Game}
    {members : List CacheMember} :
    service.allPresent tree entry game members = .ok true ↔
      ∀ member ∈ members, service.memberPresent tree entry game member = .ok true := by
  induction members with
  | nil => exact ⟨fun _ _ h => absurd h List.not_mem_nil, fun _ => rfl⟩
  | cons member rest ih =>
    rw [List.forall_mem_cons, ← ih, allPresent_cons]
    cases service.memberPresent tree entry game member with
    | error e => simp [Except.bind]
    | ok present =>
      cases present with
      | true => simp [Except.bind]
      | false => simp [Except.bind]

/-- **What `is_cached` says.** The entry is complete, its membership is resolved and has a primary
    member, and every member is there with its size. -/
theorem isCached_eq_ok_iff {s : CacheState} {gameId : String} :
    service.isCached s gameId = .ok true ↔
      ∃ entry game, s.entries.get? gameId = some entry ∧ service.games gameId = some game
        ∧ entry.status = .complete ∧ entry.membershipResolved = true
        ∧ (∃ member ∈ s.listMembers gameId, member.isPrimary = true)
        ∧ ∀ member ∈ s.listMembers gameId,
          service.memberPresent s.tree entry game member = .ok true := by
  unfold isCached CacheState.membershipResolved
  cases hentry : s.entries.get? gameId with
  | none => simp [pure, Except.pure]
  | some entry =>
    cases hgame : service.games gameId with
    | none => simp [pure, Except.pure]
    | some game =>
      simp only [Option.some.injEq, exists_and_left, exists_eq_left', ← allPresent_eq_ok_iff]
      by_cases hcomplete : entry.status = .complete ∧ entry.membershipResolved = true
      · rw [if_pos hcomplete]
        by_cases hprimary : (s.listMembers gameId).any CacheMember.isPrimary = true
        · rw [if_pos hprimary]
          rw [List.any_eq_true] at hprimary
          simp [hcomplete, hprimary]
        · rw [if_neg hprimary]
          rw [List.any_eq_true] at hprimary
          simp [hprimary, pure, Except.pure]
      · rw [if_neg hcomplete]
        simp only [pure, Except.pure]
        constructor
        · intro h
          exact absurd h (by simp)
        · intro h
          exact absurd ⟨h.1, h.2.1⟩ hcomplete

/-- `_game_from_membership`. -/
def gameFromMembership (game : Game) (members : List CacheMember) : Game :=
  { game with assets := members.map CacheMember.asset }

/-- `_resolved_game`. -/
def resolvedGame (s : CacheState) (game : Game) (entry : Option CacheEntry) :
    Except CacheError Game :=
  let members := s.listMembers game.id
  if entry.isSome ∧ s.membershipResolved game.id = true ∧ members ≠ [] then
    pure (gameFromMembership game members)
  else
    match service.dependencies with
    | some resolve => resolve game
    | none =>
      if game.primaryAsset.any (fun asset => lowerSuffix asset.filename ∈ descriptorExtensions) then
        throw (.dependenciesUnavailable game.id)
      else pure game

end CacheService

end RomCloud.Cache
