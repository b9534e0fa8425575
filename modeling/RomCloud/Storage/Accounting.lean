import Mathlib
import RomCloud.Cache.CacheState
import RomCloud.Lib.Dict

namespace RomCloud.Storage

open Lib Cache

/-!
# The bytes of the cache, and what may still be added

What `CacheStorageCoordinator` counts and what `CacheService` asks it for, in sizes:

* `AssetPlace` — what lies at the places of one asset: its final path, the staged file or tree, the
  `.part` file beside it, the backup of a replacement, and its recovery manifest;
* `totalSize`, `stagingBytes`, `activeReserved` — the three counters, and `fits`, the admission test
  on their sum;
* `existingMemberSize`, `requestedGrowth` — what `cache_game` asks for one game;
* `cacheGame` — one game admitted, transferred, promoted and finalized;
* `preflightPinned`, `downloadPinned` — the batch, and the test before it.

Nothing else uses the cache: the reservation of a game is gone when the next one is admitted, so a
game is one step.  The places of different assets are different.
-/

/-! ### The places of an asset -/

/-- A file, or a directory with the bytes of its tree. -/
structure Item where
  isTree : Bool
  bytes : ℕ
deriving DecidableEq

/-- The bytes of a place, none when nothing is there. -/
def existingBytes (item : Option Item) : ℕ := (item.map Item.bytes).getD 0

@[simp] theorem existingBytes_none : existingBytes none = 0 := rfl

@[simp] theorem existingBytes_some (item : Item) : existingBytes (some item) = item.bytes := rfl

/-- What lies at the places of one asset.  `manifest` is the recovery manifest, if there is one,
    with whether the member hashes it records are those of the final path. -/
structure AssetPlace where
  final : Option Item
  staged : Option Item
  part : ℕ
  backup : ℕ
  manifest : Option Bool
deriving DecidableEq

namespace AssetPlace

/-- An asset of which nothing is there. -/
def nowhere : AssetPlace := ⟨none, none, 0, 0, none⟩

/-- The bytes below `.partial`. -/
def retained (place : AssetPlace) : ℕ := existingBytes place.staged + place.part

/-- The bytes on the disk. -/
def physical (place : AssetPlace) : ℕ :=
  existingBytes place.final + place.backup + place.retained

/-- `_unfinalized_promotion_bytes` and `_replacement_backup_bytes` of one asset. -/
def recoveryBytes (place : AssetPlace) : ℕ :=
  if place.manifest.isSome then existingBytes place.final + place.backup else 0

/-- `staging_asset_size`: the `.part` file is not looked for beside a staged tree. -/
def stagingAssetSize (place : AssetPlace) : ℕ :=
  match place.staged with
  | none => place.part
  | some item => if item.isTree then item.bytes else item.bytes + place.part

/-- `validated_promoted_size`. -/
def validatedPromotedSize (place : AssetPlace) : Option ℕ :=
  if place.manifest = some true then place.final.map Item.bytes else none

theorem stagingAssetSize_le (place : AssetPlace) : place.stagingAssetSize ≤ place.retained := by
  obtain ⟨_, staged, part, _, _⟩ := place
  cases staged with
  | none => simp [stagingAssetSize, retained]
  | some item => by_cases h : item.isTree <;> simp [stagingAssetSize, retained, h]

end AssetPlace

/-! ### The cache -/

/-- What a batch does not change: the policy, the source, and the containers of the older layout,
    in which an asset is looked for where nothing is at its final path. -/
structure Setup where
  games : Finset String
  paths : Finset String
  source : String → Item
  container : String → String → Option ℕ
  maxSizeBytes : ℕ
  minFreeBytes : ℕ

/-- The state of the cache.  `member` has the sizes of the rows of `cache_members`, `complete` the
    games with a complete entry and a resolved membership; `stray` is whatever else lies below
    `.partial`, `reserved` the reservations that are held and `stale` those nobody holds. -/
structure Store where
  place : String → AssetPlace
  member : String → String → ℕ
  complete : String → Bool
  stray : ℕ
  reserved : ℕ
  stale : ℕ
  free : ℤ

variable (S : Setup)

/-- The row of a path in the sum of `total_size`: the largest size any game has for it. -/
def memberBytes (s : Store) (path : String) : ℕ := S.games.sup fun g => s.member g path

/-- `CacheRepository.total_size`. -/
def totalSize (s : Store) : ℕ := ∑ path ∈ S.paths, memberBytes S s path

/-- `CacheStorageCoordinator.staging_bytes`. -/
def stagingBytes (s : Store) : ℕ :=
  (∑ path ∈ S.paths, (s.place path).retained) + s.stray
    + ∑ path ∈ S.paths, (s.place path).recoveryBytes

/-- `_active_reserved`, whether the reservations are held or not. -/
def activeReserved (s : Store) : ℕ := s.reserved + s.stale

/-- The total of `_fits`. -/
def totalBytes (s : Store) : ℕ := totalSize S s + stagingBytes S s + activeReserved s

/-- `_fits`. -/
def fits (s : Store) (requested : ℕ) : Bool :=
  decide (totalBytes S s + requested ≤ S.maxSizeBytes) &&
    decide ((S.minFreeBytes : ℤ) ≤ s.free - activeReserved s - requested)

/-- What one asset adds to the total. -/
def accounted (s : Store) (path : String) : ℕ :=
  memberBytes S s path + (s.place path).recoveryBytes + (s.place path).retained

theorem totalBytes_eq_sum (s : Store) :
    totalBytes S s = (∑ path ∈ S.paths, accounted S s path) + s.stray + activeReserved s := by
  have hsum : ∑ path ∈ S.paths, accounted S s path
      = totalSize S s + (∑ path ∈ S.paths, (s.place path).recoveryBytes)
        + ∑ path ∈ S.paths, (s.place path).retained := by
    simp only [accounted, Finset.sum_add_distrib, totalSize]
  rw [totalBytes, stagingBytes, hsum]
  omega

/-- `_reclaim_stale_locked`. -/
def reclaimStale (s : Store) : Store := { s with stale := 0 }

/-! ### What is there, and what is asked for -/

/-- The size of what `_cached_asset_path` finds. -/
def cachedAssetSize (s : Store) (gameId path : String) : Option ℕ :=
  ((s.place path).final.map Item.bytes).or (S.container gameId path)

/-- `_existing_member_sizes`, at one asset. -/
def existingMemberSize (s : Store) (gameId : String) (asset : GameAsset) : Option ℕ :=
  if (s.place asset.relativePath).manifest.isSome then
    (s.place asset.relativePath).validatedPromotedSize
  else
    (cachedAssetSize S s gameId asset.relativePath).filter fun actual =>
      asset.sizeBytes = none ∨ asset.sizeBytes = some actual

/-- The assets that are not there. -/
def missingAssets (s : Store) (game : Game) : List GameAsset :=
  game.assets.filter fun asset => existingMemberSize S s game.id asset = none

/-- `is_valid_cached_entry`: the members of a complete entry are the assets of its game. -/
def isValidCachedEntry (s : Store) (game : Game) : Bool :=
  s.complete game.id && game.assets.any GameAsset.isPrimary &&
    game.assets.all fun asset =>
      ((cachedAssetSize S s game.id asset.relativePath).filter fun actual =>
        asset.sizeBytes = none ∨ asset.sizeBytes = some actual).isSome

/-- `estimate_asset_size`. -/
def estimateAssetSize (asset : GameAsset) : ℕ :=
  asset.sizeBytes.getD (S.source asset.relativePath).bytes

/-- `estimate_size`. -/
def estimateSize (game : Game) : ℕ := (game.assets.map (estimateAssetSize S)).sum

/-- `staging_size`. -/
def stagingSize (s : Store) (game : Game) : ℕ :=
  (game.assets.map fun asset => (s.place asset.relativePath).stagingAssetSize).sum

/-- The growth `cache_game` asks an admission for. -/
def requestedGrowth (s : Store) (game : Game) : ℕ :=
  let missing := missingAssets S s game
  let needed := (missing.map fun asset => asset.sizeBytes.getD 0).sum
  let actualBefore := (game.assets.filterMap (existingMemberSize S s game.id)).sum
  (if missing.any fun asset => asset.sizeBytes.isNone then
      max needed (estimateSize S game - actualBefore)
    else needed) - stagingSize s game

/-! ### The transfer of one game -/

/-- What the transfers find: whether the source of a game can be read, whether a final path of the
    right size has the content of the source, and whether a staged file has. -/
structure Answers where
  readable : String → Bool
  finalMatches : String → String → Bool
  stagedMatches : String → String → Bool

/-- What ends a batch: no room at the admission of a game, which then evicts other games or raises
    `InsufficientSpaceError`; or any other error. -/
inductive Stop
  | noRoom
  | failed
deriving DecidableEq

/-- `_validated_final_size`: with a recovery manifest its hashes are checked too. -/
def finalIsValid (source : Item) (isMatch : Bool) (place : AssetPlace) : Bool :=
  decide (place.final = some source) && isMatch && decide (place.manifest ≠ some false)

/-- `_transfer_file` or `_transfer_directory`, to its end.  A staged file is used again when it
    has the content of the source; a finished file cannot be moved over a directory. -/
def stageAsset (source : Item) (isMatch : Bool) (place : AssetPlace) : Option AssetPlace :=
  if source.isTree then some { place with staged := some source }
  else if (place.staged.any Item.isTree) = true then none
  else if place.staged = some source ∧ isMatch = true then some place
  else some { place with staged := some source, part := 0 }

/-- `_promote` of one asset, with `_atomic_promote`. -/
def promoteAsset (place : AssetPlace) : Option AssetPlace :=
  match place.staged with
  | none => some { place with backup := if place.final.isSome then 0 else place.backup }
  | some item =>
    if !item.isTree && place.final.any Item.isTree then none
    else some { place with final := some item, staged := none, backup := 0 }

/-- One asset of `_transfer_in_session`, staged unless its final path is valid, and promoted. -/
def transferAsset (a : Answers) (gameId path : String) (place : AssetPlace) : Option AssetPlace :=
  if finalIsValid (S.source path) (a.finalMatches gameId path) place then promoteAsset place
  else (stageAsset (S.source path) (a.stagedMatches gameId path) place).bind promoteAsset

/-- `_transfer_in_session`. -/
def transferGame (a : Answers) (game : Game) (place : String → AssetPlace) :
    Option (String → AssetPlace) :=
  game.assets.foldlM (fun place asset =>
    (transferAsset S a game.id asset.relativePath (place asset.relativePath)).map
      (Function.update place asset.relativePath)) place

/-- The paths of a game. -/
def assetPaths (game : Game) : List String := game.assets.map GameAsset.relativePath

/-- `finalize_transfer`, after `replace_membership`: the rows of the game are its assets with the
    sizes of their final paths, and the recovery manifests of the assets are gone. -/
def finalizeTransfer (s : Store) (game : Game) (place : String → AssetPlace) : Store where
  place path :=
    if path ∈ assetPaths game then { place path with manifest := none } else place path
  member g path :=
    if g = game.id then if path ∈ assetPaths game then existingBytes (place path).final else 0
    else s.member g path
  complete := Function.update s.complete game.id true
  stray := s.stray
  reserved := s.reserved
  stale := s.stale
  free := s.free + (∑ path ∈ S.paths, (s.place path).physical : ℕ)
    - (∑ path ∈ S.paths, (place path).physical : ℕ)

/-- `cache_game`. -/
def cacheGame (a : Answers) (s : Store) (game : Game) : Except Stop Store :=
  if isValidCachedEntry S s game then .ok s
  else if game.assets = [] then .error .failed
  else if fits S (reclaimStale s) (requestedGrowth S s game) then
    if a.readable game.id then
      match transferGame S a game s.place with
      | none => .error .failed
      | some place => .ok (finalizeTransfer S (reclaimStale s) game place)
    else .error .failed
  else .error .noRoom

/-! ### The batch of pinned games -/

/-- The pinned games with data to download. -/
def gamesNeedingData (s : Store) (pinned : List Game) : List Game :=
  pinned.filter fun game => game.isEligible && !isValidCachedEntry S s game

/-- `missing_paths[path] = max(prior, size)`. -/
def addMissing (sizes : Dict String ℕ) (asset : GameAsset) : Dict String ℕ :=
  sizes.insert asset.relativePath
    (max ((sizes.get? asset.relativePath).getD 0) (estimateAssetSize S asset))

/-- `missing_paths`. -/
def missingPaths (s : Store) (pinned : List Game) : Dict String ℕ :=
  ((gamesNeedingData S s pinned).flatMap (missingAssets S s)).foldl (addMissing S) ∅

/-- `additional_bytes`. -/
def additionalBytes (s : Store) (pinned : List Game) : ℕ :=
  ((missingPaths S s pinned).entries.map fun e =>
    e.2 - (s.place e.1).stagingAssetSize).sum

structure PinnedDownloadPreflight where
  pinnedGames : ℕ
  gamesNeedingData : ℕ
  additionalBytes : ℕ
  currentCacheBytes : ℕ
  stagingBytes : ℕ
  activeReservedGrowth : ℕ
  maxCacheBytes : ℕ
  freeBytes : ℤ
  minFreeBytes : ℕ
  gameIds : List String
  allowed : Bool
  reasons : List String
deriving DecidableEq

def limitReason : String :=
  "Pinned downloads would exceed the configured cache-size limit. " ++
    "Remove local copies or unpin games first."

def reserveReason : String :=
  "Pinned downloads would reduce filesystem free space below the " ++
    "configured minimum reserve. Remove local copies or unpin games first."

/-- `reasons`: no room below the limit, and no room on the disk. -/
def preflightReasons (s : Store) (additional : ℕ) : List String :=
  (if S.maxSizeBytes < totalBytes S s + additional then [limitReason] else []) ++
    if s.free - activeReserved s - additional < S.minFreeBytes then [reserveReason] else []

/-- `preflight_pinned`. -/
def preflightPinned (s : Store) (pinned : List Game) : PinnedDownloadPreflight where
  pinnedGames := pinned.length
  gamesNeedingData := (gamesNeedingData S s pinned).length
  additionalBytes := additionalBytes S s pinned
  currentCacheBytes := totalSize S s
  stagingBytes := stagingBytes S s
  activeReservedGrowth := activeReserved s
  maxCacheBytes := S.maxSizeBytes
  freeBytes := s.free
  minFreeBytes := S.minFreeBytes
  gameIds := (gamesNeedingData S s pinned).map Game.id
  allowed := (preflightReasons S s (additionalBytes S s pinned)).isEmpty
  reasons := preflightReasons S s (additionalBytes S s pinned)

/-- The preflight allows what an admission would let through. -/
theorem preflightPinned_allowed (s : Store) (pinned : List Game) :
    (preflightPinned S s pinned).allowed = fits S s (additionalBytes S s pinned) := by
  simp only [preflightPinned, preflightReasons, fits]
  by_cases htotal : S.maxSizeBytes < totalBytes S s + additionalBytes S s pinned
  · simp [htotal]
  · by_cases hfree : s.free - activeReserved s - additionalBytes S s pinned < S.minFreeBytes
    · simp [htotal, hfree]
    · simp [htotal, hfree, Nat.le_of_not_lt htotal, Int.not_lt.mp hfree]

/-- `download_pinned`. -/
def downloadPinned (a : Answers) (s : Store) (pinned : List Game) : Except Stop Store :=
  if (preflightPinned S s pinned).allowed then
    (gamesNeedingData S s pinned).foldlM (cacheGame S a) s
  else .error .noRoom

end RomCloud.Storage
