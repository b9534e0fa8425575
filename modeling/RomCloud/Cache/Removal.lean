import RomCloud.Cache.CacheState

namespace RomCloud.Cache

open RomCloud.Lib

/-!
# Taking games out of the cache

`remove` and `evict` of `CacheService`, with what they delete and which rows go, and the pins.

* `removeFiles` — the members of which an entry is the last owner, or its recorded path when it has
  none;
* `discardStaging` — the staged data of a closure;
* `remove`, `evict` — one removal, and the removals of an eviction in their order;
* `pin`, `unpin`.
-/

/-- The state an operation leaves, and the error it raises, if any. -/
structure Outcome where
  state : CacheState
  result : Except CacheError Unit

/-- What follows an operation, if it does not raise. -/
def Outcome.andThen (outcome : Outcome) (next : CacheState → Outcome) : Outcome :=
  match outcome.result with
  | .ok () => next outcome.state
  | .error _ => outcome

/-- Either the operation raises, or what follows it has the last word. -/
theorem Outcome.andThen_eq_or (outcome : Outcome) (next : CacheState → Outcome) :
    outcome.andThen next = outcome ∨ outcome.andThen next = next outcome.state := by
  unfold Outcome.andThen
  split
  · exact Or.inr rfl
  · exact Or.inl rfl

namespace CacheService

variable (service : CacheService)

/-! ### Deleting -/

/-- Delete a path of the cache, a directory with what is below it.  Links stay. -/
def deletePath (tree : DirTree) (path : FsPath) : DirTree :=
  if tree.exists path && !tree.isSymlink path && service.isWithin path then
    if tree.isDir path then tree.rmtree path else tree.unlink path
  else tree

/-- The loop of `_remove_files`: the members of which the entry is the last owner. -/
def removeMembers (s : CacheState) (entry : CacheEntry) (game : Game) : List CacheMember → Outcome
  | [] => ⟨s, .ok ()⟩
  | member :: rest =>
    if s.ownerCount member.relativePath > 1 then removeMembers s entry game rest
    else
      match service.cachedMemberPath s.tree entry game member with
      | .error e => ⟨s, .error e⟩
      | .ok path => removeMembers { s with tree := service.deletePath s.tree path } entry game rest

/-- `_remove_files`. -/
def removeFiles (s : CacheState) (entry : CacheEntry) (game : Option Game) : Outcome :=
  match game, s.listMembers entry.gameId with
  | some game, member :: rest => service.removeMembers s entry game (member :: rest)
  | _, _ => ⟨{ s with tree := service.deletePath s.tree entry.cachePath }, .ok ()⟩

/-- Delete the staged data of a path: `rmtree` refuses a link to a directory, `unlink` takes a link
to a file. -/
def discardStaged (tree : DirTree) (staged : FsPath) : Except CacheError DirTree :=
  if tree.isDir staged then
    if tree.isSymlink staged then throw (.notAFile staged) else pure (tree.rmtree staged)
  else if tree.exists staged then pure (tree.unlink staged)
  else pure tree

/-- Delete the file of a transfer that was interrupted. -/
def discardPart (tree : DirTree) (part : FsPath) : Except CacheError DirTree :=
  if tree.exists part && !tree.isSymlink part then
    if tree.isDir part then throw (.notAFile part) else pure (tree.unlink part)
  else pure tree

/-- The body of the loop of `discard_staging`. -/
def discardAsset (s : CacheState) (system : String) (asset : GameAsset) : Outcome :=
  match service.stagingPath system asset.relativePath with
  | .error e => ⟨s, .error e⟩
  | .ok staged =>
    match discardStaged s.tree staged with
    | .error e => ⟨s, .error e⟩
    | .ok tree =>
      match discardPart tree (partPath staged) with
      | .error e => ⟨{ s with tree := tree }, .error e⟩
      | .ok tree' =>
        ⟨{ s with
            tree := tree'
            stagingRecords := s.stagingRecords.filter (fun path => path ≠ asset.relativePath) },
          .ok ()⟩

/-- `TransferService.discard_staging`. -/
def discardStaging (s : CacheState) (system : String) (preserve : List String) :
    List GameAsset → Outcome
  | [] => ⟨s, .ok ()⟩
  | asset :: rest =>
    if asset.relativePath ∈ preserve then discardStaging s system preserve rest
    else (service.discardAsset s system asset).andThen fun s =>
      discardStaging s system preserve rest

/-! ### Removal -/

/-- The final paths of a closure, which a removal locks. -/
def closurePaths (resolved : Game) : Except CacheError (List FsPath) :=
  resolved.assets.mapM fun asset =>
    resolveCachePath service.cacheRoot resolved.system asset.relativePath

/-- The paths that `remove` locks, when a storage coordinator is configured. -/
def removalLocks (resolved : Game) : Except CacheError (List FsPath) :=
  if service.coordinated then service.closurePaths resolved else pure []

/-- What `remove` reads of the closure before it deletes anything. -/
def resolveForRemoval (s : CacheState) (entry : CacheEntry) :
    Except CacheError (Option Game) :=
  match service.games entry.gameId with
  | none => pure none
  | some game => do
    let resolved ← service.resolvedGame s game (some entry)
    let _locks ← service.removalLocks resolved
    pure (some resolved)

/-- The staged data that `remove` discards: an unfinished entry's, except what has several
owners. -/
def discardUnfinished (s : CacheState) (entry : CacheEntry) (resolved : Option Game) : Outcome :=
  match resolved with
  | none => ⟨s, .ok ()⟩
  | some resolved =>
    if entry.status = .complete then ⟨s, .ok ()⟩
    else
      let preserve := (resolved.assets.filter fun asset =>
        s.ownerCount asset.relativePath > 1).map GameAsset.relativePath
      service.discardStaging s resolved.system preserve resolved.assets

/-- `remove`.  With a storage coordinator it waits for the locks of the closure and then reads the
same rows again, so that both calls are one here. -/
def remove (s : CacheState) (gameId : String) (force : Bool) : Outcome :=
  match s.entries.get? gameId with
  | none => ⟨s, .ok ()⟩
  | some entry =>
    if entry.isPinned && !force then
      ⟨s, .error (.gamePinned (((service.games gameId).map Game.title).getD gameId))⟩
    else
      match service.resolveForRemoval s entry with
      | .error e => ⟨s, .error e⟩
      | .ok resolved =>
        (service.discardUnfinished s entry resolved).andThen fun s =>
          (service.removeFiles s entry (service.games gameId)).andThen fun s =>
            ⟨s.delete gameId, .ok ()⟩

/-- One removal of a run, with the states before and after it. -/
structure Removal where
  before : CacheState
  gameId : String
  after : CacheState

/-- What `evict` leaves: the removals it made, in their order, and the error it raises, if any. -/
structure EvictOutcome where
  state : CacheState
  removals : List Removal
  result : Except CacheError Unit

/-- `_has_space_for`. -/
def hasSpaceFor (s : CacheState) (bytesNeeded : ℕ) : Bool :=
  decide (s.totalSize + bytesNeeded ≤ service.maxSizeBytes)
    && decide (service.minFreeBytes + bytesNeeded ≤ service.freeBytes s.tree)

/-- Whether `evict` may stop. -/
def enough (s : CacheState) (bytesNeeded : ℕ) (admissionLocked : Bool) : Bool :=
  if service.coordinated && admissionLocked then service.fitsCurrent s bytesNeeded
  else service.hasSpaceFor s bytesNeeded

/-- The locks of an eviction: `none` when another process holds one. -/
def lockForEviction (s : CacheState) (entry : CacheEntry) : Except CacheError (Option Unit) :=
  match service.games entry.gameId with
  | none => pure (some ())
  | some game =>
    if service.coordinated then do
      let resolved ← service.resolvedGame s game (some entry)
      let paths ← service.closurePaths resolved
      pure (if paths.any service.locked then none else some ())
    else pure (some ())

/-- The loop of `evict` over the candidates of its snapshot.  An error stops it after what was
deleted so far. -/
def evictLoop (bytesNeeded : ℕ) (protectedIds : List String) (admissionLocked : Bool)
    (s : CacheState) : List CacheEntry → EvictOutcome
  | [] => ⟨s, [], .ok ()⟩
  | candidate :: rest =>
    if service.enough s bytesNeeded admissionLocked then ⟨s, [], .ok ()⟩
    else if candidate.gameId ∈ protectedIds then
      evictLoop bytesNeeded protectedIds admissionLocked s rest
    else
      match s.entries.get? candidate.gameId with
      | none => evictLoop bytesNeeded protectedIds admissionLocked s rest
      | some entry =>
        if !entry.isEvictable then evictLoop bytesNeeded protectedIds admissionLocked s rest
        else
          match service.lockForEviction s entry with
          | .error e => ⟨s, [], .error e⟩
          | .ok none => evictLoop bytesNeeded protectedIds admissionLocked s rest
          | .ok (some ()) =>
            let removed := (service.removeFiles s entry (service.games entry.gameId)).andThen
              fun s => ⟨s.delete entry.gameId, .ok ()⟩
            let removal := ⟨s, entry.gameId, removed.state⟩
            match removed.result with
            | .error e => ⟨removed.state, [removal], .error e⟩
            | .ok () =>
              let later := evictLoop bytesNeeded protectedIds admissionLocked removed.state rest
              { later with removals := removal :: later.removals }

/-- `evict`; its result is the games of the removals. -/
def evict (s : CacheState) (bytesNeeded : ℕ) (protectedIds : List String)
    (admissionLocked : Bool) : EvictOutcome :=
  service.evictLoop bytesNeeded (protectedIds ++ s.activeLaunches) admissionLocked s
    s.listEvictableLru

/-! ### Pins -/

/-- `set_pinned`, of the entry that was read. -/
def setPinned (s : CacheState) (entry : CacheEntry) (pinned : Bool) : CacheState :=
  { s with entries := s.entries.put { entry with isPinned := pinned } }

/-- The entry of a game that is pinned before it is downloaded. -/
def undownloadedPin (gameId now : String) : Except CacheError CacheEntry :=
  match service.games gameId with
  | none => throw (.gameNotFound gameId)
  | some game => do
    require (game.isEligible = true) (.gameNotFound gameId)
    match game.primaryAsset with
    | none => throw (.noCacheableAssets gameId)
    | some primary =>
      let cachePath ← resolveCachePath service.cacheRoot game.system primary.relativePath
      pure
        { gameId := gameId
          cachePath := cachePath
          status := .incomplete
          lastAccessed := now
          sizeBytes := 0
          isPinned := true
          membershipResolved := false }

/-- `pin`. -/
def pin (s : CacheState) (gameId now : String) : Outcome :=
  match s.entries.get? gameId with
  | some entry => ⟨setPinned s entry true, .ok ()⟩
  | none =>
    match service.undownloadedPin gameId now with
    | .error e => ⟨s, .error e⟩
    | .ok entry => ⟨{ s with entries := s.entries.put entry }, .ok ()⟩

/-- `unpin`: the pin of a game that was never downloaded goes with its row, and takes no file. -/
def unpin (s : CacheState) (gameId : String) : CacheState :=
  match s.entries.get? gameId with
  | none => s
  | some entry =>
    if entry.status = .incomplete ∧ entry.sizeBytes = 0 ∧ s.listMembers gameId = [] then
      s.delete gameId
    else setPinned s entry false

end CacheService

end RomCloud.Cache
