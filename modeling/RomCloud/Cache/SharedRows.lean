import RomCloud.Cache.Removal
import RomCloud.Lib.Machine
import Mathlib.Logic.Function.Basic

namespace RomCloud.Cache

open RomCloud.Lib

/-!
# Processes over the same rows

Any number of processes over one database: each step of a process is one call of the cache
repository, with what the process does until the next one. An operation that has read a row decides
by what it read, whatever the others have written since.

* `saveEntry`, `updateEntry`, `replaceMembership`, `finalizeTransfer` — the statements that write;
* `Proc` — where a process stands in `pin`, `unpin`, `cache_game`, `evict` or `remove`;
* `Answer` — what a step learns from elsewhere: the catalog and the source, the disk, the locks;
* `sharedCache` — the machine.

Of what is read besides the row, only the members that a removal deletes by come from the state. The
rest steers an operation only, and any answer may come. An eviction for the admission of a transfer
is a process of its own: nothing that it does depends on the transfer that waits for it.
-/

namespace CacheState

/-! ### The statements -/

/-- `save`, of an entry that is not complete: the columns of the entry go over those of the row. -/
def saveEntry (s : CacheState) (entry : CacheEntry) : CacheState :=
  let resolved := ((s.entries.get? entry.gameId).map CacheEntry.membershipResolved).getD false
  { s with entries := s.entries.put { entry with membershipResolved := resolved } }

/-- `UPDATE cache_entries SET … WHERE game_id = ?`. -/
def updateEntry (s : CacheState) (gameId : String) (change : CacheEntry → CacheEntry) :
    CacheState :=
  match s.entries.get? gameId with
  | none => s
  | some entry => { s with entries := s.entries.put { change entry with gameId := gameId } }

/-- `set_pinned`. -/
def updatePinned (s : CacheState) (gameId : String) (pinned : Bool) : CacheState :=
  s.updateEntry gameId fun entry => { entry with isPinned := pinned }

/-- `update_status`. -/
def updateStatus (s : CacheState) (gameId : String) (status : CacheStatus) : CacheState :=
  s.updateEntry gameId fun entry => { entry with status := status }

/-- `update_last_accessed`. -/
def updateLastAccessed (s : CacheState) (gameId now : String) : CacheState :=
  s.updateEntry gameId fun entry => { entry with lastAccessed := now }

/-- `replace_membership`. A row that is gone is refused by the foreign key. -/
def replaceMembership (s : CacheState) (gameId : String) (members : List CacheMember) :
    Option CacheState :=
  if s.entries.get? gameId = none then none else
  let others := s.members.keep fun key => (ofLex key).1 ≠ gameId
  let listed := others.putAll (members.map fun member => { member with gameId := gameId })
  some (updateEntry { s with members := listed } gameId fun entry =>
    { entry with membershipResolved := true })

/-- `finalize_transfer`, as far as the cache goes. -/
def finalizeTransfer (s : CacheState) (gameId : String) (cachePath : FsPath)
    (sizes : List (String × ℕ)) (now : String) : CacheState :=
  let sized := s.members.mapRows (fun member =>
      if member.gameId = gameId then
        { member with sizeBytes := (sizes.lookup member.relativePath).getD member.sizeBytes }
      else member) (by intro member; split <;> rfl)
  updateEntry { s with members := sized } gameId fun entry =>
    { entry with
      cachePath := cachePath
      status := .complete
      sizeBytes := (sizes.map Prod.snd).foldr (· + ·) 0
      lastAccessed := now }

end CacheState

/-! ### The processes -/

/-- Who deletes: `remove`, or `evict` with the games that it spares and the candidates that it has
left. -/
inductive Deleter
  | remove
  | evict (protectedIds : List String) (rest : List CacheEntry)

/-- Where a process stands: the repository call that comes next. -/
inductive Proc
  | idle
  /-- `pin`: `get`; then `save` or `set_pinned`. -/
  | pinReading (gameId : String)
  | pinSaving (entry : CacheEntry)
  | pinSetting (gameId : String)
  /-- `unpin`: `get`; `list_members`; then `delete` or `set_pinned`. -/
  | unpinReading (gameId : String)
  | unpinListing (gameId : String)
  | unpinDeleting (gameId : String)
  | unpinSetting (gameId : String)
  /-- `cache_game`: the reads of `is_cached`; `update_last_accessed`, or `get`. -/
  | caching (gameId : String)
  | touching (gameId : String)
  | cacheReading (gameId : String)
  /-- The reads of the closure and of the admission. -/
  | cacheResolving (gameId : String) (existing : Option CacheEntry)
  /-- `save` or `update_status`; `replace_membership`; the transfer; `finalize_transfer`. -/
  | cacheWriting (gameId : String) (existing : Option CacheEntry)
  | cacheListing (gameId : String)
  | transferring (gameId : String)
  | finalizing (gameId : String)
  /-- `update_status` of a transfer that is cancelled or fails. -/
  | failing (gameId : String) (status : CacheStatus)
  /-- `evict`: `list_evictable_lru`; for each candidate the reads of the free space, then `get`. -/
  | evictListing (protectedIds : List String)
  | evictNext (protectedIds : List String) (rest : List CacheEntry)
  | evictReading (protectedIds : List String) (gameId : String) (rest : List CacheEntry)
  | evictLocking (protectedIds : List String) (entry : CacheEntry) (rest : List CacheEntry)
  /-- `remove`: `get`; the reads of the closure; the staged data. -/
  | removeReading (gameId : String)
  | removeResolving (entry : CacheEntry)
  | removeStaging (entry : CacheEntry) (resolved : Option Game)
  /-- `_remove_files`: `list_members`; `owner_count` of each member; then `delete`. -/
  | deleteListing (deleter : Deleter) (entry : CacheEntry)
  | deleteFiles (deleter : Deleter) (entry : CacheEntry) (game : Game)
      (members : List CacheMember)
  | deleteRow (deleter : Deleter) (entry : CacheEntry)

/-- What the closure, the locks and the admission come to. -/
inductive Admission
  /-- With the locks, `cache_game` starts again. -/
  | again
  | granted
  | refused

/-- How the part of a transfer ends that follows a repository call. -/
inductive Progress
  | goesOn
  | cancelled
  | raises

/-- What a step learns from elsewhere. -/
structure Answer where
  now : String
  cached : Bool
  admission : Admission
  cachePath : FsPath
  members : List CacheMember
  progress : Progress
  tree : DirTree
  sizes : List (String × ℕ)
  enough : Bool
  locked : Bool
  resolved : Except CacheError (Option Game)

/-- The rows, the files, and the processes. -/
structure Shared where
  cache : CacheState
  procs : ℕ → Proc

/-- The calls of the five operations; `remove` is without `force`. -/
inductive Operation
  | pin (gameId : String)
  | unpin (gameId : String)
  | cacheGame (gameId : String)
  | evict (protectedIds : List String)
  | remove (gameId : String)

def Operation.start : Operation → Proc
  | pin gameId => .pinReading gameId
  | unpin gameId => .unpinReading gameId
  | cacheGame gameId => .caching gameId
  | evict protectedIds => .evictListing protectedIds
  | remove gameId => .removeReading gameId

/-- `CacheEntry.create`. -/
def CacheEntry.create (gameId : String) (cachePath : FsPath) (now : String) : CacheEntry where
  gameId := gameId
  cachePath := cachePath
  status := .transferring
  lastAccessed := now
  sizeBytes := 0
  isPinned := false
  membershipResolved := false

/-- After a repository call of a transfer: the next one, or the one that records the failure. -/
def Progress.andThen (progress : Progress) (gameId : String) (next : Proc) : Proc :=
  match progress with
  | goesOn => next
  | cancelled => .failing gameId .incomplete
  | raises => .failing gameId .failed

/-- Where a process goes when a removal is done. -/
def Deleter.next : Deleter → Proc
  | remove => .idle
  | evict protectedIds rest => .evictNext protectedIds rest

namespace CacheService

variable (service : CacheService)

/-- One repository call of a process, with what follows it. -/
def advance (s : CacheState) (answer : Answer) : Proc → CacheState × Proc
  | .idle => (s, .idle)
  | .pinReading gameId =>
    match s.entries.get? gameId with
    | some _ => (s, .pinSetting gameId)
    | none =>
      match service.undownloadedPin gameId answer.now with
      | .error _ => (s, .idle)
      | .ok entry => (s, .pinSaving entry)
  | .pinSaving entry => (s.saveEntry entry, .idle)
  | .pinSetting gameId => (s.updatePinned gameId true, .idle)
  | .unpinReading gameId =>
    match s.entries.get? gameId with
    | none => (s, .idle)
    | some entry =>
      if entry.status = .incomplete ∧ entry.sizeBytes = 0 then (s, .unpinListing gameId)
      else (s, .unpinSetting gameId)
  | .unpinListing gameId =>
    (s, if s.listMembers gameId = [] then .unpinDeleting gameId else .unpinSetting gameId)
  | .unpinDeleting gameId => (s.delete gameId, .idle)
  | .unpinSetting gameId => (s.updatePinned gameId false, .idle)
  | .caching gameId =>
    if answer.cached then (s, .touching gameId)
    else if service.games gameId = none then (s, .idle) else (s, .cacheReading gameId)
  | .touching gameId => (s.updateLastAccessed gameId answer.now, .idle)
  | .cacheReading gameId => (s, .cacheResolving gameId (s.entries.get? gameId))
  | .cacheResolving gameId existing =>
    match answer.admission with
    | .again => (s, .caching gameId)
    | .refused => (s, .idle)
    | .granted => (s, answer.progress.andThen gameId (.cacheWriting gameId existing))
  | .cacheWriting gameId none =>
    (s.saveEntry (.create gameId answer.cachePath answer.now), .cacheListing gameId)
  | .cacheWriting gameId (some _) =>
    (s.updateStatus gameId .transferring, .cacheListing gameId)
  | .cacheListing gameId =>
    match s.replaceMembership gameId answer.members with
    | none => (s, .failing gameId .failed)
    | some s => (s, .transferring gameId)
  | .transferring gameId =>
    ({ s with tree := answer.tree }, answer.progress.andThen gameId (.finalizing gameId))
  | .finalizing gameId =>
    (s.finalizeTransfer gameId answer.cachePath answer.sizes answer.now, .idle)
  | .failing gameId status => (s.updateStatus gameId status, .idle)
  | .evictListing protectedIds => (s, .evictNext protectedIds s.listEvictableLru)
  | .evictNext _ [] => (s, .idle)
  | .evictNext protectedIds (candidate :: rest) =>
    if answer.enough then (s, .idle)
    else if candidate.gameId ∈ protectedIds then (s, .evictNext protectedIds rest)
    else (s, .evictReading protectedIds candidate.gameId rest)
  | .evictReading protectedIds gameId rest =>
    match s.entries.get? gameId with
    | none => (s, .evictNext protectedIds rest)
    | some entry =>
      if entry.isEvictable then (s, .evictLocking protectedIds entry rest)
      else (s, .evictNext protectedIds rest)
  | .evictLocking protectedIds entry rest =>
    match answer.resolved with
    | .error _ => (s, .idle)
    | .ok _ =>
      if answer.locked then (s, .evictNext protectedIds rest)
      else (s, .deleteListing (.evict protectedIds rest) entry)
  | .removeReading gameId =>
    match s.entries.get? gameId with
    | none => (s, .idle)
    | some entry => (s, if entry.isPinned then .idle else .removeResolving entry)
  | .removeResolving entry =>
    match answer.admission, answer.resolved with
    -- With the locks, `remove` starts again.
    | .again, _ => (s, .removeReading entry.gameId)
    | .refused, _ | _, .error _ => (s, .idle)
    | .granted, .ok resolved => (s, .removeStaging entry resolved)
  | .removeStaging entry resolved =>
    let discarded := service.discardUnfinished s entry resolved
    match discarded.result with
    | .error _ => (discarded.state, .idle)
    | .ok () => (discarded.state, .deleteListing .remove entry)
  | .deleteListing deleter entry =>
    match service.games entry.gameId, s.listMembers entry.gameId with
    | some game, member :: members => (s, .deleteFiles deleter entry game (member :: members))
    | _, _ =>
      ({ s with tree := service.deletePath s.tree entry.cachePath }, .deleteRow deleter entry)
  | .deleteFiles deleter entry _ [] => (s, .deleteRow deleter entry)
  | .deleteFiles deleter entry game (member :: rest) =>
    if s.ownerCount member.relativePath > 1 then (s, .deleteFiles deleter entry game rest)
    else
      match service.cachedMemberPath s.tree entry game member with
      | .error _ => (s, .idle)
      | .ok path =>
        ({ s with tree := service.deletePath s.tree path }, .deleteFiles deleter entry game rest)
  | .deleteRow deleter entry => (s.delete entry.gameId, deleter.next)

end CacheService

/-- A process begins an operation, or goes on with the one that it is in. -/
inductive Step
  | call (p : ℕ) (operation : Operation)
  | advance (p : ℕ) (answer : Answer)

/-- The processes over their rows, from any rows and files. -/
def sharedCache (service : CacheService) : Machine Shared Step where
  init s := ∀ p, s.procs p = .idle
  step
    | s, .call p operation =>
      match s.procs p with
      | .idle => some { s with procs := Function.update s.procs p operation.start }
      | _ => none
    | s, .advance p answer =>
      let (cache, proc) := service.advance s.cache answer (s.procs p)
      some ⟨cache, Function.update s.procs p proc⟩

/-! ### What the statements leave in a row -/

namespace CacheState

variable {s : CacheState} {gameId id : String}

theorem get?_saveEntry (entry : CacheEntry) :
    (s.saveEntry entry).entries.get? id = if id = entry.gameId then
      some { entry with
        membershipResolved :=
          ((s.entries.get? entry.gameId).map CacheEntry.membershipResolved).getD false }
    else s.entries.get? id := Table.get?_put ..

theorem get?_updateEntry (change : CacheEntry → CacheEntry) :
    (s.updateEntry gameId change).entries.get? id = if id = gameId then
      (s.entries.get? gameId).map fun entry => { change entry with gameId := gameId }
    else s.entries.get? id := by
  cases hget : s.entries.get? gameId with
  | none =>
    simp only [updateEntry, hget]
    split
    · next hid => rw [hid, hget]; rfl
    · rfl
  | some entry =>
    simp only [updateEntry, hget]
    exact Table.get?_put ..

/-- An update that leaves the pin leaves the pinned rows pinned. -/
theorem pinned_updateEntry {change : CacheEntry → CacheEntry}
    (hchange : ∀ entry, (change entry).isPinned = entry.isPinned)
    (h : ∃ row, s.entries.get? id = some row ∧ row.isPinned = true) :
    ∃ row, (s.updateEntry gameId change).entries.get? id = some row ∧ row.isPinned = true := by
  obtain ⟨row, hget, hpinned⟩ := h
  rw [get?_updateEntry]
  by_cases hid : id = gameId
  · subst hid
    rw [if_pos rfl, hget]
    exact ⟨_, rfl, (hchange row).trans hpinned⟩
  · rw [if_neg hid]
    exact ⟨row, hget, hpinned⟩

end CacheState

section Discard

variable {service : CacheService} {s : CacheState}

theorem entries_discardAsset (system : String) (asset : GameAsset) :
    (service.discardAsset s system asset).state.entries = s.entries := by
  unfold CacheService.discardAsset
  repeat' split
  all_goals rfl

theorem entries_discardStaging (system : String) (preserve : List String)
    (assets : List GameAsset) :
    (service.discardStaging s system preserve assets).state.entries = s.entries := by
  induction assets generalizing s with
  | nil => rfl
  | cons asset rest ih =>
    unfold CacheService.discardStaging
    split
    · exact ih
    · rcases Outcome.andThen_eq_or (service.discardAsset s system asset)
        (fun t => service.discardStaging t system preserve rest) with heq | heq
      · rw [heq]
        exact entries_discardAsset system asset
      · rw [heq, ih]
        exact entries_discardAsset system asset

/-- Discarding what is staged leaves the rows. -/
theorem entries_discardUnfinished (service : CacheService) (s : CacheState) (entry : CacheEntry) (resolved : Option Game) :
    (service.discardUnfinished s entry resolved).state.entries = s.entries := by
  unfold CacheService.discardUnfinished
  cases resolved with
  | none => rfl
  | some resolved =>
    dsimp only
    split
    · rfl
    · exact entries_discardStaging ..

end Discard

end RomCloud.Cache
