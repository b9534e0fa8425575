import RomCloud.Cache.SharedRows

namespace RomCloud.Cache

open RomCloud.Lib

/-!
# Pins among several processes

A pin lives in the row that a first transfer inserts over what is there, and that `evict`, `remove`
and `unpin` write after they have read it, in a transaction of its own. `evict` reads the row again
before it deletes, so that only what another process writes after this second read is lost.

* `PinHistory`, `pinnedCache` — the pins in force, and the rows at which `evict` has deleted;
* `Protected` — a pin in force has its pinned row, and `evict` deletes complete rows without a pin;
* `Undisturbed` — an operation writes over what it has read;
* `Kept`, `kept_step` — what the runs keep whose steps are all undisturbed.
-/

/-- What the callers may rely on. -/
structure PinHistory where
  /-- `pin` has returned, and no `unpin` has begun since. -/
  inForce : String → Bool
  /-- The row of an entry, each time that `evict` has deleted a file of it, or the row. -/
  evictions : List (Option CacheEntry)

/-- The entry of which the step deletes a file or the row, and who does. -/
def erases (service : CacheService) (s : CacheState) : Proc → Option (Deleter × CacheEntry)
  | .deleteListing deleter entry =>
    if service.games entry.gameId ≠ none ∧ s.listMembers entry.gameId ≠ [] then none
    else some (deleter, entry)
  | .deleteFiles deleter entry game (member :: _) =>
    if s.ownerCount member.relativePath > 1 then none
    else
      match service.cachedMemberPath s.tree entry game member with
      | .error _ => none
      | .ok _ => some (deleter, entry)
  | .deleteRow deleter entry => some (deleter, entry)
  | _ => none

/-- The entry that an eviction deletes of. -/
def evicts (service : CacheService) (s : CacheState) (proc : Proc) : Option CacheEntry :=
  match erases service s proc with
  | some (.evict .., entry) => some entry
  | _ => none

/-- The game that a step pins, as the last thing that it does. -/
def Proc.pins : Proc → Option String
  | .pinSaving entry => some entry.gameId
  | .pinSetting gameId => some gameId
  | _ => none

namespace PinHistory

def first : PinHistory := ⟨fun _ => false, []⟩

def after (service : CacheService) (h : PinHistory) (s : Shared) : Step → PinHistory
  | .call _ (.unpin gameId) => { h with inForce := Function.update h.inForce gameId false }
  | .call _ _ => h
  | .advance p _ =>
    let proc := s.procs p
    { inForce := match proc.pins with
        | some gameId => Function.update h.inForce gameId true
        | none => h.inForce
      evictions := match evicts service s.cache proc with
        | some entry => s.cache.entries.get? entry.gameId :: h.evictions
        | none => h.evictions }

end PinHistory

/-- The processes, with the history of their pins and evictions. -/
def pinnedCache (service : CacheService) : Machine (Shared × PinHistory) Step :=
  (sharedCache service).watch .first (PinHistory.after service)

/-- A pin in force has its row, and no eviction has deleted at a row that is pinned or not
complete. -/
structure Protected (q : Shared × PinHistory) : Prop where
  pinned : ∀ gameId, q.2.inForce gameId = true →
    ∃ row, q.1.cache.entries.get? gameId = some row ∧ row.isPinned = true
  evicted : ∀ row, some row ∈ q.2.evictions → row.isEvictable = true

/-- What the step of a process finds is what it has read: the row that `pin` updates is there; the
row that a first transfer inserts is not there, or is without a pin; the row that `evict` or
`remove` deletes is as it was, or gone. And no `pin` has returned since the `unpin` began that
writes. -/
def undisturbed (service : CacheService) (q : Shared × PinHistory) : Proc → Bool
  | .pinSetting gameId => (q.1.cache.entries.get? gameId).isSome
  | .cacheWriting gameId none => (q.1.cache.entries.get? gameId).all fun row => !row.isPinned
  | .unpinDeleting gameId | .unpinSetting gameId => !q.2.inForce gameId
  | .deleteRow .remove entry =>
    (q.1.cache.entries.get? entry.gameId).all fun row => row.isPinned = entry.isPinned
  | proc =>
    (evicts service q.1.cache proc).all fun entry =>
      (q.1.cache.entries.get? entry.gameId).all fun row =>
        row.status = entry.status ∧ row.isPinned = entry.isPinned

/-- Each operation writes over what it has read. -/
def Undisturbed (service : CacheService) (q : Shared × PinHistory) : Step → Prop
  | .call .. => True
  | .advance p _ => undisturbed service q (q.1.procs p) = true

instance (service : CacheService) (q : Shared × PinHistory) (step : Step) :
    Decidable (Undisturbed service q step) := by
  unfold Undisturbed
  split <;> infer_instance

/-! ### What an operation has checked -/

/-- What an operation has made sure of where it stands. -/
def Proc.Checked : Proc → Prop
  | .pinSaving entry => entry.isPinned = true
  | .evictLocking _ entry _ => entry.isEvictable = true
  | .removeResolving entry | .removeStaging entry _ => entry.isPinned = false
  | .deleteListing (.evict ..) entry | .deleteFiles (.evict ..) entry _ _
  | .deleteRow (.evict ..) entry => entry.isEvictable = true
  | .deleteListing .remove entry | .deleteFiles .remove entry _ _ | .deleteRow .remove entry =>
    entry.isPinned = false
  | _ => True

section Advance

variable {service : CacheService} {s : CacheState} {answer : Answer} {proc : Proc}

theorem isPinned_undownloadedPin {gameId now : String} {entry : CacheEntry}
    (h : service.undownloadedPin gameId now = .ok entry) : entry.isPinned = true := by
  unfold CacheService.undownloadedPin at h
  split at h
  · cases h
  · obtain ⟨-, -, hrest⟩ := bind_eq_ok h
    split at hrest
    · cases hrest
    · obtain ⟨path, -, hentry⟩ := bind_eq_ok hrest
      cases hentry
      rfl

theorem checked_andThen (progress : Progress) (gameId : String) {next : Proc}
    (h : next.Checked) : (progress.andThen gameId next).Checked := by
  cases progress <;> first | exact h | trivial

/-- Each operation goes on with what it has made sure of. -/
theorem checked_advance (h : proc.Checked) : (service.advance s answer proc).2.Checked := by
  cases proc with
  | pinReading gameId =>
    simp only [CacheService.advance]
    split
    · trivial
    · split
      · trivial
      · next hentry => exact isPinned_undownloadedPin hentry
  | cacheResolving gameId existing =>
    simp only [CacheService.advance]
    split
    · trivial
    · trivial
    · exact checked_andThen _ _ trivial
  | transferring gameId => exact checked_andThen _ _ trivial
  | cacheWriting gameId existing => cases existing <;> trivial
  | evictNext protectedIds rest =>
    cases rest <;> simp only [CacheService.advance]
    · trivial
    · split
      · trivial
      · split <;> trivial
  | evictReading protectedIds gameId rest =>
    simp only [CacheService.advance]
    split
    · trivial
    · split
      · assumption
      · trivial
  | evictLocking protectedIds entry rest =>
    simp only [CacheService.advance]
    split
    · trivial
    · split
      · trivial
      · exact h
  | removeReading gameId =>
    simp only [CacheService.advance]
    split
    · trivial
    · next entry _ =>
      cases hpinned : entry.isPinned with
      | true => trivial
      | false => exact hpinned
  | removeResolving entry =>
    simp only [CacheService.advance]
    split
    · trivial
    · trivial
    · trivial
    · exact h
  | removeStaging entry resolved =>
    simp only [CacheService.advance]
    split
    · trivial
    · exact h
  | deleteListing deleter entry =>
    simp only [CacheService.advance]
    split <;> cases deleter <;> exact h
  | deleteFiles deleter entry game members =>
    cases members <;> simp only [CacheService.advance]
    · cases deleter <;> exact h
    · split
      · cases deleter <;> exact h
      · split
        · trivial
        · cases deleter <;> exact h
  | deleteRow deleter entry => cases deleter <;> trivial
  | _ =>
    simp only [CacheService.advance]
    (try split) <;> (try split) <;> trivial

/-- The row of the game is there, with its pin. -/
def Pinned (s : CacheState) (gameId : String) : Prop :=
  ∃ row, s.entries.get? gameId = some row ∧ row.isPinned = true

theorem Pinned.delete {gameId id : String} (h : Pinned s gameId) (hid : gameId ≠ id) :
    Pinned (s.delete id) gameId := by
  obtain ⟨row, hget, hpin⟩ := h
  exact ⟨row, by rw [CacheState.get?_entries_delete, if_neg hid, hget], hpin⟩

/-- A step that finds the row without a pin is about another game. -/
theorem Pinned.ne {gameId id : String} (h : Pinned s gameId)
    (hfree : ∀ row, s.entries.get? id = some row → row.isPinned = false) : gameId ≠ id := by
  rintro rfl
  obtain ⟨row, hget, hpin⟩ := h
  rw [hfree row hget] at hpin
  cases hpin

theorem isPinned_of_isEvictable {entry : CacheEntry} (h : entry.isEvictable = true) :
    entry.isPinned = false := by
  simp only [CacheEntry.isEvictable, Bool.and_eq_true, Bool.not_eq_true'] at h
  exact h.2

/-- Where an eviction deletes, it has made sure of the entry, and is to find its row as it was. -/
theorem evicts_cases {history : PinHistory} {procs : ℕ → Proc} {entry : CacheEntry}
    (hchecked : proc.Checked)
    (hundisturbed : undisturbed service (⟨s, procs⟩, history) proc = true)
    (hevicts : evicts service s proc = some entry) :
    entry.isEvictable = true ∧ ∀ row, s.entries.get? entry.gameId = some row →
      row.status = entry.status ∧ row.isPinned = entry.isPinned := by
  have herases : ∃ protectedIds rest,
      erases service s proc = some (.evict protectedIds rest, entry) := by
    unfold evicts at hevicts
    split at hevicts
    · next protectedIds rest found heq =>
      cases hevicts
      exact ⟨protectedIds, rest, heq⟩
    · cases hevicts
  obtain ⟨protectedIds, rest, herases⟩ := herases
  have hrow : ∀ row, s.entries.get? entry.gameId = some row → undisturbed service
      (⟨s, procs⟩, history) proc = (evicts service s proc).all (fun entry =>
        (s.entries.get? entry.gameId).all fun row =>
          row.status = entry.status ∧ row.isPinned = entry.isPinned) →
      row.status = entry.status ∧ row.isPinned = entry.isPinned := by
    intro row hget hsame
    rw [hsame, hevicts] at hundisturbed
    simpa [hget] using hundisturbed
  cases proc with
  | deleteListing deleter found =>
    simp only [erases] at herases
    split at herases
    · cases herases
    · cases herases
      exact ⟨hchecked, fun row hget => hrow row hget rfl⟩
  | deleteFiles deleter found game members =>
    cases members with
    | nil => cases herases
    | cons member members =>
      simp only [erases] at herases
      split at herases
      · cases herases
      · split at herases
        · cases herases
        · cases herases
          exact ⟨hchecked, fun row hget => hrow row hget rfl⟩
  | deleteRow deleter found =>
    cases herases
    exact ⟨hchecked, fun row hget => hrow row hget rfl⟩
  | _ => cases herases

/-- The row that an eviction deletes at is evictable, as it was when it was read. -/
theorem isEvictable_of_undisturbed {history : PinHistory} {procs : ℕ → Proc}
    {entry row : CacheEntry} (hchecked : proc.Checked)
    (hundisturbed : undisturbed service (⟨s, procs⟩, history) proc = true)
    (hevicts : evicts service s proc = some entry)
    (hget : s.entries.get? entry.gameId = some row) : row.isEvictable = true := by
  obtain ⟨hentry, hrow⟩ := evicts_cases hchecked hundisturbed hevicts
  obtain ⟨hstatus, hpin⟩ := hrow row hget
  rw [CacheEntry.isEvictable, hstatus, hpin]
  exact hentry

/-- **One step and the pins.** A pin in force keeps its row. -/
theorem pinned_advance {history : PinHistory} {procs : ℕ → Proc} (hchecked : proc.Checked)
    (hundisturbed : undisturbed service (⟨s, procs⟩, history) proc = true)
    {gameId : String} (hforce : history.inForce gameId = true) (h : Pinned s gameId) :
    Pinned (service.advance s answer proc).1 gameId := by
  cases proc with
  | pinReading id =>
    simp only [CacheService.advance]
    (try split) <;> (try split) <;> exact h
  | pinSaving entry =>
    obtain ⟨row, hget, hpin⟩ := h
    show ∃ row, (s.saveEntry entry).entries.get? gameId = some row ∧ row.isPinned = true
    rw [CacheState.get?_saveEntry]
    split
    · exact ⟨_, rfl, hchecked⟩
    · exact ⟨row, hget, hpin⟩
  | pinSetting id =>
    obtain ⟨row, hget, hpin⟩ := h
    show ∃ row, (s.updatePinned id true).entries.get? gameId = some row ∧ row.isPinned = true
    rw [CacheState.updatePinned, CacheState.get?_updateEntry]
    split
    · next hid =>
      rw [← hid, hget]
      exact ⟨_, rfl, rfl⟩
    · exact ⟨row, hget, hpin⟩
  | unpinDeleting id =>
    -- The pin of this game is not in force.
    refine h.delete ?_
    rintro rfl
    simp [undisturbed, hforce] at hundisturbed
  | unpinSetting id =>
    have hid : gameId ≠ id := by
      rintro rfl
      simp [undisturbed, hforce] at hundisturbed
    obtain ⟨row, hget, hpin⟩ := h
    refine ⟨row, ?_, hpin⟩
    show (s.updatePinned id false).entries.get? gameId = some row
    rw [CacheState.updatePinned, CacheState.get?_updateEntry, if_neg hid, hget]
  | touching id => exact CacheState.pinned_updateEntry (fun _ => rfl) h
  | cacheWriting id existing =>
    cases existing with
    | some _ => exact CacheState.pinned_updateEntry (fun _ => rfl) h
    | none =>
      have hid : gameId ≠ id := h.ne fun row hget => by
        simpa [undisturbed, hget] using hundisturbed
      obtain ⟨row, hget, hpin⟩ := h
      refine ⟨row, ?_, hpin⟩
      show (s.saveEntry (.create id answer.cachePath answer.now)).entries.get? gameId = some row
      rw [CacheState.get?_saveEntry]
      exact (if_neg hid).trans hget
  | cacheListing id =>
    simp only [CacheService.advance, CacheState.replaceMembership]
    by_cases hnone : s.entries.get? id = none
    · simp only [hnone, if_true]
      exact h
    · simp only [hnone, if_false]
      exact CacheState.pinned_updateEntry (fun _ => rfl) h
  | finalizing id => exact CacheState.pinned_updateEntry (fun _ => rfl) h
  | failing id status => exact CacheState.pinned_updateEntry (fun _ => rfl) h
  | removeStaging entry resolved =>
    have hentries := entries_discardUnfinished service s entry resolved
    have hkept : Pinned (service.discardUnfinished s entry resolved).state gameId := by
      rw [Pinned, hentries]
      exact h
    simp only [CacheService.advance]
    split <;> exact hkept
  | deleteRow deleter entry =>
    refine h.delete (h.ne fun row hget => ?_)
    cases deleter with
    | remove =>
      have hsame : row.isPinned = entry.isPinned := by
        simpa [undisturbed, hget] using hundisturbed
      exact hsame.trans hchecked
    | evict protectedIds rest =>
      exact isPinned_of_isEvictable
        (isEvictable_of_undisturbed hchecked hundisturbed rfl hget)
  | deleteFiles deleter entry game members =>
    cases members <;> simp only [CacheService.advance]
    · exact h
    · (try split) <;> (try split) <;> exact h
  | evictNext protectedIds rest =>
    cases rest <;> simp only [CacheService.advance]
    · exact h
    · (try split) <;> (try split) <;> exact h
  | _ =>
    simp only [CacheService.advance]
    (try split) <;> (try split) <;> exact h

end Advance

/-! ### The runs -/

section Run

variable {service : CacheService} {q q' : Shared × PinHistory} {step : Step}

/-- A pin that returns leaves a pinned row, as it has found one or inserts it. -/
theorem pinned_of_pins {s : CacheState} {answer : Answer} {proc : Proc} {gameId : String}
    {history : PinHistory} {procs : ℕ → Proc} (hchecked : proc.Checked)
    (hundisturbed : undisturbed service (⟨s, procs⟩, history) proc = true)
    (hpins : proc.pins = some gameId) : Pinned (service.advance s answer proc).1 gameId := by
  cases proc with
  | pinSaving entry =>
    cases hpins
    show ∃ row, (s.saveEntry entry).entries.get? entry.gameId = some row ∧ row.isPinned = true
    rw [CacheState.get?_saveEntry, if_pos rfl]
    exact ⟨_, rfl, hchecked⟩
  | pinSetting id =>
    cases hpins
    obtain ⟨row, hget⟩ := Option.isSome_iff_exists.mp hundisturbed
    show ∃ row, (s.updatePinned gameId true).entries.get? gameId = some row ∧ row.isPinned = true
    rw [CacheState.updatePinned, CacheState.get?_updateEntry, if_pos rfl]
    rw [show s.entries.get? gameId = some row from hget]
    exact ⟨_, rfl, rfl⟩
  | _ => cases hpins

/-- What a run keeps whose steps are undisturbed. -/
structure Kept (q : Shared × PinHistory) : Prop extends Protected q where
  checked : ∀ p, (q.1.procs p).Checked

theorem kept_step (h : Kept q) (hundisturbed : Undisturbed service q step)
    (hstep : (pinnedCache service).step q step = some q') : Kept q' := by
  obtain ⟨⟨s, procs⟩, history⟩ := q
  obtain ⟨shared', history'⟩ := q'
  obtain ⟨hmove, rfl⟩ := (Machine.watch_step_eq_some_iff _ _ _).mp hstep
  cases step with
  | call p operation =>
    have hidle : shared' = ⟨s, Function.update procs p operation.start⟩ := by
      simp only [sharedCache] at hmove
      split at hmove
      · exact (Option.some.inj hmove).symm
      · cases hmove
    subst hidle
    have hhistory : ∀ gameId, (PinHistory.after service history ⟨s, procs⟩
        (.call p operation)).inForce gameId = true → history.inForce gameId = true := by
      intro gameId hforce
      cases operation with
      | unpin id =>
        simp only [PinHistory.after, Function.update_apply] at hforce
        split at hforce
        · cases hforce
        · exact hforce
      | _ => exact hforce
    refine ⟨⟨fun gameId hforce => h.pinned gameId (hhistory gameId hforce), ?_⟩, ?_⟩
    · cases operation <;> exact h.evicted
    · intro p'
      show (Function.update procs p operation.start p').Checked
      rw [Function.update_apply]
      split
      · cases operation <;> trivial
      · exact h.checked p'
  | advance p answer =>
    cases hmove
    have hchecked := h.checked p
    refine ⟨⟨?_, ?_⟩, ?_⟩
    · intro gameId hforce
      show Pinned (service.advance s answer (procs p)).1 gameId
      by_cases hpins : (procs p).pins = some gameId
      · exact pinned_of_pins hchecked hundisturbed hpins
      · have hbefore : history.inForce gameId = true := by
          cases hid : (procs p).pins with
          | none => simpa only [PinHistory.after, hid] using hforce
          | some id =>
            have hne : gameId ≠ id := fun heq => hpins (heq ▸ hid)
            simpa only [PinHistory.after, hid, Function.update_of_ne hne] using hforce
        exact pinned_advance hchecked hundisturbed hbefore (h.pinned gameId hbefore)
    · intro row hmem
      simp only [PinHistory.after] at hmem
      split at hmem
      · next entry hevicts =>
        rcases List.mem_cons.mp hmem with hnew | hold
        · exact isEvictable_of_undisturbed hchecked hundisturbed hevicts hnew.symm
        · exact h.evicted row hold
      · exact h.evicted row hmem
    · intro p'
      show (Function.update procs p (service.advance s answer (procs p)).2 p').Checked
      rw [Function.update_apply]
      split
      · exact checked_advance hchecked
      · exact h.checked p'

end Run

/-! ### A pin that is lost -/

/-- One game of the catalog, and no storage coordinator. -/
def cartridgeService : CacheService where
  cacheRoot := ["cache"]
  games := fun id =>
    if id = "kirby" then some ⟨id, "gb", "Kirby", [⟨"kirby.gb", "gb/kirby.gb", some 9, true⟩], true⟩
    else none
  dependencies := none
  coordinated := false
  locked := fun _ => false
  maxSizeBytes := 9
  minFreeBytes := 0
  freeBytes := fun _ => 0
  fitsCurrent := fun _ _ => false

/-- The rows of no game. -/
def noRows : CacheState := ⟨∅, ∅, ∅, [], []⟩

/-- The game is cached, completely and without a pin. -/
def cartridgeCached : CacheState :=
  { noRows with
    entries := Table.put ∅
      ⟨"kirby", ["cache", "gb", "kirby.gb"], .complete, "noon", 9, false, true⟩
    members := Table.put ∅ ⟨"kirby", "gb/kirby.gb", some 9, 9, true⟩
    tree := (∅ : DirTree).insert ["cache", "gb", "kirby.gb"] (.file 9) }

/-- Nothing is cached yet, the disk is full, and no other process has a lock. -/
def plainAnswer : Answer where
  now := "noon"
  cached := false
  admission := .granted
  cachePath := ["cache", "gb", "kirby.gb"]
  members := [⟨"kirby", "gb/kirby.gb", some 9, 0, true⟩]
  progress := .goesOn
  tree := ∅
  sizes := [("gb/kirby.gb", 9)]
  enough := false
  locked := false
  resolved := .ok none

/-- A process takes some steps. -/
def steps (p n : ℕ) : List Step := List.replicate n (.advance p plainAnswer)

theorem reach_start {service : CacheService} {allowed : Shared × PinHistory → Step → Prop}
    (cache : CacheState) :
    (pinnedCache service).Reach allowed (⟨cache, fun _ => .idle⟩, .first) :=
  .init ⟨fun _ => rfl, rfl⟩

/-- A game is pinned, evicted when the pin is gone, and pinned again. -/
def orderlyRun : List Step :=
  [.call 1 (.pin "kirby")] ++ steps 1 2 ++ [.call 1 (.unpin "kirby")] ++ steps 1 2
    ++ [.call 0 (.evict [])] ++ steps 0 8 ++ [.call 1 (.pin "kirby")] ++ steps 1 2

/-- `evict` reads the row again, `pin` returns, and `evict` deletes. -/
def evictedPinRun : List Step :=
  [.call 0 (.evict [])] ++ steps 0 3 ++ [.call 1 (.pin "kirby")] ++ steps 1 2 ++ steps 0 5

/-- A first transfer finds no row, `pin` inserts one and returns, and the transfer inserts over
it. -/
def overwrittenPinRun : List Step :=
  [.call 0 (.cacheGame "kirby")] ++ steps 0 3 ++ [.call 1 (.pin "kirby")] ++ steps 1 2 ++ steps 0 1

end RomCloud.Cache
