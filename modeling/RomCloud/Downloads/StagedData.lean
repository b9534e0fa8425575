import RomCloud.Cache.CacheState
import RomCloud.Downloads.Queue

namespace RomCloud.Downloads

open RomCloud.Lib RomCloud.Cache

/-!
# Staged data and protected downloads

`discard_partial` and `cleanup_stale_partials` take staged data away.  Both ask which downloads are
protected, each in its own way.

* `isProtected`, `discardPartial` — the one, by the owners that are stored;
* `Protection`, `collect`, `cleanupStalePartials` — the other, also by the catalog;
* `Needs` — the data that a download needs;
* `respectsProtection_iff` — when neither takes data that a protected download needs, and both look
  at protection in the same way.
-/

/-- A row of `cache_staging_assets`; times are seconds. -/
structure StagingAsset where
  relativePath : String
  system : String
  updatedAt : ℤ
deriving DecidableEq

/-- What the two operations read. -/
structure StagingState where
  items : Items
  updatedAt : ItemId → ℤ
  games : GameId → Option Game
  members : Table CacheMember CacheMember.key
  staged : Table StagingAsset StagingAsset.relativePath
  /-- `stats_for_game(…)["retained_bytes"]`, of the staging rows that are left. -/
  retainedBytes : Table StagingAsset StagingAsset.relativePath → GameId → ℕ

/-- What `discard_staging_asset` comes to: the data is gone, a writer holds the lock of the asset
    (`LockUnavailable`, a `RuntimeError`), or another exception leaves some of the data behind. -/
inductive DiscardOutcome
  | gone
  | busy
  | broken
deriving DecidableEq

def day : ℤ := 86400

/-- `INTERRUPTED_RETENTION`. -/
def interruptedRetention : ℤ := 30 * day

/-- `FAILED_RETENTION`. -/
def failedRetention : ℤ := 30 * day

/-- `CANCELLED_RETENTION`. -/
def cancelledRetention : ℤ := 7 * day

/-- The retention of a state, if it has one. -/
def retention : DownloadState → Option ℤ
  | .interrupted => some interruptedRetention
  | .failed => some failedRetention
  | .cancelled => some cancelledRetention
  | _ => none

section Operations

variable (s : StagingState) (outcome : StagingAsset → DiscardOutcome) (now : ℤ)

/-- `owner_game_ids`. -/
def ownerGameIds (relativePath : String) : List GameId :=
  (s.members.toList.filter (·.relativePath = relativePath)).map CacheMember.gameId

/-- One `discard_staging_asset` after the other.  The data that was touched, the rows that are left,
    and whether an exception ended it; `skipBusy` goes on behind a locked asset. -/
def discardEach (skipBusy : Bool) : List StagingAsset →
    Table StagingAsset StagingAsset.relativePath →
    List StagingAsset × Table StagingAsset StagingAsset.relativePath × Bool
  | [], staged => ([], staged, false)
  | asset :: rest, staged =>
    match outcome asset with
    | .gone =>
      let (touched, left, failed) :=
        discardEach skipBusy rest (staged.keep (· ≠ asset.relativePath))
      (asset :: touched, left, failed)
    | .busy => if skipBusy then discardEach skipBusy rest staged else ([], staged, true)
    | .broken => ([asset], staged, true)

/-- `_is_protected`. -/
def isProtected (item : DownloadItem) : Bool :=
  if item.state ∈ [.queued, .running, .verifying, .paused] then true
  else match retention item.state with
    | none => false
    | some maximum => now - s.updatedAt item.id < maximum

/-- The other protected downloads. -/
def protectedOthers (item : DownloadItem) : List DownloadItem :=
  s.items.toList.filter fun other =>
    other.id ≠ item.id && other.gameId.isSome && isProtected s now other

/-- `(owners - {item.game_id}) & protected_games`. -/
def ownedByOthers (item : DownloadItem) (gameId : GameId) (asset : StagingAsset) : Bool :=
  (ownerGameIds s asset.relativePath).any fun owner => owner ≠ gameId
    && ((protectedOthers s now item).filterMap DownloadItem.gameId).contains owner

/-- The assets of a game: those that it owns, and those of the catalog. -/
def ofGame (gameId : GameId) (asset : StagingAsset) : Bool :=
  (ownerGameIds s asset.relativePath).contains gameId
    || (s.games gameId).any fun game =>
      (game.assets.map GameAsset.relativePath).contains asset.relativePath

/-- The assets that `discard_partial` takes, for a download of a game. -/
def discardCandidates (item : DownloadItem) (gameId : GameId) : List StagingAsset :=
  s.staged.toList.filter fun asset =>
    ofGame s gameId asset && !ownedByOthers s now item gameId asset

/-- What an operation leaves: the data that was touched, the new state, and whether it raised. -/
structure Discarded where
  touched : List StagingAsset
  state : StagingState
  failed : Bool

/-- `discard_partial`. -/
def discardPartial (itemId : ItemId) : Except String Discarded :=
  match s.items.get? itemId with
  | none => .error "Download item not found."
  | some item =>
    if item.state ∉ [.paused, .interrupted, .failed, .cancelled] then
      .error "Partial data cannot be discarded in this state."
    else match item.gameId with
    | none =>
      .ok ⟨[], { s with items := s.items.updateProgress item.id 0 item.bytesTotal }, false⟩
    | some gameId =>
      if (protectedOthers s now item).any (·.gameId = some gameId) then
        .error "Retained data belongs to a newer active/protected download for this game."
      else
        let (touched, staged, failed) :=
          discardEach outcome false (discardCandidates s now item gameId) s.staged
        let items := if failed then s.items
          else s.items.updateProgress item.id (s.retainedBytes staged gameId) item.bytesTotal
        .ok ⟨touched, { s with items := items, staged := staged }, failed⟩

/-- What `cleanup_stale_partials` collects of the downloads. -/
structure Protection where
  games : List GameId
  paths : List String
  systems : List String
  expired : GameId → Option ℤ

/-- `Path(primary.filename).suffix.lower() in DESCRIPTOR_EXTENSIONS`. -/
def hasDescriptor (game : Game) : Bool :=
  game.primaryAsset.any fun primary => descriptorExtensions.contains (lowerSuffix primary.filename)

/-- One turn of the loop over the downloads. -/
def collectItem (p : Protection) (item : DownloadItem) : Protection :=
  match item.gameId with
  | none => p
  | some gameId =>
    if item.state = .complete then p
    else
      let maximum := retention item.state
      if maximum.all fun maximum => now - s.updatedAt item.id < maximum then
        match s.games gameId with
        | none => { p with games := gameId :: p.games }
        | some game =>
          { p with
            games := gameId :: p.games
            paths := game.assets.map GameAsset.relativePath ++ p.paths
            systems := if item.state = .queued ∧ hasDescriptor game then game.system :: p.systems
              else p.systems }
      else
        { p with expired := fun id =>
            if id = gameId then some (max ((p.expired gameId).getD 0) (maximum.getD 0))
            else p.expired id }

def collect (items : List DownloadItem) : Protection :=
  items.foldl (collectItem s now) ⟨[], [], [], fun _ => none⟩

/-- The protection of an asset, in `cleanup_stale_partials`. -/
def Protection.covers (p : Protection) (asset : StagingAsset) : Bool :=
  p.paths.contains asset.relativePath
    || (ownerGameIds s asset.relativePath).any p.games.contains
    || p.systems.contains asset.system

/-- The age that an asset must have. -/
def Protection.requiredAge (p : Protection) (asset : StagingAsset) : ℤ :=
  (((ownerGameIds s asset.relativePath).map fun owner =>
    (p.expired owner).getD interruptedRetention).max?).getD interruptedRetention

/-- The assets that `cleanup_stale_partials` takes. -/
def staleAssets : List StagingAsset :=
  let p := collect s now s.items.toList
  s.staged.toList.filter fun asset =>
    !p.covers s asset && !decide (now - asset.updatedAt < p.requiredAge s asset)

/-- `cleanup_stale_partials`. -/
def cleanupStalePartials : Discarded :=
  let (touched, staged, failed) := discardEach outcome true (staleAssets s now) s.staged
  ⟨touched, { s with staged := staged }, failed⟩

end Operations

/-! ### What is taken -/

section Taken

variable {outcome : StagingAsset → DiscardOutcome} {skipBusy : Bool} {asset : StagingAsset}

theorem mem_of_touched {assets : List StagingAsset}
    {staged : Table StagingAsset StagingAsset.relativePath}
    (h : asset ∈ (discardEach outcome skipBusy assets staged).1) : asset ∈ assets := by
  induction assets generalizing staged with
  | nil => exact h
  | cons first rest ih =>
    rw [discardEach] at h
    split at h
    · rcases List.mem_cons.mp h with rfl | h
      · exact List.mem_cons_self
      · exact List.mem_cons_of_mem _ (ih h)
    · split at h
      · exact List.mem_cons_of_mem _ (ih h)
      · cases h
    · obtain rfl := List.mem_singleton.mp h
      exact List.mem_cons_self

/-- Where nothing is locked and nothing fails, everything is taken. -/
theorem touched_of_gone (assets : List StagingAsset)
    (staged : Table StagingAsset StagingAsset.relativePath) :
    (discardEach (fun _ => .gone) skipBusy assets staged).1 = assets := by
  induction assets generalizing staged with
  | nil => rfl
  | cons first rest ih =>
    rw [discardEach]
    exact congrArg (first :: ·) (ih _)

end Taken

/-! ### What is protected -/

section Protected

variable {s : StagingState} {now : ℤ} {item d : DownloadItem} {asset : StagingAsset}

/-- The game of a download owns an asset: it is one of the members that are stored. -/
def Owns (s : StagingState) (d : DownloadItem) (asset : StagingAsset) : Prop :=
  ∃ gameId, d.gameId = some gameId ∧ gameId ∈ ownerGameIds s asset.relativePath

/-- The catalog has an asset for a download: its game lists it, or the download is queued, its game
    is a descriptor, and the asset is of its system. -/
def Lists (s : StagingState) (d : DownloadItem) (asset : StagingAsset) : Prop :=
  ∃ gameId game, d.gameId = some gameId ∧ s.games gameId = some game ∧
    (asset.relativePath ∈ game.assets.map GameAsset.relativePath ∨
      (d.state = .queued ∧ hasDescriptor game = true ∧ asset.system = game.system))

/-- A loop that adds something of each element. -/
theorem foldl_iff {α β : Type*} {f : β → α → β} {holds : β → Prop} {adds : α → Prop}
    (h : ∀ b a, holds (f b a) ↔ holds b ∨ adds a) (as : List α) (b : β) :
    holds (as.foldl f b) ↔ holds b ∨ ∃ a ∈ as, adds a := by
  induction as generalizing b with
  | nil => simp
  | cons a as ih => rw [List.foldl_cons, ih, h, or_assoc, List.exists_mem_cons_iff]

/-- The two ways to ask whether a download is protected agree. -/
theorem isProtected_iff : isProtected s now d = true ↔ d.state ≠ .complete ∧
    (retention d.state).all (fun maximum => now - s.updatedAt d.id < maximum) = true := by
  rw [isProtected]
  cases d.state <;> simp [retention]

theorem covers_iff_mem (p : Protection) : p.covers s asset = true ↔
    asset.relativePath ∈ p.paths ∨ (∃ owner ∈ ownerGameIds s asset.relativePath, owner ∈ p.games) ∨
      asset.system ∈ p.systems := by
  rw [Protection.covers, Bool.or_eq_true, Bool.or_eq_true, List.contains_iff_mem,
    List.contains_iff_mem, List.any_eq_true, or_assoc]
  simp only [List.contains_iff_mem]

/-- What one download adds to the protection. -/
theorem covers_collectItem (p : Protection) : (collectItem s now p d).covers s asset = true ↔
    p.covers s asset = true ∨
      (isProtected s now d = true ∧ (Lists s d asset ∨ Owns s d asset)) := by
  rw [collectItem, isProtected_iff]
  cases hgame : d.gameId with
  | none =>
    have hneither : ¬ (Lists s d asset ∨ Owns s d asset) := by
      simp [Lists, Owns, hgame]
    simp [hneither]
  | some gameId =>
    dsimp only
    have howns : Owns s d asset ↔ gameId ∈ ownerGameIds s asset.relativePath := by
      simp [Owns, hgame]
    have hgames : (∃ owner ∈ ownerGameIds s asset.relativePath, owner ∈ gameId :: p.games) ↔
        (∃ owner ∈ ownerGameIds s asset.relativePath, owner ∈ p.games) ∨ Owns s d asset := by
      simp only [howns, List.mem_cons, and_or_left, exists_or, exists_eq_right, or_comm]
    split_ifs with hcomplete hmaximum
    · simp [hcomplete]
    · have hprotected : d.state ≠ .complete ∧ (retention d.state).all
          (fun maximum => now - s.updatedAt d.id < maximum) = true := ⟨hcomplete, hmaximum⟩
      cases hfound : s.games gameId with
      | none =>
        have hlists : ¬ Lists s d asset := by
          simp [Lists, hgame, hfound]
        rw [covers_iff_mem, covers_iff_mem, and_iff_right hprotected]
        dsimp only
        rw [hgames, or_iff_right hlists]
        simp only [or_comm, or_left_comm]
      | some game =>
        have hlists : Lists s d asset ↔
            asset.relativePath ∈ game.assets.map GameAsset.relativePath ∨
            (d.state = .queued ∧ hasDescriptor game = true ∧ asset.system = game.system) := by
          simp [Lists, hgame, hfound]
        have hsystems : asset.system ∈ (if d.state = .queued ∧ hasDescriptor game = true then
              game.system :: p.systems else p.systems) ↔ asset.system ∈ p.systems ∨
            (d.state = .queued ∧ hasDescriptor game = true ∧ asset.system = game.system) := by
          split_ifs with hqueued
          · simp [hqueued.1, hqueued.2, or_comm]
          · rw [or_iff_left fun h => hqueued ⟨h.1, h.2.1⟩]
        rw [covers_iff_mem, covers_iff_mem, and_iff_right hprotected]
        dsimp only
        rw [hgames, hsystems, List.mem_append, hlists]
        simp only [or_assoc, or_comm, or_left_comm]
    · rw [covers_iff_mem, covers_iff_mem]
      simp [hmaximum]

/-- What the loop protects: the assets that a protected download has in the catalog or owns. -/
theorem covers_iff (items : List DownloadItem) : (collect s now items).covers s asset = true ↔
    ∃ d ∈ items, isProtected s now d = true ∧ (Lists s d asset ∨ Owns s d asset) := by
  have hstep : ∀ (p : Protection) (d : DownloadItem),
      Protection.covers s (collectItem s now p d) asset = true ↔ Protection.covers s p asset = true ∨
        (isProtected s now d = true ∧ (Lists s d asset ∨ Owns s d asset)) :=
    fun p _ => covers_collectItem p
  have h := @foldl_iff DownloadItem Protection (collectItem s now)
    (fun p => Protection.covers s p asset = true) _ hstep items ⟨[], [], [], fun _ => none⟩
  rw [collect, h]
  simp [covers_iff_mem]

end Protected

/-! ### What a download needs -/

/-- The stored members of a game are known. -/
def HasMembers (s : StagingState) (gameId : GameId) : Prop :=
  ∃ member ∈ s.members.toList, member.gameId = gameId

/-- A download of a descriptor game that stored no members may need any asset of its system. -/
def Unresolved (s : StagingState) (d : DownloadItem) (asset : StagingAsset) : Prop :=
  ∃ gameId game, d.gameId = some gameId ∧ s.games gameId = some game ∧ ¬ HasMembers s gameId ∧
    hasDescriptor game = true ∧ asset.system = game.system

/-- What a download needs: the stored members of its game or, if there are none, the assets of the
    catalog, and possibly any asset of the system of a descriptor game. -/
inductive Needs (s : StagingState) (d : DownloadItem) (asset : StagingAsset) : Prop
  | stored (h : Owns s d asset)
  | listed {gameId : GameId} {game : Game} (hgame : d.gameId = some gameId)
      (hnone : ¬ HasMembers s gameId) (hfound : s.games gameId = some game)
      (hasset : asset.relativePath ∈ game.assets.map GameAsset.relativePath)
  | unresolved (h : Unresolved s d asset)

/-- `discard_partial` accepts the download, of this game. -/
def Discardable (s : StagingState) (now : ℤ) (item : DownloadItem) (gameId : GameId) : Prop :=
  s.items.get? item.id = some item ∧ item.state ∈ [.paused, .interrupted, .failed, .cancelled] ∧
    item.gameId = some gameId ∧ ∀ other ∈ protectedOthers s now item, other.gameId ≠ some gameId

/-- The other downloads. -/
def others (s : StagingState) (item : DownloadItem) : List DownloadItem :=
  s.items.toList.filter (·.id ≠ item.id)

/-- Neither operation takes data that a protected download of another game needs, whatever the file
    system answers, and the one protects an asset from a download exactly when the other, asked
    about all other downloads, does. -/
structure RespectsProtection (s : StagingState) (now : ℤ) : Prop where
  discard : ∀ outcome itemId item result, s.items.get? itemId = some item →
    discardPartial s outcome now itemId = .ok result → ∀ asset ∈ result.touched,
    ∀ d ∈ s.items.toList, isProtected s now d = true → d.gameId ≠ item.gameId → ¬ Needs s d asset
  cleanup : ∀ outcome, ∀ asset ∈ (cleanupStalePartials s outcome now).touched,
    ∀ d ∈ s.items.toList, isProtected s now d = true → ¬ Needs s d asset
  same : ∀ item gameId, Discardable s now item gameId → ∀ asset ∈ s.staged.toList,
    ownedByOthers s now item gameId asset = (collect s now (others s item)).covers s asset

/-- When they do: every staged asset that a protected download only has in the catalog, or may need
    as an asset of its system, also belongs to the stored members of a protected download, or is
    not one that is taken. -/
structure Covered (s : StagingState) (now : ℤ) : Prop where
  listed : ∀ item gameId, Discardable s now item gameId → ∀ asset ∈ s.staged.toList,
    ∀ d ∈ protectedOthers s now item, Lists s d asset →
    ∃ e ∈ protectedOthers s now item, Owns s e asset
  unresolved : ∀ item gameId, Discardable s now item gameId → ∀ asset ∈ s.staged.toList,
    ofGame s gameId asset = true → ∀ d ∈ protectedOthers s now item, Unresolved s d asset →
    ∃ e ∈ protectedOthers s now item, Owns s e asset
  stale : ∀ asset ∈ s.staged.toList,
    (collect s now s.items.toList).requiredAge s asset ≤ now - asset.updatedAt →
    ∀ d ∈ s.items.toList, isProtected s now d = true → Unresolved s d asset →
    ∃ e ∈ s.items.toList, isProtected s now e = true ∧ (Lists s e asset ∨ Owns s e asset)

section Operations

variable {s : StagingState} {now : ℤ} {item d : DownloadItem} {gameId : GameId}
  {asset : StagingAsset}

theorem mem_protectedOthers_iff : d ∈ protectedOthers s now item ↔
    d ∈ s.items.toList ∧ d.id ≠ item.id ∧ d.gameId.isSome = true ∧ isProtected s now d = true := by
  simp [protectedOthers, and_assoc]

/-- The owners that `discard_partial` looks at. -/
theorem ownedByOthers_iff (h : Discardable s now item gameId) :
    ownedByOthers s now item gameId asset = true ↔
      ∃ e ∈ protectedOthers s now item, Owns s e asset := by
  rw [ownedByOthers, List.any_eq_true]
  constructor
  · rintro ⟨owner, howner, hprotected⟩
    rw [Bool.and_eq_true, List.contains_iff_mem, List.mem_filterMap] at hprotected
    obtain ⟨-, e, he, hgame⟩ := hprotected
    exact ⟨e, he, owner, hgame, howner⟩
  · rintro ⟨e, he, owner, hgame, howner⟩
    refine ⟨owner, howner, ?_⟩
    rw [Bool.and_eq_true, List.contains_iff_mem, List.mem_filterMap]
    refine ⟨?_, e, he, hgame⟩
    apply decide_eq_true
    rintro rfl
    exact h.2.2.2 e he hgame

/-- The other operation, asked about the other downloads. -/
theorem covers_others_iff : (collect s now (others s item)).covers s asset = true ↔
    ∃ d ∈ protectedOthers s now item, Lists s d asset ∨ Owns s d asset := by
  rw [covers_iff]
  constructor
  · rintro ⟨d, hd, hprotected, h⟩
    obtain ⟨hmem, hid⟩ := List.mem_filter.mp hd
    have hgame : d.gameId.isSome = true := by
      rcases h with ⟨gameId, -, hgame, -⟩ | ⟨gameId, hgame, -⟩ <;> rw [hgame] <;> rfl
    exact ⟨d, mem_protectedOthers_iff.mpr ⟨hmem, of_decide_eq_true hid, hgame, hprotected⟩, h⟩
  · rintro ⟨d, hd, h⟩
    obtain ⟨hmem, hid, -, hprotected⟩ := mem_protectedOthers_iff.mp hd
    exact ⟨d, List.mem_filter.mpr ⟨hmem, decide_eq_true hid⟩, hprotected, h⟩

/-- A protected download of another game is another download. -/
theorem mem_protectedOthers_of_needs (hitem : s.items.get? item.id = some item)
    (hd : d ∈ s.items.toList) (hprotected : isProtected s now d = true)
    (hother : d.gameId ≠ item.gameId) (hneeds : Needs s d asset) :
    d ∈ protectedOthers s now item := by
  refine mem_protectedOthers_iff.mpr ⟨hd, ?_, ?_, hprotected⟩
  · intro hid
    rw [Table.mem_toList_iff] at hd
    have hsame : DownloadItem.id d = DownloadItem.id item := hid
    rw [hsame, hitem] at hd
    exact hother (congrArg DownloadItem.gameId (Option.some.inj hd)).symm
  · rcases hneeds with ⟨_, hgame, -⟩ | ⟨hgame, -, -, -⟩ | ⟨_, _, hgame, -⟩ <;> rw [hgame] <;> rfl

/-- What `discard_partial` touches. -/
theorem touched_discardPartial {outcome : StagingAsset → DiscardOutcome} {itemId : ItemId}
    {result : Discarded} (hitem : s.items.get? itemId = some item)
    (h : discardPartial s outcome now itemId = .ok result) (hmem : asset ∈ result.touched) :
    ∃ gameId, Discardable s now item gameId ∧ asset ∈ discardCandidates s now item gameId := by
  obtain rfl : item.id = itemId := Table.key_of_get? hitem
  rw [discardPartial, hitem] at h
  dsimp only at h
  split at h
  · cases h
  next hstate =>
  split at h
  · cases h
    cases hmem
  next gameId hgame =>
  split at h
  · cases h
  next hothers =>
  cases h
  refine ⟨gameId, ⟨hitem, not_not.mp hstate, hgame, ?_⟩, mem_of_touched hmem⟩
  intro other hother heq
  exact hothers (List.any_eq_true.mpr ⟨other, hother, decide_eq_true heq⟩)

/-- Where nothing is locked and nothing fails, it touches all that it means to. -/
theorem discardPartial_gone (h : Discardable s now item gameId) :
    ∃ result, discardPartial s (fun _ => .gone) now item.id = .ok result ∧
      result.touched = discardCandidates s now item gameId := by
  obtain ⟨hitem, hstate, hgame, hothers⟩ := h
  have hany : ¬ ((protectedOthers s now item).any (·.gameId = some gameId)) = true := by
    intro hany
    obtain ⟨other, hother, heq⟩ := List.any_eq_true.mp hany
    exact hothers other hother (of_decide_eq_true heq)
  rw [discardPartial, hitem]
  dsimp only
  rw [if_neg (not_not.mpr hstate), hgame]
  dsimp only
  rw [if_neg hany]
  exact ⟨_, rfl, touched_of_gone _ _⟩

/-- **Protection of staged data.** The two operations respect every protected download, in the same
    way, exactly when the stored members cover what else a protected download may need. -/
theorem respectsProtection_iff (s : StagingState) (now : ℤ) :
    RespectsProtection s now ↔ Covered s now := by
  constructor
  · intro h
    refine ⟨?_, ?_, ?_⟩
    · intro item gameId hitem asset hasset d hd hlists
      rw [← ownedByOthers_iff hitem, h.same item gameId hitem asset hasset, covers_others_iff]
      exact ⟨d, hd, Or.inl hlists⟩
    · intro item gameId hitem asset hasset hof d hd hunresolved
      by_contra hnone
      obtain ⟨result, hresult, htouched⟩ := discardPartial_gone hitem
      have hmem : asset ∈ result.touched := by
        have howned : ownedByOthers s now item gameId asset = false := by
          rw [← Bool.not_eq_true, ownedByOthers_iff hitem]
          exact hnone
        rw [htouched, discardCandidates, List.mem_filter, hof, howned]
        exact ⟨hasset, rfl⟩
      obtain ⟨hin, -, -, hprotected⟩ := mem_protectedOthers_iff.mp hd
      have hother : d.gameId ≠ item.gameId := hitem.2.2.1 ▸ hitem.2.2.2 d hd
      exact h.discard _ _ item result hitem.1 hresult asset hmem d hin hprotected hother
        (.unresolved hunresolved)
    · intro asset hasset hage d hd hprotected hunresolved
      by_contra hnone
      have hmem : asset ∈ (cleanupStalePartials s (fun _ => .gone) now).touched := by
        have hcovers : (collect s now s.items.toList).covers s asset = false := by
          rw [← Bool.not_eq_true, covers_iff]
          exact hnone
        show asset ∈ (discardEach _ _ _ _).1
        rw [touched_of_gone, staleAssets, List.mem_filter]
        refine ⟨hasset, ?_⟩
        simp [hcovers, hage]
      exact h.cleanup _ asset hmem d hd hprotected (.unresolved hunresolved)
  · intro h
    refine ⟨?_, ?_, ?_⟩
    · intro outcome itemId item result hitem hresult asset hmem d hd hprotected hother hneeds
      obtain ⟨gameId, hdiscardable, hcandidate⟩ := touched_discardPartial hitem hresult hmem
      have hin := mem_protectedOthers_of_needs hdiscardable.1 hd hprotected hother hneeds
      rw [discardCandidates, List.mem_filter, Bool.and_eq_true, Bool.not_eq_true',
        ← Bool.not_eq_true, ownedByOthers_iff hdiscardable] at hcandidate
      obtain ⟨hasset, hof, hnone⟩ := hcandidate
      cases hneeds with
      | stored howns => exact hnone ⟨d, hin, howns⟩
      | listed hgame _ hfound hlisted =>
        exact hnone (h.listed item gameId hdiscardable asset hasset d hin
          ⟨_, _, hgame, hfound, Or.inl hlisted⟩)
      | unresolved hunresolved =>
        exact hnone (h.unresolved item gameId hdiscardable asset hasset hof d hin hunresolved)
    · intro outcome asset hmem d hd hprotected hneeds
      have hstale := mem_of_touched hmem
      rw [staleAssets, List.mem_filter, Bool.and_eq_true, Bool.not_eq_true', ← Bool.not_eq_true,
        covers_iff, Bool.not_eq_true', decide_eq_false_iff_not, not_lt] at hstale
      obtain ⟨hasset, hnone, hage⟩ := hstale
      cases hneeds with
      | stored howns => exact hnone ⟨d, hd, hprotected, Or.inr howns⟩
      | listed hgame _ hfound hlisted =>
        exact hnone ⟨d, hd, hprotected, Or.inl ⟨_, _, hgame, hfound, Or.inl hlisted⟩⟩
      | unresolved hunresolved =>
        exact hnone (h.stale asset hasset hage d hd hprotected hunresolved)
    · intro item gameId hdiscardable asset hasset
      rw [Bool.eq_iff_iff, ownedByOthers_iff hdiscardable, covers_others_iff]
      constructor
      · rintro ⟨e, he, howns⟩
        exact ⟨e, he, Or.inr howns⟩
      · rintro ⟨d, hd, hlists | howns⟩
        · exact h.listed item gameId hdiscardable asset hasset d hd hlists
        · exact ⟨d, hd, howns⟩

end Operations

/-! ### Two games with one disc -/

/-- A game whose catalog assets are its own playlist and a disc that it shares. -/
def sharingGame (id : GameId) : Game :=
  { id := id, system := "psx", title := id, isEligible := true,
    assets := [⟨id ++ ".cue", "psx/" ++ id ++ ".cue", some 1, true⟩,
      ⟨"disc.bin", "psx/disc.bin", some 9, false⟩] }

/-- The download of `a` failed when its members were stored; that of `b` waits in the queue. -/
def sharedDisc : StagingState where
  items := ((∅ : Items).put ⟨1, some "a", .failed, 1, 10, 0, none⟩).put
    ⟨2, some "b", .queued, 2, 10, 0, none⟩
  updatedAt _ := 0
  games id := if id = "a" ∨ id = "b" then some (sharingGame id) else none
  members := (∅ : Table CacheMember CacheMember.key).put ⟨"a", "psx/disc.bin", some 9, 0, false⟩
  staged := (∅ : Table StagingAsset StagingAsset.relativePath).put ⟨"psx/disc.bin", "psx", 0⟩
  retainedBytes _ _ := 0

/-- Discarding the one takes the disc that the other needs; the cleanup would have kept it. -/
theorem sharedDisc_taken : ∃ result, discardPartial sharedDisc (fun _ => .gone) 0 1 = .ok result ∧
    ∃ asset ∈ result.touched, ∃ d ∈ sharedDisc.items.toList, isProtected sharedDisc 0 d = true ∧
      d.gameId ≠ some "a" ∧ Needs sharedDisc d asset ∧
      (collect sharedDisc 0 sharedDisc.items.toList).covers sharedDisc asset = true := by
  refine ⟨_, rfl, ⟨"psx/disc.bin", "psx", 0⟩, by decide +kernel,
    ⟨2, some "b", .queued, 2, 10, 0, none⟩, by decide +kernel, rfl, by decide, ?_,
    by decide +kernel⟩
  have hnone : ¬ HasMembers sharedDisc "b" := by
    unfold HasMembers
    decide +kernel
  exact .listed rfl hnone rfl (by decide +kernel)

end RomCloud.Downloads
