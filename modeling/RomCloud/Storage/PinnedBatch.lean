import RomCloud.Lib.Check
import RomCloud.Storage.Accounting

namespace RomCloud.Storage

open Lib Cache

/-!
# The batch of pinned games has the room its preflight found

The preflight adds up the missing paths of all games once, less what is staged of each.  An
admission asks for the missing assets of one game, in the cache the games before it have left.  The
two agree, as long as every asset found in place is the one the source has, and its bytes are
counted already:

* `GrowthKnown` — what the admissions rely on, at one asset;
* `transferAsset_missing`, `transferAsset_inPlace` — what a transfer leaves at the places of an
  asset, and the room it takes;
* `requestedGrowth_le` — an admission asks for no more than the gain of the missing paths;
* `BatchInv` — what a batch has used up so far is the gain of the paths it has come to;
* `cacheGame_outcome` — no game is turned away, and the invariant is kept;
* `preflight_agrees` — the same for the whole batch.
-/

variable {S : Setup} {a : Answers} {s s₀ s' : Store} {pinned : List Game} {game : Game}

/-- The games are those of the catalog, and their sizes are known. -/
structure Catalogued (S : Setup) (pinned : List Game) : Prop where
  ids : ∀ game ∈ pinned, game.id ∈ S.games
  paths : ∀ game ∈ pinned, ∀ asset ∈ game.assets, asset.relativePath ∈ S.paths
  nodup : ∀ game ∈ pinned, (assetPaths game).Nodup
  sizes : ∀ game ∈ pinned, ∀ asset ∈ game.assets, ∀ n ∈ asset.sizeBytes,
    n = (S.source asset.relativePath).bytes

/-- An asset found in place is the one the source has, nothing else is staged of it, and its bytes
    are counted already. -/
def CountedInPlace (S : Setup) (s : Store) (path : String) : Prop :=
  (s.place path).final = some (S.source path) ∧
    ((s.place path).staged = none ∨ (s.place path).staged = some (S.source path)) ∧
    ((s.place path).manifest = none → (S.source path).bytes ≤ memberBytes S s path)

/-- What the admissions rely on: an asset that is found in place is counted there, and beside a
    package that is missing there is no `.part` file, unless a tree is staged. -/
def GrowthKnown (S : Setup) (s : Store) (game : Game) (asset : GameAsset) : Prop :=
  (existingMemberSize S s game.id asset ≠ none → CountedInPlace S s asset.relativePath) ∧
    (existingMemberSize S s game.id asset = none → (S.source asset.relativePath).isTree = true →
      (s.place asset.relativePath).stagingAssetSize
        ≤ existingBytes (s.place asset.relativePath).staged)

instance (S : Setup) (s : Store) (path : String) : Decidable (CountedInPlace S s path) :=
  inferInstanceAs (Decidable (_ ∧ _))

instance (S : Setup) (s : Store) (game : Game) (asset : GameAsset) :
    Decidable (GrowthKnown S s game asset) := inferInstanceAs (Decidable (_ ∧ _))

/-- What an asset that is missing may still add. -/
def gain (S : Setup) (s : Store) (path : String) : ℕ :=
  (S.source path).bytes - (s.place path).stagingAssetSize

/-! ### The transfer of one asset -/

/-- An asset is where it belongs, with nothing staged but a `.part` file, in some room. -/
structure Settled (source : Item) (room : ℕ) (place : AssetPlace) : Prop where
  final : place.final = some source
  staged : place.staged = none
  backup : place.backup = 0
  room : source.bytes + place.part ≤ room

theorem Settled.mono {source : Item} {room room' : ℕ} {place : AssetPlace}
    (h : Settled source room place) (hle : room ≤ room') : Settled source room' place :=
  ⟨h.final, h.staged, h.backup, h.room.trans hle⟩

/-- A promotion moves what is staged. -/
theorem promoteAsset_staged {source : Item} {place place' : AssetPlace}
    (h : promoteAsset place = some place') (hstaged : place.staged = some source) :
    Settled source (source.bytes + place.part) place' := by
  simp only [promoteAsset, hstaged] at h
  split at h
  · exact absurd h (by simp)
  · cases h
    exact ⟨rfl, rfl, rfl, le_refl _⟩

/-- Staging ends with the source, and adds no `.part` file. -/
theorem stageAsset_staged {source : Item} {isMatch : Bool} {place place' : AssetPlace}
    (h : stageAsset source isMatch place = some place') :
    place'.staged = some source ∧ place'.part ≤ place.part := by
  unfold stageAsset at h
  split at h
  · cases h
    exact ⟨rfl, le_refl _⟩
  · split at h
    · exact absurd h (by simp)
    · split at h
      · next hmatch =>
        cases h
        exact ⟨hmatch.1, le_refl _⟩
      · cases h
        exact ⟨rfl, Nat.zero_le _⟩

/-- Staging takes the room of what was staged and what was missing. -/
theorem stageAsset_room {source : Item} {isMatch : Bool} {place place' : AssetPlace}
    (h : stageAsset source isMatch place = some place')
    (hpart : source.isTree = true → place.stagingAssetSize ≤ existingBytes place.staged) :
    source.bytes + place'.part ≤ place.retained + (source.bytes - place.stagingAssetSize) := by
  have hle := place.stagingAssetSize_le
  have hretained : place.retained = existingBytes place.staged + place.part := rfl
  unfold stageAsset at h
  split at h
  · next htree =>
    -- a staged tree is completed, and a `.part` file beside it stays
    cases h
    have hstaged := hpart htree
    show source.bytes + place.part ≤ _
    omega
  · split at h
    · exact absurd h (by simp)
    · split at h
      · next hmatch =>
        cases h
        rw [hmatch.1, existingBytes_some] at hretained
        omega
      · cases h
        show source.bytes + 0 ≤ _
        omega

/-- An asset that is missing is transferred. -/
theorem transferAsset_missing {gameId path : String} {place place' : AssetPlace}
    (h : transferAsset S a gameId path place = some place')
    (hmissing : finalIsValid (S.source path) (a.finalMatches gameId path) place = false)
    (hpart : (S.source path).isTree = true →
      place.stagingAssetSize ≤ existingBytes place.staged) :
    Settled (S.source path)
      (place.retained + ((S.source path).bytes - place.stagingAssetSize)) place' := by
  rw [transferAsset, hmissing, if_neg (by simp), Option.bind_eq_some_iff] at h
  obtain ⟨staged, hstage, hpromote⟩ := h
  exact (promoteAsset_staged hpromote (stageAsset_staged hstage).1).mono
    (stageAsset_room hstage hpart)

/-- An asset that is in place stays there, whether or not its content is looked at again. -/
theorem transferAsset_inPlace {gameId path : String} {place place' : AssetPlace}
    (h : transferAsset S a gameId path place = some place')
    (hfinal : place.final = some (S.source path))
    (hstaged : place.staged = none ∨ place.staged = some (S.source path)) :
    Settled (S.source path) ((S.source path).bytes + place.part) place' := by
  rw [transferAsset] at h
  split at h
  · rcases hstaged with hstaged | hstaged
    · simp only [promoteAsset, hstaged, hfinal, Option.isSome_some, if_true,
        Option.some.injEq] at h
      subst h
      exact ⟨rfl, rfl, rfl, le_refl _⟩
    · exact promoteAsset_staged h hstaged
  · obtain ⟨staged, hstage, hpromote⟩ := Option.bind_eq_some_iff.mp h
    obtain ⟨hsource, hpart⟩ := stageAsset_staged hstage
    exact (promoteAsset_staged hpromote hsource).mono (Nat.add_le_add_left hpart _)

/-- A transfer does its work at the paths of its game, at each of them once. -/
theorem transferGame_spec {place place' : String → AssetPlace} (hnodup : (assetPaths game).Nodup)
    (h : transferGame S a game place = some place') :
    (∀ path ∉ assetPaths game, place' path = place path) ∧
      ∀ path ∈ assetPaths game,
        transferAsset S a game.id path (place path) = some (place' path) := by
  obtain ⟨id, system, title, assets, eligible⟩ := game
  simp only [transferGame, assetPaths] at h hnodup ⊢
  induction assets generalizing place with
  | nil =>
    cases h
    simp
  | cons asset rest ih =>
    rw [List.map_cons, List.nodup_cons] at hnodup
    rw [List.foldlM_cons] at h
    obtain ⟨mid, hmid, hrest⟩ := Option.bind_eq_some_iff.mp h
    obtain ⟨first, hfirst, rfl⟩ := Option.map_eq_some_iff.mp hmid
    obtain ⟨hother, hpaths⟩ := ih hnodup.2 hrest
    rw [List.map_cons]
    constructor
    · intro path hpath
      rw [List.mem_cons, not_or] at hpath
      rw [hother path hpath.2, Function.update_of_ne hpath.1]
    · intro path hpath
      rcases List.mem_cons.mp hpath with rfl | hin
      · rw [hother _ hnodup.1, Function.update_self]
        exact hfirst
      · have hne : path ≠ asset.relativePath := fun heq => hnodup.1 (heq ▸ hin)
        rw [← hpaths path hin, Function.update_of_ne hne]

/-! ### What is found in place -/

/-- What is found of an asset depends on its own places only. -/
theorem existingMemberSize_congr {gameId : String} {asset : GameAsset}
    (h : s.place asset.relativePath = s₀.place asset.relativePath) :
    existingMemberSize S s gameId asset = existingMemberSize S s₀ gameId asset := by
  simp only [existingMemberSize, cachedAssetSize, h]

/-- An asset is found at its final path, where its source is and no recovery manifest speaks
    against it. -/
theorem existingMemberSize_of_final {gameId : String} {asset : GameAsset}
    (hsize : ∀ n, asset.sizeBytes = some n → n = (S.source asset.relativePath).bytes)
    (hfinal : (s.place asset.relativePath).final = some (S.source asset.relativePath))
    (hmanifest : (s.place asset.relativePath).manifest ≠ some false) :
    existingMemberSize S s gameId asset = some (S.source asset.relativePath).bytes := by
  unfold existingMemberSize
  cases hm : (s.place asset.relativePath).manifest with
  | some answer =>
    cases answer with
    | false => exact absurd hm hmanifest
    | true => simp [AssetPlace.validatedPromotedSize, hm, hfinal]
  | none =>
    have hexact : asset.sizeBytes = none
        ∨ asset.sizeBytes = some (S.source asset.relativePath).bytes := by
      cases hs : asset.sizeBytes with
      | none => exact .inl rfl
      | some n => exact .inr (congrArg some (hsize n hs))
    simp [cachedAssetSize, hfinal, hexact]

/-- The size of an asset that is in place is the size of its source. -/
theorem existingMemberSize_eq {gameId : String} {asset : GameAsset} {n : ℕ}
    (hfinal : (s.place asset.relativePath).final = some (S.source asset.relativePath))
    (h : existingMemberSize S s gameId asset = some n) :
    n = (S.source asset.relativePath).bytes := by
  unfold existingMemberSize at h
  split at h
  · simp only [AssetPlace.validatedPromotedSize, hfinal, Option.map_some,
      Option.ite_none_right_eq_some, Option.some.injEq] at h
    exact h.2.symm
  · simp only [cachedAssetSize, hfinal, Option.map_some, Option.some_or,
      Option.filter_eq_some_iff, Option.some.injEq] at h
    exact h.1.symm

/-- What is not found in place is no valid final path either. -/
theorem finalIsValid_of_missing {gameId : String} {asset : GameAsset} {isMatch : Bool}
    (hsize : ∀ n, asset.sizeBytes = some n → n = (S.source asset.relativePath).bytes)
    (h : existingMemberSize S s gameId asset = none) :
    finalIsValid (S.source asset.relativePath) isMatch (s.place asset.relativePath) = false := by
  rw [Bool.eq_false_iff]
  intro hvalid
  simp only [finalIsValid, Bool.and_eq_true, decide_eq_true_eq] at hvalid
  rw [existingMemberSize_of_final hsize hvalid.1.1 hvalid.2] at h
  exact absurd h (by simp)

/-! ### What an admission asks for -/

theorem requestedGrowth_le_max :
    requestedGrowth S s game
      ≤ max ((missingAssets S s game).map fun asset => asset.sizeBytes.getD 0).sum
          (estimateSize S game - (game.assets.filterMap (existingMemberSize S s game.id)).sum)
        - stagingSize s game := by
  unfold requestedGrowth
  apply Nat.sub_le_sub_right
  split
  · exact le_refl _
  · exact le_max_left _ _

theorem estimateAssetSize_eq {asset : GameAsset}
    (hsize : ∀ n, asset.sizeBytes = some n → n = (S.source asset.relativePath).bytes) :
    estimateAssetSize S asset = (S.source asset.relativePath).bytes := by
  unfold estimateAssetSize
  cases hs : asset.sizeBytes with
  | none => rfl
  | some n => exact hsize n hs

/-- The three sums of a request, against the bytes of what is missing. -/
theorem missing_sums {gameId : String} {assets : List GameAsset}
    (hsizes : ∀ asset ∈ assets, ∀ n, asset.sizeBytes = some n →
      n = (S.source asset.relativePath).bytes)
    (hexisting : ∀ asset ∈ assets, ∀ n, existingMemberSize S s gameId asset = some n →
      n = (S.source asset.relativePath).bytes) :
    let missing := assets.filter fun asset => existingMemberSize S s gameId asset = none
    let bytes := (missing.map fun asset => (S.source asset.relativePath).bytes).sum
    (missing.map fun asset => asset.sizeBytes.getD 0).sum ≤ bytes ∧
      (assets.map (estimateAssetSize S)).sum
        ≤ (assets.filterMap (existingMemberSize S s gameId)).sum + bytes ∧
      bytes ≤ (missing.map fun asset => gain S s asset.relativePath).sum
        + (assets.map fun asset => (s.place asset.relativePath).stagingAssetSize).sum := by
  induction assets with
  | nil => simp
  | cons asset rest ih =>
    rw [List.forall_mem_cons] at hsizes hexisting
    obtain ⟨hknown, hestimate, hgain⟩ := ih hsizes.2 hexisting.2
    have hsize := estimateAssetSize_eq hsizes.1
    cases hfound : existingMemberSize S s gameId asset with
    | none =>
      have hcatalog : asset.sizeBytes.getD 0 ≤ (S.source asset.relativePath).bytes := by
        cases hs : asset.sizeBytes with
        | none => exact Nat.zero_le _
        | some n => exact le_of_eq (hsizes.1 n hs)
      have hasset : (S.source asset.relativePath).bytes
          ≤ gain S s asset.relativePath + (s.place asset.relativePath).stagingAssetSize := by
        unfold gain
        omega
      simp only [List.filter_cons, hfound, decide_true, if_true, List.map_cons, List.sum_cons,
        List.filterMap_cons, hsize]
      refine ⟨?_, ?_, ?_⟩ <;> omega
    | some n =>
      have hn := hexisting.1 n hfound
      simp only [List.filter_cons, hfound, reduceCtorEq, decide_false, Bool.false_eq_true,
        if_false, List.map_cons, List.sum_cons, List.filterMap_cons, hsize, hn]
      refine ⟨hknown, ?_, ?_⟩ <;> omega

/-- **The admission of a game.**  It asks for no more than its missing assets may add. -/
theorem requestedGrowth_le
    (hsizes : ∀ asset ∈ game.assets, ∀ n, asset.sizeBytes = some n →
      n = (S.source asset.relativePath).bytes)
    (hexisting : ∀ asset ∈ game.assets, ∀ n, existingMemberSize S s game.id asset = some n →
      n = (S.source asset.relativePath).bytes) :
    requestedGrowth S s game
      ≤ ((missingAssets S s game).map fun asset => gain S s asset.relativePath).sum := by
  obtain ⟨hknown, hestimate, hgain⟩ := missing_sums hsizes hexisting
  have hrequest := @requestedGrowth_le_max S s game
  unfold missingAssets estimateSize stagingSize at *
  omega

/-! ### What the preflight adds up -/

/-- The loop of the preflight keeps every path it comes to, with a size no smaller than that of the
    source. -/
theorem foldl_addMissing {l : List GameAsset}
    (hl : ∀ asset ∈ l, estimateAssetSize S asset = (S.source asset.relativePath).bytes)
    {sizes : Dict String ℕ}
    (hsizes : ∀ path n, sizes.get? path = some n → (S.source path).bytes ≤ n) :
    (∀ path n, (l.foldl (addMissing S) sizes).get? path = some n → (S.source path).bytes ≤ n) ∧
      (∀ path ∈ sizes.keys, path ∈ (l.foldl (addMissing S) sizes).keys) ∧
      ∀ asset ∈ l, asset.relativePath ∈ (l.foldl (addMissing S) sizes).keys := by
  induction l generalizing sizes with
  | nil => exact ⟨hsizes, fun _ h => h, by simp⟩
  | cons asset rest ih =>
    rw [List.forall_mem_cons] at hl
    have hstep : ∀ path n, (addMissing S sizes asset).get? path = some n →
        (S.source path).bytes ≤ n := by
      intro path n hget
      rw [addMissing, Dict.get?_insert] at hget
      split at hget
      · next heq =>
        cases hget
        rw [heq, ← hl.1]
        exact le_max_right _ _
      · exact hsizes path n hget
    obtain ⟨hge, hkeep, hnew⟩ := ih hl.2 hstep
    have hmem : ∀ path, path = asset.relativePath ∨ path ∈ sizes.keys →
        path ∈ (addMissing S sizes asset).keys := by
      intro path h
      rw [Dict.mem_keys_iff, addMissing, Dict.get?_insert]
      by_cases heq : path = asset.relativePath
      · exact ⟨_, if_pos heq⟩
      · rw [if_neg heq]
        exact (Dict.mem_keys_iff _ _).mp (h.resolve_left heq)
    refine ⟨hge, fun path h => hkeep path (hmem path (.inr h)), ?_⟩
    rw [List.forall_mem_cons]
    exact ⟨hkeep _ (hmem _ (.inl rfl)), hnew⟩

theorem missingPaths_spec (h : Catalogued S pinned) :
    (∀ path n, (missingPaths S s pinned).get? path = some n → (S.source path).bytes ≤ n) ∧
      ∀ game ∈ gamesNeedingData S s pinned, ∀ asset ∈ missingAssets S s game,
        asset.relativePath ∈ (missingPaths S s pinned).keys := by
  have hestimate : ∀ asset ∈ (gamesNeedingData S s pinned).flatMap (missingAssets S s),
      estimateAssetSize S asset = (S.source asset.relativePath).bytes := by
    intro asset hasset
    obtain ⟨game, hgame, hmissing⟩ := List.mem_flatMap.mp hasset
    exact estimateAssetSize_eq
      (h.sizes game (List.mem_of_mem_filter hgame) asset (List.mem_of_mem_filter hmissing))
  have hempty : ∀ path n, (∅ : Dict String ℕ).get? path = some n → (S.source path).bytes ≤ n := by
    simp
  obtain ⟨hge, -, hnew⟩ := foldl_addMissing hestimate hempty
  exact ⟨hge, fun game hgame asset hasset =>
    hnew asset (List.mem_flatMap.mpr ⟨game, hgame, hasset⟩)⟩

/-- **The preflight.**  It adds up what the missing paths may add, each path once. -/
theorem sum_gain_le (h : Catalogued S pinned) :
    ∑ path ∈ (missingPaths S s pinned).keys.toFinset, gain S s path
      ≤ additionalBytes S s pinned := by
  rw [List.sum_toFinset _ (Dict.keys_nodup _), Dict.keys, List.map_map]
  apply List.sum_le_sum
  rintro ⟨path, n⟩ he
  exact Nat.sub_le_sub_right
    ((missingPaths_spec h).1 path n ((Dict.get?_eq_some_iff _ _ _).mpr he)) _

/-! ### What a batch has used up -/

/-- The rows of a game are its own: they take the place of those it had. -/
theorem memberBytes_finalizeTransfer (game : Game) (place : String → AssetPlace) (path : String) :
    memberBytes S (finalizeTransfer S s game place) path
      ≤ max (memberBytes S s path)
          (if path ∈ assetPaths game then existingBytes (place path).final else 0) := by
  apply Finset.sup_le
  intro g hg
  show (if g = game.id then _ else s.member g path) ≤ _
  split
  · exact le_max_right _ _
  · exact le_max_of_le_left (Finset.le_sup (f := fun g => s.member g path) hg)

/-- What the preflight has counted for a path. -/
def allowance (S : Setup) (s₀ : Store) (pinned : List Game) (path : String) : ℕ :=
  if path ∈ (missingPaths S s₀ pinned).keys then gain S s₀ path else 0

/-- **The invariant of a batch.**  The paths it has come to are in place, in the room they had
    before and what the preflight has counted for them; at the others nothing has changed, save that
    rows may be gone. -/
structure BatchInv (S : Setup) (s₀ : Store) (pinned : List Game) (done : Finset String)
    (s : Store) : Prop where
  untouched : ∀ path ∉ done, s.place path = s₀.place path
  members : ∀ path ∉ done, memberBytes S s path ≤ memberBytes S s₀ path
  settled : ∀ path ∈ done, Settled (S.source path)
    (min (accounted S s₀ path) (s₀.place path).physical + allowance S s₀ pinned path) (s.place path)
  manifest : ∀ path ∈ done, (s.place path).manifest = none
  counted : ∀ path ∈ done, memberBytes S s path + (s.place path).part
    ≤ accounted S s₀ path + allowance S s₀ pinned path
  stray : s.stray = s₀.stray
  reserved : s.reserved = s₀.reserved
  stale : s.stale ≤ s₀.stale
  free : s.free + (∑ path ∈ S.paths, (s.place path).physical : ℕ)
    = s₀.free + (∑ path ∈ S.paths, (s₀.place path).physical : ℕ)

namespace BatchInv

variable {done more : Finset String}

/-- A batch begins with nothing done. -/
theorem start (S : Setup) (s₀ : Store) (pinned : List Game) : BatchInv S s₀ pinned ∅ s₀ where
  untouched _ _ := rfl
  members _ _ := le_refl _
  settled _ h := absurd h (Finset.notMem_empty _)
  manifest _ h := absurd h (Finset.notMem_empty _)
  counted _ h := absurd h (Finset.notMem_empty _)
  stray := rfl
  reserved := rfl
  stale := le_refl _
  free := rfl

theorem accounted_le (h : BatchInv S s₀ pinned done s) (path : String) :
    accounted S s path
      ≤ accounted S s₀ path + if path ∈ done then allowance S s₀ pinned path else 0 := by
  by_cases hin : path ∈ done
  · rw [if_pos hin]
    have hcounted := h.counted path hin
    have hbytes : (s.place path).recoveryBytes = 0
        ∧ (s.place path).retained = (s.place path).part := by
      simp [AssetPlace.recoveryBytes, AssetPlace.retained, h.manifest path hin,
        (h.settled path hin).staged]
    unfold accounted at hcounted ⊢
    omega
  · rw [if_neg hin, accounted, h.untouched path hin, accounted]
    have := h.members path hin
    omega

theorem physical_le (h : BatchInv S s₀ pinned done s) (path : String) :
    (s.place path).physical
      ≤ (s₀.place path).physical + if path ∈ done then allowance S s₀ pinned path else 0 := by
  by_cases hin : path ∈ done
  · rw [if_pos hin]
    obtain ⟨hfinal, hstaged, hbackup, hroom⟩ := h.settled path hin
    have hphysical : (s.place path).physical = (S.source path).bytes + (s.place path).part := by
      simp [AssetPlace.physical, AssetPlace.retained, hfinal, hstaged, hbackup]
    have := min_le_right (accounted S s₀ path) (s₀.place path).physical
    omega
  · rw [if_neg hin, h.untouched path hin]
    exact le_refl _

/-- What is used up and what other missing paths may still add is what the preflight has found. -/
theorem used_add_gain_le (hcat : Catalogued S pinned) (hdisjoint : Disjoint done more)
    (hmore : more ⊆ (missingPaths S s₀ pinned).keys.toFinset) :
    (∑ path ∈ S.paths, if path ∈ done then allowance S s₀ pinned path else 0)
        + ∑ path ∈ more, gain S s₀ path
      ≤ additionalBytes S s₀ pinned := by
  have hused : (∑ path ∈ S.paths, if path ∈ done then allowance S s₀ pinned path else 0)
      ≤ ∑ path ∈ done ∩ (missingPaths S s₀ pinned).keys.toFinset, gain S s₀ path := by
    rw [← Finset.sum_filter, ← Finset.sum_filter_add_sum_filter_not _
      (fun path => path ∈ (missingPaths S s₀ pinned).keys)]
    have hnone : ∑ path ∈ (S.paths.filter (· ∈ done)).filter
        (fun path => ¬path ∈ (missingPaths S s₀ pinned).keys), allowance S s₀ pinned path = 0 :=
      Finset.sum_eq_zero fun path hpath => if_neg (Finset.mem_filter.mp hpath).2
    rw [hnone, add_zero]
    calc _ = ∑ path ∈ (S.paths.filter (· ∈ done)).filter
            (fun path => path ∈ (missingPaths S s₀ pinned).keys), gain S s₀ path :=
          Finset.sum_congr rfl fun path hpath => if_pos (Finset.mem_filter.mp hpath).2
      _ ≤ _ := by
          apply Finset.sum_le_sum_of_subset
          intro path hpath
          simp only [Finset.mem_filter] at hpath
          exact Finset.mem_inter.mpr ⟨hpath.1.2, List.mem_toFinset.mpr hpath.2⟩
  have hdisj : Disjoint (done ∩ (missingPaths S s₀ pinned).keys.toFinset) more :=
    hdisjoint.mono_left Finset.inter_subset_left
  calc _ ≤ (∑ path ∈ done ∩ (missingPaths S s₀ pinned).keys.toFinset, gain S s₀ path)
        + ∑ path ∈ more, gain S s₀ path := Nat.add_le_add_right hused _
    _ = ∑ path ∈ (done ∩ (missingPaths S s₀ pinned).keys.toFinset) ∪ more, gain S s₀ path :=
        (Finset.sum_union hdisj).symm
    _ ≤ ∑ path ∈ (missingPaths S s₀ pinned).keys.toFinset, gain S s₀ path :=
        Finset.sum_le_sum_of_subset (Finset.union_subset Finset.inter_subset_right hmore)
    _ ≤ _ := sum_gain_le hcat

/-- **The room that is left.**  The total of a batch under way, and what other missing paths may
    add, stay within what the preflight has found; so does the free space. -/
theorem room (h : BatchInv S s₀ pinned done s) (hcat : Catalogued S pinned)
    (hdisjoint : Disjoint done more) (hmore : more ⊆ (missingPaths S s₀ pinned).keys.toFinset) :
    totalBytes S s + ∑ path ∈ more, gain S s₀ path
        ≤ totalBytes S s₀ + additionalBytes S s₀ pinned ∧
      s₀.free + (∑ path ∈ more, gain S s₀ path : ℕ)
        ≤ s.free + (additionalBytes S s₀ pinned : ℕ) := by
  have hused := used_add_gain_le hcat hdisjoint hmore
  have haccounted := Finset.sum_le_sum fun path (_ : path ∈ S.paths) => h.accounted_le path
  have hphysical := Finset.sum_le_sum fun path (_ : path ∈ S.paths) => h.physical_le path
  rw [Finset.sum_add_distrib] at haccounted hphysical
  have hfree := h.free
  constructor
  · rw [totalBytes_eq_sum, totalBytes_eq_sum, activeReserved, activeReserved, h.stray, h.reserved]
    have := h.stale
    omega
  · omega

/-- An asset found in place is the source, with nothing else staged. -/
theorem inPlace (h : BatchInv S s₀ pinned done s) {asset : GameAsset}
    (hknown : GrowthKnown S s₀ game asset)
    (hfound : existingMemberSize S s game.id asset ≠ none) :
    (s.place asset.relativePath).final = some (S.source asset.relativePath) ∧
      ((s.place asset.relativePath).staged = none
        ∨ (s.place asset.relativePath).staged = some (S.source asset.relativePath)) := by
  by_cases hin : asset.relativePath ∈ done
  · exact ⟨(h.settled _ hin).final, .inl (h.settled _ hin).staged⟩
  · have hplace := h.untouched _ hin
    rw [existingMemberSize_congr hplace] at hfound
    rw [hplace]
    exact ⟨(hknown.1 hfound).1, (hknown.1 hfound).2.1⟩

/-- An asset that is missing was missing at the preflight. -/
theorem missing (h : BatchInv S s₀ pinned done s) {asset : GameAsset}
    (hsize : ∀ n, asset.sizeBytes = some n → n = (S.source asset.relativePath).bytes)
    (hmissing : existingMemberSize S s game.id asset = none) :
    asset.relativePath ∉ done ∧ existingMemberSize S s₀ game.id asset = none := by
  have hin : asset.relativePath ∉ done := by
    intro hin
    have hmanifest : (s.place asset.relativePath).manifest ≠ some false := by
      rw [h.manifest _ hin]
      simp
    rw [existingMemberSize_of_final hsize (h.settled _ hin).final hmanifest] at hmissing
    exact absurd hmissing (by simp)
  exact ⟨hin, existingMemberSize_congr (h.untouched _ hin) ▸ hmissing⟩

/-- What a transfer leaves at a path of its game, in the room the path had before and what the
    preflight has counted for it. -/
theorem transferred (h : BatchInv S s₀ pinned done s) (hcat : Catalogued S pinned)
    (hgame : game ∈ gamesNeedingData S s₀ pinned)
    {asset : GameAsset} (hasset : asset ∈ game.assets) (hknown : GrowthKnown S s₀ game asset)
    {place : AssetPlace} (htransfer : transferAsset S a game.id asset.relativePath
      (s.place asset.relativePath) = some place) :
    Settled (S.source asset.relativePath)
        (min (accounted S s₀ asset.relativePath) (s₀.place asset.relativePath).physical
          + allowance S s₀ pinned asset.relativePath) place ∧
      memberBytes S s asset.relativePath + place.part
        ≤ accounted S s₀ asset.relativePath + allowance S s₀ pinned asset.relativePath := by
  have hsize := hcat.sizes game (List.mem_of_mem_filter hgame) asset hasset
  by_cases hin : asset.relativePath ∈ done
  · -- come to before: in place, and it stays there
    have hold := h.settled _ hin
    have hnew := transferAsset_inPlace htransfer hold.final (.inl hold.staged)
    have hcounted := h.counted _ hin
    have hpart := hnew.room
    exact ⟨hnew.mono hold.room, by omega⟩
  · have hplace := h.untouched _ hin
    have hmembers := h.members _ hin
    rw [hplace] at htransfer
    cases hfound : existingMemberSize S s₀ game.id asset with
    | none =>
      -- missing at the preflight, which has counted it
      have hallowance : allowance S s₀ pinned asset.relativePath
          = (S.source asset.relativePath).bytes
            - (s₀.place asset.relativePath).stagingAssetSize :=
        if_pos ((missingPaths_spec hcat).2 game hgame asset
          (List.mem_filter.mpr ⟨hasset, decide_eq_true hfound⟩))
      have hnew := transferAsset_missing htransfer (finalIsValid_of_missing hsize hfound)
        (hknown.2 hfound)
      have hroom := hnew.room
      constructor
      · refine hnew.mono ?_
        rw [hallowance]
        apply Nat.add_le_add_right
        apply le_min
        · exact Nat.le_add_left _ _
        · exact Nat.le_add_left _ _
      · unfold accounted
        omega
    | some n =>
      -- found in place, where its bytes are counted
      obtain ⟨hfinal, hstaged, hrows⟩ := hknown.1 (by rw [hfound]; simp)
      have hnew := transferAsset_inPlace htransfer hfinal hstaged
      have hroom := hnew.room
      have hretained : (s₀.place asset.relativePath).part
          ≤ (s₀.place asset.relativePath).retained := Nat.le_add_left _ _
      have hcounted : (S.source asset.relativePath).bytes
          ≤ memberBytes S s₀ asset.relativePath
            + (s₀.place asset.relativePath).recoveryBytes := by
        cases hm : (s₀.place asset.relativePath).manifest with
        | none => exact (hrows hm).trans (Nat.le_add_right _ _)
        | some answer =>
          simp only [AssetPlace.recoveryBytes, hm, Option.isSome_some, if_true, hfinal,
            existingBytes_some]
          omega
      have hphysical : (S.source asset.relativePath).bytes
          + (s₀.place asset.relativePath).retained
            ≤ (s₀.place asset.relativePath).physical := by
        simp only [AssetPlace.physical, hfinal, existingBytes_some]
        omega
      unfold accounted
      constructor
      · refine hnew.mono ((le_min ?_ ?_).trans (Nat.le_add_right _ _)) <;> omega
      · omega

/-- A game that has been transferred and finalized. -/
theorem finalized (h : BatchInv S s₀ pinned done s) (hcat : Catalogued S pinned)
    (hgame : game ∈ gamesNeedingData S s₀ pinned)
    (hknown : ∀ asset ∈ game.assets, GrowthKnown S s₀ game asset) {place : String → AssetPlace}
    (htransfer : transferGame S a game s.place = some place) :
    BatchInv S s₀ pinned (done ∪ (assetPaths game).toFinset)
      (finalizeTransfer S (reclaimStale s) game place) := by
  obtain ⟨hother, hpaths⟩ := transferGame_spec
    (hcat.nodup game (List.mem_of_mem_filter hgame)) htransfer
  have hnew : ∀ path ∈ assetPaths game,
      Settled (S.source path) (min (accounted S s₀ path) (s₀.place path).physical
          + allowance S s₀ pinned path) (place path) ∧
        memberBytes S s path + (place path).part
          ≤ accounted S s₀ path + allowance S s₀ pinned path := by
    intro path hpath
    obtain ⟨asset, hasset, rfl⟩ := List.mem_map.mp hpath
    exact h.transferred hcat hgame hasset (hknown asset hasset) (hpaths _ hpath)
  have hrows := memberBytes_finalizeTransfer (S := S) (s := reclaimStale s) game place
  refine ⟨?_, ?_, ?_, ?_, ?_, h.stray, h.reserved, Nat.zero_le _, ?_⟩
  · intro path hpath
    rw [Finset.notMem_union, List.mem_toFinset] at hpath
    show (if path ∈ assetPaths game then _ else place path) = _
    rw [if_neg hpath.2, hother path hpath.2, h.untouched path hpath.1]
  · intro path hpath
    rw [Finset.notMem_union, List.mem_toFinset] at hpath
    have hle := hrows path
    rw [if_neg hpath.2, Nat.max_zero] at hle
    exact hle.trans (h.members path hpath.1)
  · intro path hpath
    show Settled _ _ (if path ∈ assetPaths game then _ else place path)
    by_cases hin : path ∈ assetPaths game
    · rw [if_pos hin]
      obtain ⟨hfinal, hstaged, hbackup, hroom⟩ := (hnew path hin).1
      exact ⟨hfinal, hstaged, hbackup, hroom⟩
    · rw [if_neg hin, hother path hin]
      exact h.settled path ((Finset.mem_union.mp hpath).resolve_right (by simpa using hin))
  · intro path hpath
    show (if path ∈ assetPaths game then _ else place path).manifest = none
    by_cases hin : path ∈ assetPaths game
    · rw [if_pos hin]
    · rw [if_neg hin, hother path hin]
      exact h.manifest path ((Finset.mem_union.mp hpath).resolve_right (by simpa using hin))
  · intro path hpath
    show _ + (if path ∈ assetPaths game then _ else place path).part ≤ _
    have hle := hrows path
    by_cases hin : path ∈ assetPaths game
    · obtain ⟨hsettled, hcounted⟩ := hnew path hin
      have hroom := hsettled.room
      have hmin := min_le_left (accounted S s₀ path) (s₀.place path).physical
      rw [if_pos hin, hsettled.final, existingBytes_some] at hle
      rw [if_pos hin]
      change _ ≤ max (memberBytes S s path) _ at hle
      show _ + (place path).part ≤ _
      rcases le_max_iff.mp hle with hle | hle <;> omega
    · rw [if_neg hin, Nat.max_zero] at hle
      rw [if_neg hin, hother path hin]
      have hcounted := h.counted path
        ((Finset.mem_union.mp hpath).resolve_right (by simpa using hin))
      change _ ≤ memberBytes S s path at hle
      omega
  · have hphysical : (∑ path ∈ S.paths,
        ((finalizeTransfer S (reclaimStale s) game place).place path).physical)
          = ∑ path ∈ S.paths, (place path).physical := by
      apply Finset.sum_congr rfl
      intro path _
      show (if path ∈ assetPaths game then _ else place path : AssetPlace).physical = _
      split <;> rfl
    rw [hphysical]
    have hfree := h.free
    show s.free + (∑ path ∈ S.paths, (s.place path).physical : ℕ)
        - (∑ path ∈ S.paths, (place path).physical : ℕ) + _ = _
    omega

/-- **One game of the batch.**  It is not turned away for want of room, and once it is cached the
    batch has used up no more than the preflight has found. -/
theorem cacheGame_outcome (h : BatchInv S s₀ pinned done s) (hcat : Catalogued S pinned)
    (hallowed : (preflightPinned S s₀ pinned).allowed = true)
    (hgame : game ∈ gamesNeedingData S s₀ pinned)
    (hknown : ∀ asset ∈ game.assets, GrowthKnown S s₀ game asset) :
    (∀ t, cacheGame S a s game = .ok t → ∃ done, BatchInv S s₀ pinned done t) ∧
      ∀ e, cacheGame S a s game = .error e → e ≠ .noRoom := by
  have hpinned := List.mem_of_mem_filter hgame
  have hsizes := hcat.sizes game hpinned
  have hexisting : ∀ asset ∈ game.assets, ∀ n, existingMemberSize S s game.id asset = some n →
      n = (S.source asset.relativePath).bytes := fun asset hasset n hn =>
    existingMemberSize_eq (h.inPlace (hknown asset hasset) (by rw [hn]; simp)).1 hn
  -- the missing assets lie at paths the batch has not come to
  have hmissing : ∀ asset ∈ missingAssets S s game,
      asset.relativePath ∉ done ∧ asset.relativePath ∈ (missingPaths S s₀ pinned).keys
        ∧ gain S s asset.relativePath = gain S s₀ asset.relativePath := by
    intro asset hasset
    obtain ⟨hmem, hnone⟩ := List.mem_filter.mp hasset
    obtain ⟨hin, hbefore⟩ := h.missing (hsizes asset hmem) (of_decide_eq_true hnone)
    refine ⟨hin, (missingPaths_spec hcat).2 game hgame asset
      (List.mem_filter.mpr ⟨hmem, decide_eq_true hbefore⟩), ?_⟩
    rw [gain, gain, h.untouched _ hin]
  have hnodup : ((missingAssets S s game).map GameAsset.relativePath).Nodup :=
    (hcat.nodup game hpinned).sublist (List.filter_sublist.map _)
  have hrequest : requestedGrowth S s game
      ≤ ∑ path ∈ ((missingAssets S s game).map GameAsset.relativePath).toFinset,
          gain S s₀ path := by
    rw [List.sum_toFinset _ hnodup, List.map_map]
    exact (requestedGrowth_le hsizes hexisting).trans
      (List.sum_le_sum fun asset hasset => le_of_eq (hmissing asset hasset).2.2)
  have hdisjoint :
      Disjoint done ((missingAssets S s game).map GameAsset.relativePath).toFinset := by
    rw [Finset.disjoint_right]
    intro path hpath
    obtain ⟨asset, hasset, rfl⟩ := List.mem_map.mp (List.mem_toFinset.mp hpath)
    exact (hmissing asset hasset).1
  have hkeys : ((missingAssets S s game).map GameAsset.relativePath).toFinset
      ⊆ (missingPaths S s₀ pinned).keys.toFinset := by
    intro path hpath
    obtain ⟨asset, hasset, rfl⟩ := List.mem_map.mp (List.mem_toFinset.mp hpath)
    exact List.mem_toFinset.mpr (hmissing asset hasset).2.1
  obtain ⟨htotal, hfree⟩ := h.room hcat hdisjoint hkeys
  have hfits : fits S (reclaimStale s) (requestedGrowth S s game) = true := by
    have hreclaim : totalBytes S (reclaimStale s) ≤ totalBytes S s := by
      show _ + _ + (s.reserved + 0) ≤ _ + _ + (s.reserved + s.stale)
      exact Nat.add_le_add_left (Nat.add_le_add_left (Nat.zero_le _) _) _
    have hreserved : activeReserved (reclaimStale s) ≤ activeReserved s₀ := by
      show s.reserved + 0 ≤ s₀.reserved + s₀.stale
      rw [h.reserved]
      exact Nat.add_le_add_left (Nat.zero_le _) _
    rw [preflightPinned_allowed] at hallowed
    simp only [fits, Bool.and_eq_true, decide_eq_true_eq] at hallowed ⊢
    constructor
    · omega
    · show _ ≤ s.free - _ - _
      omega
  unfold cacheGame
  rw [if_pos hfits]
  split
  · exact ⟨fun t ht => ⟨done, Except.ok.inj ht ▸ h⟩, fun e he => absurd he (by simp)⟩
  · split
    · exact ⟨fun t ht => absurd ht (by simp), fun e he => Except.error.inj he ▸ (by simp)⟩
    · split
      · cases htransfer : transferGame S a game s.place with
        | none =>
          exact ⟨fun t ht => absurd ht (by simp), fun e he => Except.error.inj he ▸ (by simp)⟩
        | some place =>
          exact ⟨fun t ht => ⟨_, Except.ok.inj ht ▸ h.finalized hcat hgame hknown htransfer⟩,
            fun e he => absurd he (by simp)⟩
      · exact ⟨fun t ht => absurd ht (by simp), fun e he => Except.error.inj he ▸ (by simp)⟩

end BatchInv

/-! ### The whole batch -/

/-- What the preflight promises: when it allows the batch, no admission is short of room, and a
    batch that is completed has added no more to the total than the preflight has found. -/
def PreflightAgrees (S : Setup) (a : Answers) (s : Store) (pinned : List Game) : Prop :=
  (preflightPinned S s pinned).allowed = true →
    downloadPinned S a s pinned ≠ .error .noRoom ∧
      ∀ t, downloadPinned S a s pinned = .ok t →
        totalBytes S t ≤ totalBytes S s + additionalBytes S s pinned

/-- An asset of the examples. -/
def discAsset (path : String) (sizeBytes : Option ℕ) (isPrimary : Bool) : GameAsset where
  filename := path
  relativePath := path
  sizeBytes := sizeBytes
  isPrimary := isPrimary

/-- Two games of two discs each, one of which they share. -/
def discGames : List Game :=
  [⟨"first disc", "psx", "First", [discAsset "psx/first.cue" (some 1) true,
      discAsset "psx/shared.bin" none false], true⟩,
   ⟨"second disc", "psx", "Second", [discAsset "psx/second.cue" (some 2) true,
      discAsset "psx/shared.bin" (some 30) false], true⟩]

/-- A limit that leaves exactly the room the two games need. -/
def discSetup : Setup where
  games := {"first disc", "second disc"}
  paths := {"psx/first.cue", "psx/second.cue", "psx/shared.bin"}
  source path :=
    ⟨false, if path = "psx/first.cue" then 1 else if path = "psx/second.cue" then 2 else 30⟩
  container _ _ := none
  maxSizeBytes := 51
  minFreeBytes := 0

/-- The first disc was promoted by a process that died before it was finalized, with part of the
    shared one staged and a reservation that nobody holds any more. -/
def interruptedStore : Store where
  place path :=
    if path = "psx/first.cue" then ⟨some ⟨false, 1⟩, none, 0, 0, some true⟩
    else if path = "psx/shared.bin" then ⟨none, none, 12, 0, some false⟩
    else .nowhere
  member _ _ := 0
  complete _ := false
  stray := 0
  reserved := 0
  stale := 18
  free := 38

/-- Every source can be read, and has the content it had. -/
def sameContent : Answers where
  readable _ := true
  finalMatches _ _ := true
  stagedMatches _ _ := true

/-- Whether a batch has stopped for want of room. -/
def isShort : Except Stop Store → Bool
  | .error .noRoom => true
  | _ => false

/-- The download of a game was cancelled right after its promotion, and its partial data, which was
    only the recovery manifest, was discarded: its file is counted nowhere. -/
def cancelledStore : Store where
  place path :=
    if path = "psx/first.cue" then ⟨some ⟨false, 1⟩, none, 0, 0, none⟩ else .nowhere
  member _ _ := 0
  complete _ := false
  stray := 0
  reserved := 0
  stale := 0
  free := 1000

end RomCloud.Storage
