import RomCloud.Cache.Removal

namespace RomCloud.Cache.CacheService

open RomCloud.Lib

/-!
# Who owns the bytes of the cache

`Doomed` collects the paths that the removal of an entry takes, and `Owned` the nodes that lie at or
below a member, final or staged, of another entry.  A removal only loses nodes at or below doomed
paths, so it takes nothing that is owned as long as the two are `Apart`; then every game that was
cached stays cached, over any sequence of removals and evictions of other games.  They are not
always apart: an entry that has no members takes its recorded path, whoever owns it.

* `Shrinks` — what each stage of a removal does to the state;
* `takes_remove`, `takes_of_mem_evictLoop` — what a removal and an eviction take;
* `perform`, `run` — a sequence of operations, with the removals in it.
-/

variable (service : CacheService)

/-- A path that `deletePath` deletes. -/
structure Removable (tree : DirTree) (path : FsPath) : Prop where
  «exists» : tree.exists path = true
  isSymlink : tree.isSymlink path = false
  isWithin : service.isWithin path = true

/-- **What the removal of an entry takes.**  Owners are only counted by the text of a member's
    path, and not at all for the recorded path of an entry without members. -/
inductive Doomed (s : CacheState) (entry : CacheEntry) : FsPath → Prop
  | staged {game resolved : Game} {asset : GameAsset} {path : FsPath}
      (hgame : service.games entry.gameId = some game)
      (hresolved : service.resolvedGame s game (some entry) = .ok resolved)
      (hunfinished : entry.status ≠ .complete) (hasset : asset ∈ resolved.assets)
      (hsole : s.ownerCount asset.relativePath ≤ 1)
      (hpath : service.stagingPath resolved.system asset.relativePath = .ok path)
      (hexists : s.tree.exists path = true) : Doomed s entry path
  | part {game resolved : Game} {asset : GameAsset} {path : FsPath}
      (hgame : service.games entry.gameId = some game)
      (hresolved : service.resolvedGame s game (some entry) = .ok resolved)
      (hunfinished : entry.status ≠ .complete) (hasset : asset ∈ resolved.assets)
      (hsole : s.ownerCount asset.relativePath ≤ 1)
      (hpath : service.stagingPath resolved.system asset.relativePath = .ok path)
      (hexists : s.tree.exists (partPath path) = true)
      (hlink : s.tree.isSymlink (partPath path) = false) : Doomed s entry (partPath path)
  | member {game : Game} {member : CacheMember} {path : FsPath}
      (hgame : service.games entry.gameId = some game)
      (hmember : member ∈ s.listMembers entry.gameId)
      (hsole : s.ownerCount member.relativePath ≤ 1)
      (hpath : resolveCachePath service.cacheRoot game.system member.relativePath = .ok path)
      (hremovable : service.Removable s.tree path) : Doomed s entry path
  | nested {game : Game} {member : CacheMember} {direct : FsPath}
      (hgame : service.games entry.gameId = some game)
      (hmember : member ∈ s.listMembers entry.gameId)
      (hsole : s.ownerCount member.relativePath ≤ 1)
      (hdirect : resolveCachePath service.cacheRoot game.system member.relativePath = .ok direct)
      (hmissing : s.tree.exists direct = false) (hcontainer : s.tree.isDir entry.cachePath = true)
      (hremovable :
        service.Removable s.tree (entry.cachePath ++ [pathName member.relativePath])) :
      Doomed s entry (entry.cachePath ++ [pathName member.relativePath])
  | exposed {game : Game} {member : CacheMember} {direct path : FsPath}
      (hgame : service.games entry.gameId = some game)
      (hmember : member ∈ s.listMembers entry.gameId)
      (hsole : s.ownerCount member.relativePath ≤ 1)
      (hdirect : resolveCachePath service.cacheRoot game.system member.relativePath = .ok direct)
      (hdoomed : Doomed s entry path) (hbelow : path <+: direct)
      (hcontainer : s.tree.isDir entry.cachePath = true)
      (hremovable :
        service.Removable s.tree (entry.cachePath ++ [pathName member.relativePath])) :
      Doomed s entry (entry.cachePath ++ [pathName member.relativePath])
  | recorded
      (hnone : service.games entry.gameId = none ∨ s.listMembers entry.gameId = [])
      (hremovable : service.Removable s.tree entry.cachePath) : Doomed s entry entry.cachePath

/-- The paths of a member: its final path, its staged path, and that of its interrupted
transfer. -/
inductive MemberPath (tree : DirTree) (entry : CacheEntry) (game : Game) (member : CacheMember) :
    FsPath → Prop
  | final {path : FsPath} (h : service.cachedMemberPath tree entry game member = .ok path) :
      MemberPath tree entry game member path
  | staged {path : FsPath} (h : service.stagingPath game.system member.relativePath = .ok path) :
      MemberPath tree entry game member path
  | part {path : FsPath} (h : service.stagingPath game.system member.relativePath = .ok path) :
      MemberPath tree entry game member (partPath path)

/-- A path at or below one of a member of an entry other than that of a game. -/
def Owned (s : CacheState) (gameId : String) (x : FsPath) : Prop :=
  ∃ entry game member path, s.entries.get? entry.gameId = some entry ∧ entry.gameId ≠ gameId
    ∧ service.games entry.gameId = some game ∧ member ∈ s.listMembers entry.gameId
    ∧ service.MemberPath s.tree entry game member path ∧ path <+: x

/-- **When a removal is safe.**  Nothing that is there lies below both a doomed path and a path of
    another entry. -/
def Apart (s : CacheState) (gameId : String) : Prop :=
  ∀ entry, s.entries.get? gameId = some entry → ∀ path, service.Doomed s entry path →
    ∀ x, path <+: x → service.Owned s gameId x → s.tree.get? x = none

/-! ### What a removal does to the state -/

/-- A state that lost nodes below doomed paths, with its rows unchanged. -/
structure Shrinks (s₀ : CacheState) (entry : CacheEntry) (s : CacheState) : Prop where
  entries : s.entries = s₀.entries
  members : s.members = s₀.members
  tree : Shrunk (service.Doomed s₀ entry) s₀.tree s.tree

variable {service} {s₀ s : CacheState} {entry : CacheEntry}

theorem Shrinks.refl (s : CacheState) (entry : CacheEntry) : service.Shrinks s entry s :=
  ⟨rfl, rfl, Shrunk.refl s.tree⟩

theorem Shrinks.ownerCount (h : service.Shrinks s₀ entry s) (relativePath : String) :
    s.ownerCount relativePath = s₀.ownerCount relativePath := by
  unfold CacheState.ownerCount
  rw [h.members]

theorem Shrinks.listMembers (h : service.Shrinks s₀ entry s) (gameId : String) :
    s.listMembers gameId = s₀.listMembers gameId := by
  unfold CacheState.listMembers
  rw [h.members]

/-- What can be deleted could be deleted before. -/
theorem Removable.before {tree tree' : DirTree} {P : FsPath → Prop} {path : FsPath}
    (hshrunk : Shrunk P tree tree') (h : service.Removable tree' path) :
    service.Removable tree path := by
  have hsame := hshrunk.of_exists h.exists
  constructor
  · rw [← DirTree.exists_congr hsame]
    exact h.exists
  · rw [← DirTree.isSymlink_congr hsame]
    exact h.isSymlink
  · exact h.isWithin

/-- Deleting a doomed path. -/
theorem Shrinks.deletePath (h : service.Shrinks s₀ entry s) {path : FsPath}
    (hdoomed : service.Removable s₀.tree path → service.Doomed s₀ entry path) :
    service.Shrinks s₀ entry { s with tree := service.deletePath s.tree path } := by
  refine ⟨h.entries, h.members, ?_⟩
  show Shrunk _ _ (service.deletePath s.tree path)
  unfold CacheService.deletePath
  split
  · next hif =>
    simp only [Bool.and_eq_true, Bool.not_eq_true'] at hif
    have hremovable : service.Removable s.tree path := ⟨hif.1.1, hif.1.2, hif.2⟩
    have hpath := hdoomed (hremovable.before h.tree)
    split
    · exact h.tree.trans (Shrunk.rmtree s.tree hpath)
    · exact h.tree.trans (Shrunk.unlink s.tree hpath)
  · exact h.tree

/-- The path of a member, in either layout. -/
theorem cachedMemberPath_cases {tree : DirTree} {game : Game} {member : CacheMember}
    {path : FsPath} (h : service.cachedMemberPath tree entry game member = .ok path) :
    ∃ direct, resolveCachePath service.cacheRoot game.system member.relativePath = .ok direct
      ∧ (path = direct
        ∨ tree.exists direct = false ∧ tree.isDir entry.cachePath = true
          ∧ tree.exists path = true
          ∧ path = entry.cachePath ++ [pathName member.relativePath]) := by
  unfold cachedMemberPath cachedAssetPath at h
  obtain ⟨direct, hdirect, hpath⟩ := bind_eq_ok h
  refine ⟨direct, hdirect, ?_⟩
  simp only [pure, Except.pure, Except.ok.injEq] at hpath
  split at hpath
  · next hif =>
    simp only [Bool.and_eq_true, Bool.not_eq_true'] at hif
    subst hpath
    exact Or.inr ⟨hif.1.1, hif.1.2, hif.2, rfl⟩
  · exact Or.inl hpath.symm

/-- The path of a member whose only owner is the entry is doomed. -/
theorem doomed_of_member (hshrinks : service.Shrinks s₀ entry s) {game : Game}
    (hgame : service.games entry.gameId = some game) {member : CacheMember}
    (hmember : member ∈ s₀.listMembers entry.gameId)
    (hsole : s₀.ownerCount member.relativePath ≤ 1) {path : FsPath}
    (hpath : service.cachedMemberPath s.tree entry game member = .ok path)
    (hremovable : service.Removable s₀.tree path) : service.Doomed s₀ entry path := by
  obtain ⟨direct, hdirect, rfl | ⟨hmissing, hdir, -, rfl⟩⟩ := cachedMemberPath_cases hpath
  · exact .member hgame hmember hsole hdirect hremovable
  · have hcontainer : s₀.tree.isDir entry.cachePath = true := by
      rw [← DirTree.isDir_congr (hshrinks.tree.of_exists (DirTree.exists_of_isDir hdir))]
      exact hdir
    -- the own path is missing by now: it always was, or the removal took it
    cases hbefore : s₀.tree.exists direct with
    | false => exact .nested hgame hmember hsole hdirect hbefore hcontainer hremovable
    | true =>
      obtain ⟨q, hq, hbelow⟩ := hshrinks.tree.doomed_of_vanished hbefore hmissing
      exact .exposed hgame hmember hsole hdirect hq hbelow hcontainer hremovable

theorem Shrinks.removeMembers (h : service.Shrinks s₀ entry s) {game : Game}
    (hgame : service.games entry.gameId = some game) {members : List CacheMember}
    (hmembers : ∀ member ∈ members, member ∈ s₀.listMembers entry.gameId) :
    service.Shrinks s₀ entry (service.removeMembers s entry game members).state := by
  induction members generalizing s with
  | nil => exact h
  | cons member rest ih =>
    have hrest := fun m hm => hmembers m (List.mem_cons_of_mem _ hm)
    unfold CacheService.removeMembers
    split
    · exact ih h hrest
    · next hsole =>
      cases hpath : service.cachedMemberPath s.tree entry game member with
      | error e => exact h
      | ok path =>
        rw [h.ownerCount] at hsole
        apply ih _ hrest
        apply h.deletePath
        exact doomed_of_member h hgame (hmembers member List.mem_cons_self) (by omega) hpath

theorem Shrinks.removeFiles (h : service.Shrinks s₀ entry s) :
    service.Shrinks s₀ entry
      (service.removeFiles s entry (service.games entry.gameId)).state := by
  have hsame := h.listMembers entry.gameId
  unfold CacheService.removeFiles
  cases hgame : service.games entry.gameId with
  | none => exact h.deletePath (.recorded (Or.inl hgame))
  | some game =>
    cases hmembers : s.listMembers entry.gameId with
    | nil => exact h.deletePath (.recorded (Or.inr (hsame ▸ hmembers)))
    | cons member rest =>
      apply h.removeMembers hgame
      rw [← hsame, hmembers]
      exact fun m hm => hm

/-- The staged data of an asset, once it is discarded. -/
theorem Shrinks.discardStaged (h : service.Shrinks s₀ entry s) {staged : FsPath} {tree : DirTree}
    (hdoomed : s₀.tree.exists staged = true → service.Doomed s₀ entry staged)
    (hdiscard : CacheService.discardStaged s.tree staged = .ok tree) :
    service.Shrinks s₀ entry { s with tree := tree } := by
  refine ⟨h.entries, h.members, ?_⟩
  have hbefore : s.tree.exists staged = true → service.Doomed s₀ entry staged := by
    intro hexists
    apply hdoomed
    rw [← DirTree.exists_congr (h.tree.of_exists hexists)]
    exact hexists
  unfold CacheService.discardStaged at hdiscard
  split at hdiscard
  · next hdir =>
    split at hdiscard
    · cases hdiscard
    · cases hdiscard
      exact h.tree.trans (Shrunk.rmtree s.tree (hbefore (DirTree.exists_of_isDir hdir)))
  · split at hdiscard
    · next hexists =>
      cases hdiscard
      exact h.tree.trans (Shrunk.unlink s.tree (hbefore hexists))
    · cases hdiscard
      exact h.tree

/-- The file of an interrupted transfer, once it is discarded. -/
theorem Shrinks.discardPart (h : service.Shrinks s₀ entry s) {part : FsPath} {tree : DirTree}
    (hdoomed : s₀.tree.exists part = true → s₀.tree.isSymlink part = false →
      service.Doomed s₀ entry part)
    (hdiscard : CacheService.discardPart s.tree part = .ok tree) :
    service.Shrinks s₀ entry { s with tree := tree } := by
  refine ⟨h.entries, h.members, ?_⟩
  unfold CacheService.discardPart at hdiscard
  split at hdiscard
  · next hif =>
    simp only [Bool.and_eq_true, Bool.not_eq_true'] at hif
    have hsame := h.tree.of_exists hif.1
    split at hdiscard
    · cases hdiscard
    · cases hdiscard
      refine h.tree.trans (Shrunk.unlink s.tree (hdoomed ?_ ?_))
      · rw [← DirTree.exists_congr hsame]
        exact hif.1
      · rw [← DirTree.isSymlink_congr hsame]
        exact hif.2
  · cases hdiscard
    exact h.tree

theorem Shrinks.discardAsset (h : service.Shrinks s₀ entry s) {game resolved : Game}
    (hgame : service.games entry.gameId = some game)
    (hresolved : service.resolvedGame s₀ game (some entry) = .ok resolved)
    (hunfinished : entry.status ≠ .complete) {asset : GameAsset}
    (hasset : asset ∈ resolved.assets) (hsole : s₀.ownerCount asset.relativePath ≤ 1) :
    service.Shrinks s₀ entry (service.discardAsset s resolved.system asset).state := by
  unfold CacheService.discardAsset
  cases hpath : service.stagingPath resolved.system asset.relativePath with
  | error e => exact h
  | ok staged =>
    cases htree : CacheService.discardStaged s.tree staged with
    | error e =>
      simp only [htree]
      exact h
    | ok tree =>
      have hstaged := h.discardStaged
        (.staged hgame hresolved hunfinished hasset hsole hpath) htree
      cases hpart : CacheService.discardPart tree (partPath staged) with
      | error e =>
        simp only [htree, hpart]
        exact hstaged
      | ok tree' =>
        have hboth := hstaged.discardPart
          (.part hgame hresolved hunfinished hasset hsole hpath) hpart
        simp only [htree, hpart]
        exact ⟨hboth.entries, hboth.members, hboth.tree⟩

theorem Shrinks.discardStaging (h : service.Shrinks s₀ entry s) {game resolved : Game}
    (hgame : service.games entry.gameId = some game)
    (hresolved : service.resolvedGame s₀ game (some entry) = .ok resolved)
    (hunfinished : entry.status ≠ .complete) {preserve : List String} {assets : List GameAsset}
    (hassets : ∀ asset ∈ assets, asset ∈ resolved.assets)
    (hpreserve : ∀ asset ∈ assets, asset.relativePath ∉ preserve →
      s₀.ownerCount asset.relativePath ≤ 1) :
    service.Shrinks s₀ entry
      (service.discardStaging s resolved.system preserve assets).state := by
  induction assets generalizing s with
  | nil => exact h
  | cons asset rest ih =>
    have hrest {t : CacheState} (ht : service.Shrinks s₀ entry t) :
        service.Shrinks s₀ entry
          (service.discardStaging t resolved.system preserve rest).state :=
      ih ht (fun a ha => hassets a (List.mem_cons_of_mem _ ha))
        (fun a ha => hpreserve a (List.mem_cons_of_mem _ ha))
    unfold CacheService.discardStaging
    split
    · exact hrest h
    · next hkept =>
      have hfirst := h.discardAsset hgame hresolved hunfinished (hassets asset List.mem_cons_self)
        (hpreserve asset List.mem_cons_self hkept)
      rcases Outcome.andThen_eq_or (service.discardAsset s resolved.system asset)
        (fun t => service.discardStaging t resolved.system preserve rest) with hstop | hgo
      · rw [hstop]
        exact hfirst
      · rw [hgo]
        exact hrest hfirst

theorem Shrinks.discardUnfinished {resolved : Option Game}
    (hresolved : service.resolveForRemoval s₀ entry = .ok resolved) :
    service.Shrinks s₀ entry (service.discardUnfinished s₀ entry resolved).state := by
  unfold CacheService.discardUnfinished
  cases resolved with
  | none => exact Shrinks.refl s₀ entry
  | some closure =>
    simp only
    split
    · exact Shrinks.refl s₀ entry
    · next hunfinished =>
      unfold resolveForRemoval at hresolved
      cases hgame : service.games entry.gameId with
      | none =>
        rw [hgame] at hresolved
        cases hresolved
      | some game =>
        rw [hgame] at hresolved
        obtain ⟨found, hfound, hrest⟩ := bind_eq_ok hresolved
        obtain ⟨-, -, hclosure⟩ := bind_eq_ok hrest
        cases hclosure
        apply (Shrinks.refl s₀ entry).discardStaging hgame hfound hunfinished (fun a ha => ha)
        intro asset hasset hkept
        by_contra hshared
        exact hkept (List.mem_map.mpr
          ⟨asset, List.mem_filter.mpr ⟨hasset, decide_eq_true (by omega)⟩, rfl⟩)

variable (service) in
/-- **What one removal takes.**  Nodes below doomed paths of the entry, and then its rows. -/
def Takes (s : CacheState) (gameId : String) (s' : CacheState) : Prop :=
  s' = s ∨ ∃ entry t, s.entries.get? gameId = some entry ∧ service.Shrinks s entry t
    ∧ (s' = t ∨ s' = t.delete gameId)

/-- The files of an entry, and then its rows. -/
theorem takes_removeFiles {gameId : String} (hentry : s₀.entries.get? gameId = some entry)
    (h : service.Shrinks s₀ entry s) :
    service.Takes s₀ gameId ((service.removeFiles s entry (service.games gameId)).andThen
      fun t => ⟨t.delete gameId, .ok ()⟩).state := by
  obtain rfl := Table.key_of_get? hentry
  refine Or.inr ⟨entry, _, hentry, h.removeFiles, ?_⟩
  rcases Outcome.andThen_eq_or (service.removeFiles s entry (service.games entry.gameId))
    (fun t => ⟨t.delete entry.gameId, .ok ()⟩) with hstop | hgo
  · exact Or.inl (by rw [hstop])
  · exact Or.inr (by rw [hgo])

theorem takes_remove (s : CacheState) (gameId : String) (force : Bool) :
    service.Takes s gameId (service.remove s gameId force).state := by
  unfold remove
  cases hentry : s.entries.get? gameId with
  | none => exact Or.inl rfl
  | some entry =>
    simp only
    split
    · exact Or.inl rfl
    · cases hresolved : service.resolveForRemoval s entry with
      | error e => exact Or.inl rfl
      | ok resolved =>
        have hdiscard := Shrinks.discardUnfinished hresolved
        rcases Outcome.andThen_eq_or (service.discardUnfinished s entry resolved)
          (fun t => (service.removeFiles t entry (service.games gameId)).andThen
            fun t => ⟨t.delete gameId, .ok ()⟩) with hstop | hgo
        · exact Or.inr ⟨entry, _, hentry, hdiscard, Or.inl (congrArg Outcome.state hstop)⟩
        · have htakes := takes_removeFiles hentry hdiscard
          rw [← congrArg Outcome.state hgo] at htakes
          exact htakes

variable (service) in
/-- Removals that follow each other, from one state to another. -/
inductive Trace : CacheState → List Removal → CacheState → Prop
  | nil (s : CacheState) : Trace s [] s
  | cons {s s' t : CacheState} {gameId : String} {later : List Removal}
      (htakes : service.Takes s gameId s') (hlater : Trace s' later t) :
      Trace s (⟨s, gameId, s'⟩ :: later) t

/-- An eviction is a sequence of removals. -/
theorem trace_evictLoop (bytesNeeded : ℕ) (protectedIds : List String) (admissionLocked : Bool)
    (s : CacheState) (candidates : List CacheEntry) :
    service.Trace s
      (service.evictLoop bytesNeeded protectedIds admissionLocked s candidates).removals
      (service.evictLoop bytesNeeded protectedIds admissionLocked s candidates).state := by
  induction candidates generalizing s with
  | nil => exact .nil s
  | cons candidate rest ih =>
    unfold evictLoop
    split
    · exact .nil s
    · split
      · exact ih s
      · cases hentry : s.entries.get? candidate.gameId with
        | none => exact ih s
        | some entry =>
          simp only
          split
          · exact ih s
          · rcases hlock : service.lockForEviction s entry with e | (- | -)
            · exact .nil s
            · exact ih s
            · have hid := Table.key_of_get? hentry
              have hnothing : service.Shrinks s entry s := Shrinks.refl s entry
              have htakes := takes_removeFiles (hid ▸ hentry) hnothing
              simp only
              split
              · exact .cons htakes (.nil _)
              · exact .cons htakes (ih _)

/-! ### What a removal keeps -/

variable {gameId : String} {s' : CacheState}

theorem Takes.tree (h : service.Takes s gameId s') :
    Shrunk (fun path => ∃ entry, s.entries.get? gameId = some entry ∧ service.Doomed s entry path)
      s.tree s'.tree := by
  have htree (entry : CacheEntry) (t : CacheState) (hentry : s.entries.get? gameId = some entry)
      (h : service.Shrinks s entry t) :
      Shrunk (fun path => ∃ entry, s.entries.get? gameId = some entry
        ∧ service.Doomed s entry path) s.tree t.tree := by
    intro x
    rcases h.tree x with hsame | ⟨hgone, path, hdoomed, hbelow⟩
    · exact Or.inl hsame
    · exact Or.inr ⟨hgone, path, ⟨entry, hentry, hdoomed⟩, hbelow⟩
  obtain rfl | ⟨entry, t, hentry, hshrinks, rfl | rfl⟩ := h
  · exact Shrunk.refl _
  · exact htree entry _ hentry hshrinks
  · exact htree entry t hentry hshrinks

/-- The rows of the other entries stay. -/
theorem Takes.rows (h : service.Takes s gameId s') {id : String} (hid : id ≠ gameId) :
    s'.entries.get? id = s.entries.get? id
      ∧ ∀ member, member ∈ s'.listMembers id ↔ member ∈ s.listMembers id := by
  obtain rfl | ⟨entry, t, -, hshrinks, rfl | rfl⟩ := h
  · exact ⟨rfl, fun member => Iff.rfl⟩
  · rw [hshrinks.entries, hshrinks.listMembers]
    exact ⟨rfl, fun member => Iff.rfl⟩
  · rw [CacheState.get?_entries_delete, if_neg hid, hshrinks.entries]
    refine ⟨rfl, fun member => ?_⟩
    rw [CacheState.mem_listMembers_delete hid, hshrinks.listMembers]

/-- What is owned is safe from what is doomed. -/
theorem Apart.safe (h : service.Apart s gameId) {x : FsPath} (howned : service.Owned s gameId x) :
    ∀ path, (∃ entry, s.entries.get? gameId = some entry ∧ service.Doomed s entry path) →
      path <+: x → s.tree.get? x = none := by
  rintro path ⟨entry, hentry, hdoomed⟩ hbelow
  exact h entry hentry path hdoomed x hbelow howned

/-- The nodes that another entry owns stay. -/
theorem get?_of_owned (h : service.Takes s gameId s') (hapart : service.Apart s gameId)
    {x : FsPath} (howned : service.Owned s gameId x) : s'.tree.get? x = s.tree.get? x :=
  h.tree.get?_of_safe (hapart.safe howned)

/-- A member of another entry that is there keeps its path. -/
theorem cachedMemberPath_of_owned (h : service.Takes s gameId s')
    (hapart : service.Apart s gameId) {game : Game} {member : CacheMember} {path : FsPath}
    (hpath : service.cachedMemberPath s.tree entry game member = .ok path)
    (hexists : s.tree.exists path = true) (howned : service.Owned s gameId path) :
    service.cachedMemberPath s'.tree entry game member = .ok path := by
  have hkept := get?_of_owned h hapart howned
  obtain ⟨direct, hdirect, rfl | ⟨hmissing, hdir, -, rfl⟩⟩ := cachedMemberPath_cases hpath
  · unfold cachedMemberPath cachedAssetPath
    show (resolveCachePath service.cacheRoot game.system member.relativePath >>= _) = _
    rw [hdirect, ok_bind, DirTree.exists_congr hkept, hexists]
    rfl
  · have hcontainer := h.tree.get?_above_of_safe (List.prefix_append _ _) hexists
      (hapart.safe howned)
    unfold cachedMemberPath cachedAssetPath
    show (resolveCachePath service.cacheRoot game.system member.relativePath >>= _) = _
    rw [hdirect, ok_bind, h.tree.not_exists hmissing, DirTree.isDir_congr hcontainer, hdir]
    show pure (if !false && true && s'.tree.exists
      (entry.cachePath ++ [pathName member.relativePath]) then _ else _) = _
    rw [DirTree.exists_congr hkept, hexists]
    rfl

/-- A member of another entry that is there stays there. -/
theorem memberPresent_of_owned (h : service.Takes s gameId s') (hapart : service.Apart s gameId)
    {game : Game} {member : CacheMember} (hentry : s.entries.get? entry.gameId = some entry)
    (hother : entry.gameId ≠ gameId) (hgame : service.games entry.gameId = some game)
    (hmember : member ∈ s.listMembers entry.gameId)
    (hpresent : service.memberPresent s.tree entry game member = .ok true) :
    service.memberPresent s'.tree entry game member = .ok true := by
  obtain ⟨path, hpath, hthere⟩ := bind_eq_ok hpresent
  simp only [pure, Except.pure, Except.ok.injEq, Bool.and_eq_true, Bool.not_eq_true'] at hthere
  obtain ⟨⟨hexists, hlink⟩, hsize⟩ := hthere
  have howned (x : FsPath) (hx : path <+: x) : service.Owned s gameId x :=
    ⟨entry, game, member, path, hentry, hother, hgame, hmember, .final hpath, hx⟩
  have hkept (x : FsPath) (hx : path <+: x) : s'.tree.get? x = s.tree.get? x :=
    get?_of_owned h hapart (howned x hx)
  have hpath' := cachedMemberPath_of_owned h hapart hpath hexists (howned path List.prefix_rfl)
  have hsame := hkept path List.prefix_rfl
  unfold memberPresent
  rw [hpath', ok_bind, DirTree.exists_congr hsame, DirTree.isSymlink_congr hsame,
    DirTree.size_congr hkept, hexists, hlink, hsize]
  rfl

/-- **One removal.**  A game that was cached stays cached when another is removed apart from it. -/
theorem isCached_of_takes (h : service.Takes s gameId s') (hapart : service.Apart s gameId)
    {id : String} (hid : id ≠ gameId) (hcached : service.isCached s id = .ok true) :
    service.isCached s' id = .ok true := by
  obtain ⟨entry, game, hentry, hgame, hcomplete, hresolved, ⟨primary, hprimary, hfirst⟩, hall⟩ :=
    (isCached_eq_ok_iff service).mp hcached
  obtain rfl := Table.key_of_get? hentry
  obtain ⟨hentries, hmembers⟩ := h.rows hid
  refine (isCached_eq_ok_iff service).mpr ⟨entry, game, hentries.trans hentry, hgame, hcomplete,
    hresolved, ⟨primary, (hmembers primary).mpr hprimary, hfirst⟩, ?_⟩
  intro member hmember
  have hmember' := (hmembers member).mp hmember
  exact memberPresent_of_owned h hapart hentry hid hgame hmember' (hall member hmember')

/-! ### Sequences of operations -/

/-- The operations that take games out of the cache, and the pins. -/
inductive Action
  | remove (gameId : String) (force : Bool)
  | evict (bytesNeeded : ℕ) (protectedIds : List String) (admissionLocked : Bool)
  | pin (gameId now : String)
  | unpin (gameId : String)

variable (service) in
/-- What an operation leaves, and the removals it made. -/
def perform (s : CacheState) : Action → CacheState × List Removal
  | .remove gameId force =>
    let after := (service.remove s gameId force).state
    (after, [⟨s, gameId, after⟩])
  | .evict bytesNeeded protectedIds admissionLocked =>
    let outcome := service.evict s bytesNeeded protectedIds admissionLocked
    (outcome.state, outcome.removals)
  | .pin gameId now => ((service.pin s gameId now).state, [])
  | .unpin gameId => (CacheService.unpin s gameId, [])

variable (service) in
/-- A sequence of operations, whether they raise or not. -/
def run (s : CacheState) : List Action → CacheState × List Removal
  | [] => (s, [])
  | action :: rest =>
    let first := service.perform s action
    let later := run first.1 rest
    (later.1, first.2 ++ later.2)

/-- A game stays cached when its entry keeps what `is_cached` reads of it. -/
theorem isCached_of_entry {id : String} (hcached : service.isCached s id = .ok true)
    (htree : s'.tree = s.tree)
    (hmembers : ∀ member, member ∈ s'.listMembers id ↔ member ∈ s.listMembers id)
    (hentries : ∀ entry, s.entries.get? id = some entry → entry.status = .complete →
      ∃ pinned, s'.entries.get? id = some { entry with isPinned := pinned }) :
    service.isCached s' id = .ok true := by
  obtain ⟨entry, game, hentry, hgame, hcomplete, hresolved, ⟨primary, hprimary, hfirst⟩, hall⟩ :=
    (isCached_eq_ok_iff service).mp hcached
  obtain ⟨pinned, hentry'⟩ := hentries entry hentry hcomplete
  refine (isCached_eq_ok_iff service).mpr ⟨{ entry with isPinned := pinned }, game, hentry', hgame,
    hcomplete, hresolved, ⟨primary, (hmembers primary).mpr hprimary, hfirst⟩, ?_⟩
  intro member hmember
  rw [htree]
  exact hall member ((hmembers member).mp hmember)

theorem isCached_setPinned {id : String} (hentry : s.entries.get? entry.gameId = some entry)
    (pinned : Bool) (hcached : service.isCached s id = .ok true) :
    service.isCached (setPinned s entry pinned) id = .ok true := by
  refine isCached_of_entry hcached rfl (fun member => Iff.rfl) ?_
  intro found hfound _
  show ∃ pinned', (s.entries.put { entry with isPinned := pinned }).get? id = _
  rw [Table.get?_put]
  by_cases hid : id = entry.gameId
  · rw [hid, hentry] at hfound
    cases hfound
    exact ⟨pinned, if_pos hid⟩
  · exact ⟨found.isPinned, (if_neg hid).trans hfound⟩

theorem gameId_of_undownloadedPin {now : String}
    (h : service.undownloadedPin gameId now = .ok entry) : entry.gameId = gameId := by
  unfold undownloadedPin at h
  split at h
  · cases h
  · obtain ⟨-, -, hrest⟩ := bind_eq_ok h
    split at hrest
    · cases hrest
    · obtain ⟨path, -, hentry⟩ := bind_eq_ok hrest
      cases hentry
      rfl

theorem isCached_pin {id now : String} (hcached : service.isCached s id = .ok true) :
    service.isCached (service.pin s gameId now).state id = .ok true := by
  unfold pin
  cases hentry : s.entries.get? gameId with
  | some entry =>
    obtain rfl := Table.key_of_get? hentry
    exact isCached_setPinned hentry true hcached
  | none =>
    cases hpin : service.undownloadedPin gameId now with
    | error e => exact hcached
    | ok entry =>
      obtain rfl := gameId_of_undownloadedPin hpin
      refine isCached_of_entry hcached rfl (fun member => Iff.rfl) ?_
      intro found hfound _
      refine ⟨found.isPinned, ?_⟩
      show (s.entries.put entry).get? id = _
      rw [Table.get?_put, if_neg]
      · exact hfound
      · intro hid
        rw [hid, hentry] at hfound
        cases hfound

theorem isCached_unpin {id : String} (hcached : service.isCached s id = .ok true) :
    service.isCached (unpin s gameId) id = .ok true := by
  unfold unpin
  cases hentry : s.entries.get? gameId with
  | none => exact hcached
  | some entry =>
    obtain rfl := Table.key_of_get? hentry
    simp only
    split
    · next hundownloaded =>
      -- the entry of the game that is cached is complete, so it is another
      have hid : id ≠ entry.gameId := by
        intro hid
        obtain ⟨found, -, hfound, -, hcomplete, -⟩ := (isCached_eq_ok_iff service).mp hcached
        rw [hid, hentry] at hfound
        cases hfound
        exact absurd (hundownloaded.1.symm.trans hcomplete) (by simp)
      refine isCached_of_entry hcached rfl ?_ ?_
      · exact fun member => CacheState.mem_listMembers_delete hid
      · intro found hfound _
        rw [CacheState.get?_entries_delete, if_neg hid]
        exact ⟨found.isPinned, hfound⟩
    · exact isCached_setPinned hentry false hcached

/-! ### Over a whole run -/

theorem isCached_of_trace {removals : List Removal} {id : String}
    (h : service.Trace s removals s')
    (hapart : ∀ removal ∈ removals, service.Apart removal.before removal.gameId)
    (hother : ∀ removal ∈ removals, id ≠ removal.gameId)
    (hcached : service.isCached s id = .ok true) : service.isCached s' id = .ok true := by
  induction h with
  | nil => exact hcached
  | cons htakes _ ih =>
    rw [List.forall_mem_cons] at hapart hother
    exact ih hapart.2 hother.2 (isCached_of_takes htakes hapart.1 hother.1 hcached)

theorem get?_of_mem_trace {removals : List Removal} (h : service.Trace s removals s')
    (hapart : ∀ removal ∈ removals, service.Apart removal.before removal.gameId)
    {removal : Removal} (hmem : removal ∈ removals) {x : FsPath}
    (howned : service.Owned removal.before removal.gameId x) :
    removal.after.tree.get? x = removal.before.tree.get? x := by
  induction h with
  | nil => exact absurd hmem List.not_mem_nil
  | cons htakes _ ih =>
    rw [List.forall_mem_cons] at hapart
    rcases List.mem_cons.mp hmem with rfl | hlater
    · exact get?_of_owned htakes hapart.1 howned
    · exact ih hapart.2 hlater

/-- An operation is a sequence of removals, and the pins take nothing. -/
theorem perform_spec (s : CacheState) (action : Action) :
    service.Trace s (service.perform s action).2 (service.perform s action).1
      ∨ (service.perform s action).2 = []
        ∧ ∀ id, service.isCached s id = .ok true →
          service.isCached (service.perform s action).1 id = .ok true := by
  cases action with
  | remove gameId force => exact Or.inl (.cons (takes_remove s gameId force) (.nil _))
  | evict bytesNeeded protectedIds admissionLocked =>
    exact Or.inl (trace_evictLoop bytesNeeded _ admissionLocked s _)
  | pin gameId now => exact Or.inr ⟨rfl, fun id => isCached_pin⟩
  | unpin gameId => exact Or.inr ⟨rfl, fun id => isCached_unpin⟩

/-- A game with one asset. -/
def singleAsset (id filename relativePath : String) : Game where
  id := id
  system := "psx"
  title := id
  assets := [⟨filename, relativePath, none, true⟩]
  isEligible := true

/-- A cache of a playlist, of its disc, and of a game by itself. -/
def discService : CacheService where
  cacheRoot := ["cache"]
  games := fun id =>
    if id = "playlist" then some (singleAsset id "rpg.m3u" "psx/rpg.m3u")
    else if id = "disc" then some (singleAsset id "rpg.chd" "psx/rpg.chd")
    else if id = "tetris" then some (singleAsset id "tetris.chd" "psx/tetris.chd")
    else none
  dependencies := none
  coordinated := false
  locked := fun _ => false
  maxSizeBytes := 1000
  minFreeBytes := 0
  freeBytes := fun _ => 1000
  fitsCurrent := fun _ _ => true

/-- The entry of a game that is completely cached. -/
def cachedEntry (id name : String) : CacheEntry where
  gameId := id
  cachePath := ["cache", "psx", name]
  status := .complete
  lastAccessed := "noon"
  sizeBytes := 9
  isPinned := false
  membershipResolved := true

/-- The playlist with its disc, and the game by itself, completely cached. -/
def discState : CacheState where
  entries := (∅ : Table CacheEntry CacheEntry.gameId).putAll
    [cachedEntry "playlist" "rpg.m3u", cachedEntry "tetris" "tetris.chd"]
  members := (∅ : Table CacheMember CacheMember.key).putAll
    [⟨"playlist", "psx/rpg.m3u", some 1, 1, true⟩, ⟨"playlist", "psx/rpg.chd", some 8, 8, false⟩,
      ⟨"tetris", "psx/tetris.chd", some 9, 9, true⟩]
  tree := ((((∅ : DirTree).insert ["cache"] .directory).insert ["cache", "psx"] .directory).insert
    ["cache", "psx", "rpg.m3u"] (.file 1)).insert ["cache", "psx", "rpg.chd"] (.file 8) |>.insert
    ["cache", "psx", "tetris.chd"] (.file 9)
  stagingRecords := []
  activeLaunches := []

/-- The only member of the game by itself. -/
def tetrisFile : FsPath := ["cache", "psx", "tetris.chd"]

theorem eq_tetrisFile_of_doomed {path : FsPath}
    (h : discService.Doomed discState (cachedEntry "tetris" "tetris.chd") path) :
    path = tetrisFile := by
  have hcontainer : discState.tree.isDir (cachedEntry "tetris" "tetris.chd").cachePath = false := by
    decide +kernel
  have hmembers : discState.listMembers "tetris" =
      [⟨"tetris", "psx/tetris.chd", some 9, 9, true⟩] := by
    decide +kernel
  cases h with
  | staged _ _ hunfinished => exact absurd rfl hunfinished
  | part _ _ hunfinished => exact absurd rfl hunfinished
  | member hgame hmember _ hpath =>
    have hmember' := List.mem_singleton.mp (hmembers ▸ hmember)
    have hresolve : resolveCachePath ["cache"] "psx" "psx/tetris.chd" = .ok tetrisFile := rfl
    subst hmember'
    cases hgame
    have hsame : Except.ok tetrisFile = Except.ok path := hresolve.symm.trans hpath
    cases hsame
    rfl
  | nested _ _ _ _ _ hdir =>
    rw [hcontainer] at hdir
    cases hdir
  | exposed _ _ _ _ _ _ hdir =>
    rw [hcontainer] at hdir
    cases hdir
  | recorded hnone =>
    rcases hnone with hgame | hempty
    · cases hgame
    · exact absurd (hmembers.symm.trans hempty) (by simp)

theorem not_owned_tetrisFile : ¬ discService.Owned discState "tetris" tetrisFile := by
  rintro ⟨entry, game, member, path, hentry, hother, hgame, hmember, hpath, hbelow⟩
  have hkeys : discState.entries.keys = ["playlist", "tetris"] := by decide +kernel
  have hmembers : discState.listMembers "playlist" =
      [⟨"playlist", "psx/rpg.m3u", some 1, 1, true⟩,
        ⟨"playlist", "psx/rpg.chd", some 8, 8, false⟩] := by
    decide +kernel
  have hplaylist : discState.entries.get? "playlist" = some (cachedEntry "playlist" "rpg.m3u") := by
    decide +kernel
  have hid : entry.gameId = "playlist" := by
    have hmem := (Table.mem_keys_iff discState.entries entry.gameId).mpr ⟨entry, hentry⟩
    rw [hkeys] at hmem
    simpa [hother] using hmem
  rw [hid] at hentry hgame hmember
  rw [hplaylist] at hentry
  rw [hmembers] at hmember
  cases hentry
  cases hgame
  simp only [List.mem_cons, List.not_mem_nil, or_false] at hmember
  rcases hmember with rfl | rfl
  · cases hpath with
    | final h => cases h; exact absurd hbelow (by decide +kernel)
    | staged h => cases h; exact absurd hbelow (by decide +kernel)
    | part h => cases h; exact absurd hbelow (by decide +kernel)
  · cases hpath with
    | final h => cases h; exact absurd hbelow (by decide +kernel)
    | staged h => cases h; exact absurd hbelow (by decide +kernel)
    | part h => cases h; exact absurd hbelow (by decide +kernel)

/-- The game by itself lies apart from the playlist and its disc. -/
theorem apart_tetris : discService.Apart discState "tetris" := by
  intro entry hentry path hdoomed x hbelow howned
  have hfound : discState.entries.get? "tetris" = some (cachedEntry "tetris" "tetris.chd") := by
    decide +kernel
  rw [hfound] at hentry
  cases hentry
  have hpath := eq_tetrisFile_of_doomed hdoomed
  subst hpath
  by_contra hthere
  obtain ⟨node, hnode⟩ := Option.ne_none_iff_exists'.mp hthere
  have hkeys : ∀ x ∈ discState.tree.keys, tetrisFile <+: x → x = tetrisFile := by decide +kernel
  have hx := hkeys x ((discState.tree.mem_keys_iff x).mpr ⟨node, hnode⟩) hbelow
  rw [hx] at howned
  exact not_owned_tetrisFile howned

end RomCloud.Cache.CacheService
