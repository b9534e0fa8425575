import RomCloud.Lib.DirTree
import RomCloud.Lib.Machine
import RomCloud.Lib.Names

namespace RomCloud.SaveSync.SaveTree

open RomCloud.Lib

/-!
# The whole-tree promotion and its recovery

What stands beside a save root, as SaveSync v1 and v2 left it and as the compatibility recovery
finds it.

* `Folder` — the directory that holds the save root, by names;
* `recover` — `recover_interrupted_commit`: its folder afterwards, and what it raised;
* `Promotion`, `promoting` — `promote_staging` step by step, stopped at any of them, and what others
  do in the folder afterwards;
* `Arisen` — the invariant of these runs.

The content of a directory is a value of its own, so that a copy of it is complete if it is equal.
-/

variable {α : Type}

/-! ### The folder -/

/-- What a name stands for.  A link is known by what it leads to. -/
inductive Node (α : Type)
  | tree (content : α)
  | file
  | link (target : LinkTarget)
deriving DecidableEq

/-- A name, and whether a promotion of SaveSync has made what it stands for. -/
structure Entry (α : Type) where
  node : Node α
  promoted : Bool
deriving DecidableEq

/-- The directory that holds the save root. -/
abbrev Folder (α : Type) := Dict String (Entry α)

namespace Folder

/-- `path.exists()`, which follows links. -/
def «exists» (d : Folder α) (name : String) : Bool :=
  match (d.get? name).map Entry.node with
  | none => false
  | some (.link .missing) => false
  | some _ => true

/-- `path.is_dir()`, which follows links. -/
def isDir (d : Folder α) (name : String) : Bool :=
  match (d.get? name).map Entry.node with
  | some (.tree _) => true
  | some (.link .directory) => true
  | _ => false

/-- `path.is_symlink()`. -/
def isSymlink (d : Folder α) (name : String) : Bool :=
  match (d.get? name).map Entry.node with
  | some (.link _) => true
  | _ => false

/-- `parent.glob(pattern)`, sorted. -/
def glob (d : Folder α) (pattern : String) : List String :=
  d.keys.filter fun name => fnmatch name.toList pattern.toList

/-- `os.rename`, of a directory.  It takes no place that is not free: where one is taken below, it
is by a link that leads nowhere. -/
def rename (d : Folder α) (source target : String) : Option (Folder α) :=
  match d.get? source, d.get? target with
  | some entry, none => some ((d.erase source).insert target entry)
  | _, _ => none

end Folder

/-! ### The names -/

/-- `.{name}.staging-*` -/
def stagingPattern (root : String) : String := "." ++ root ++ ".staging-*"

/-- `{name}.previous-*` -/
def legacyPattern (root : String) : String := root ++ ".previous-*"

/-- `{name}.previous` -/
def previousName (root : String) : String := root ++ ".previous"

def stagingDirs (root : String) (d : Folder α) : List String := d.glob (stagingPattern root)

def backupDirs (root : String) (d : Folder α) : List String :=
  (if d.exists (previousName root) || d.isSymlink (previousName root) then [previousName root]
    else []) ++ d.glob (legacyPattern root)

/-! ### The recovery -/

/-- What `recover_interrupted_commit` raises: for a path that is a link or no directory, for several
backups, where a rename fails, and where a pattern is refused. -/
inductive RecoverError
  | symlinked (name : String)
  | notDirectory (name : String)
  | ambiguous (backups : List String)
  | rename (target : String)
  | pattern
deriving DecidableEq

/-- `_validate_legacy_transaction_tree`. -/
def validate (d : Folder α) (name : String) : Option RecoverError :=
  if d.isSymlink name then some (.symlinked name)
  else if d.isDir name then none
  else some (.notDirectory name)

/-- `_remove_legacy_transaction_tree`, of one path after the other.  What was removed before an error
stays removed. -/
def removeEach : List String → Folder α → Folder α × Option RecoverError
  | [], d => (d, none)
  | name :: rest, d =>
    if !d.exists name && !d.isSymlink name then removeEach rest d
    else
      match validate d name with
      | some error => (d, some error)
      | none => removeEach rest (d.erase name)

/-- Whether a pattern with two stars in a row is refused: the releases of Python differ in this. -/
def refused (strict : Bool) (root : String) : Bool :=
  strict && decide (['*', '*'] <:+: root.toList)

/-- `recover_interrupted_commit`. -/
def recover (strict : Bool) (root : String) (d : Folder α) : Folder α × Option RecoverError :=
  if refused strict root then (d, some .pattern)
  else if d.exists root then removeEach (stagingDirs root d ++ backupDirs root d) d
  else
    match backupDirs root d with
    | [] => removeEach (stagingDirs root d) d
    | [backup] =>
      match validate d backup with
      | some error => (d, some error)
      | none =>
        match d.rename backup root with
        | none => (d, some (.rename root))
        | some restored => removeEach (stagingDirs root d) restored
    | backups => (d, some (.ambiguous backups))

/-- The folder after some calls. -/
def recoverTimes (strict : Bool) (root : String) : ℕ → Folder α → Folder α
  | 0, d => d
  | times + 1, d => recoverTimes strict root times (recover strict root d).1

/-! ### The promotion -/

/-- A promotion: the name of the save root, its dataset if there is one, the new dataset, and the
eight digits of the staging directory. -/
structure Promotion (α : Type) where
  root : String
  old : Option α
  new : α
  suffix : String
  eight : suffix.length = 8

namespace Promotion

/-- The name of the staging directory. -/
def staging (P : Promotion α) : String := "." ++ P.root ++ ".staging-" ++ P.suffix

def previous (P : Promotion α) : String := previousName P.root

/-- A complete dataset: the old one, or the new one. -/
def Complete (P : Promotion α) (content : α) : Prop := P.old = some content ∨ P.new = content

end Promotion

/-- Where a promotion is. -/
inductive Point
  | preparing
  | ready
  | cleared
  | aside
  | placed
  | restored
deriving DecidableEq

/-- The folder, where the promotion is, whether it was stopped there, and whether others have
written the save root since. -/
structure PromotionState (α : Type) where
  folder : Folder α
  point : Point
  stopped : Bool
  rewritten : Bool

/-- The steps: the new dataset is staged; a part of the previous generation is removed, or all of it;
the staged dataset takes its place, with or without the old one set aside, or the old one is
restored.  After a stop, others add files of their own, and write a save root that is missing. -/
inductive PromotionAction (α : Type)
  | stage
  | clearPart (rest : α)
  | clear
  | place
  | setAside
  | restore
  | stop
  | user (name : String) (node : Node α)
  | other (node : Node α)

/-- `d.insert name ⟨node, promoted⟩`, at the next point. -/
def PromotionState.move (s : PromotionState α) (d : Folder α) (point : Point) : PromotionState α :=
  { s with folder := d, point := point }

/-- `promote_staging`, and what follows it. -/
def promotionStep (P : Promotion α) (s : PromotionState α) :
    PromotionAction α → Option (PromotionState α)
  | .stage =>
    if s.stopped = false ∧ s.point = .preparing then
      some (s.move (s.folder.insert P.staging ⟨.tree P.new, true⟩) .ready)
    else none
  | .clearPart rest =>
    if s.stopped = false ∧ s.point = .ready then
      match s.folder.get? P.previous with
      | some ⟨.tree _, promoted⟩ =>
        some (s.move (s.folder.insert P.previous ⟨.tree rest, promoted⟩) .ready)
      | _ => none
    else none
  | .clear =>
    if s.stopped = false ∧ s.point = .ready then
      if s.folder.exists P.previous then
        match s.folder.get? P.previous with
        | some ⟨.tree _, _⟩ => some (s.move (s.folder.erase P.previous) .cleared)
        | _ => none
      else some (s.move s.folder .cleared)
    else none
  | .setAside =>
    if s.stopped = false ∧ s.point = .cleared ∧ s.folder.exists P.root = true then
      match s.folder.get? P.root, s.folder.get? P.previous with
      | some entry, none =>
        some (s.move ((s.folder.erase P.root).insert P.previous ⟨entry.node, true⟩) .aside)
      | _, _ => none
    else none
  | .place =>
    if s.stopped = false ∧
        (s.point = .cleared ∧ s.folder.exists P.root = false ∨ s.point = .aside) then
      (s.folder.rename P.staging P.root).map (s.move · .placed)
    else none
  | .restore =>
    if s.stopped = false ∧ s.point = .aside then
      (s.folder.rename P.previous P.root).map (s.move · .restored)
    else none
  | .stop => some { s with stopped := true }
  | .user name node =>
    if s.stopped = true ∧ name ≠ P.root ∧ s.folder.get? name = none then
      some { s with folder := s.folder.insert name ⟨node, false⟩ }
    else none
  | .other node =>
    if s.stopped = true ∧ (s.rewritten = true ∨ s.folder.get? P.root = none) then
      some { s with folder := s.folder.insert P.root ⟨node, false⟩, rewritten := true }
    else none

/-- Before a promotion: the save root is the old dataset, if there is one, what SaveSync has made are
directories, and anything else may stand beside it. -/
structure Initial (P : Promotion α) (s : PromotionState α) : Prop where
  point : s.point = .preparing
  stopped : s.stopped = false
  rewritten : s.rewritten = false
  root : (s.folder.get? P.root).map Entry.node = P.old.map Node.tree
  staging : ∀ entry, s.folder.get? P.staging = some entry → entry.promoted = true
  trees : ∀ name entry, s.folder.get? name = some entry → entry.promoted = true →
    ∃ content, entry.node = .tree content

/-- The promotion of a dataset. -/
def promoting (P : Promotion α) : Machine (PromotionState α) (PromotionAction α) where
  init := Initial P
  step := promotionStep P

/-! ### What the runs keep -/

/-- There is a dataset: the old one, or the new one once it was placed. -/
def PromotionState.Live (P : Promotion α) (s : PromotionState α) : Prop :=
  P.old.isSome = true ∨ s.point = .placed

/-- The save root at a point of the promotion, unless others have written it. -/
def RootAt (P : Promotion α) (s : PromotionState α) : Prop :=
  match s.point with
  | .preparing | .ready | .cleared =>
    (s.folder.get? P.root).map Entry.node = P.old.map Node.tree
  | .aside => s.folder.get? P.root = none
  | .placed => s.folder.get? P.root = some ⟨.tree P.new, true⟩
  | .restored => ∃ old, P.old = some old ∧ s.folder.get? P.root = some ⟨.tree old, true⟩

/-- **The invariant.** What SaveSync has made are directories, the staging directory is complete once
it is ready, an old dataset that was set aside is there, and the save root is as the promotion left
it or as others wrote it. -/
structure Arisen (P : Promotion α) (s : PromotionState α) : Prop where
  trees : ∀ name entry, s.folder.get? name = some entry → entry.promoted = true →
    ∃ content, entry.node = .tree content
  staging : s.point = .ready ∨ s.point = .cleared ∨ s.point = .aside →
    s.folder.get? P.staging = some ⟨.tree P.new, true⟩
  aside : s.point = .aside →
    ∃ old, P.old = some old ∧ s.folder.get? P.previous = some ⟨.tree old, true⟩
  root : s.rewritten = false → RootAt P s
  rewritten : s.rewritten = true → s.stopped = true ∧
    (∃ node, s.folder.get? P.root = some ⟨node, false⟩) ∧ (P.old = none ∧ s.point ≠ .placed ∨
      s.point = .aside)

namespace Promotion

variable (P : Promotion α)

theorem length_staging : P.staging.length = P.root.length + 18 := by
  rw [staging, String.length_append, String.length_append, String.length_append, P.eight]
  show 1 + P.root.length + 9 + 8 = _
  omega

theorem length_previous : P.previous.length = P.root.length + 9 := by
  rw [previous, previousName, String.length_append]
  rfl

theorem staging_ne_root : P.staging ≠ P.root := by
  intro h
  have hlength := P.length_staging
  rw [h] at hlength
  omega

theorem previous_ne_root : P.previous ≠ P.root := by
  intro h
  have hlength := P.length_previous
  rw [h] at hlength
  omega

theorem staging_ne_previous : P.staging ≠ P.previous := by
  intro h
  have hstaging := P.length_staging
  have hprevious := P.length_previous
  rw [h] at hstaging
  omega

end Promotion

/-- What a rename leaves. -/
theorem get?_rename {d d' : Folder α} {source target : String}
    (h : d.rename source target = some d') :
    ∃ entry, d.get? source = some entry ∧ d.get? target = none ∧ ∀ name, d'.get? name
      = if name = target then some entry else if name = source then none else d.get? name := by
  rw [Folder.rename] at h
  split at h
  · next entry hsource htarget =>
    obtain rfl := Option.some.inj h
    refine ⟨entry, hsource, htarget, fun name => ?_⟩
    rw [Dict.get?_insert, Dict.get?_erase]
  · cases h

/-- A directory exists. -/
theorem exists_of_tree {d : Folder α} {name : String} {content : α}
    (h : (d.get? name).map Entry.node = some (.tree content)) : d.exists name = true := by
  rw [Folder.exists, h]

section Steps

variable {P : Promotion α} {s t : PromotionState α}

theorem Initial.arisen (h : Initial P s) : Arisen P s where
  trees := h.trees
  staging := fun hpoint => by
    rw [h.point] at hpoint
    rcases hpoint with hpoint | hpoint | hpoint <;> cases hpoint
  aside := fun hpoint => by
    rw [h.point] at hpoint
    cases hpoint
  root := fun _ => by
    rw [RootAt, h.point]
    exact h.root
  rewritten := fun hrewritten => by
    rw [h.rewritten] at hrewritten
    cases hrewritten

/-- A promotion that goes on has not been rewritten. -/
theorem Arisen.going (h : Arisen P s) (hgoing : s.stopped = false) : s.rewritten = false := by
  by_contra hrewritten
  rw [Bool.not_eq_false] at hrewritten
  have hstopped := (h.rewritten hrewritten).1
  rw [hgoing] at hstopped
  cases hstopped

/-- A directory of SaveSync in the place of a name. -/
theorem trees_insert (h : Arisen P s) (name : String) (content : α) (promoted : Bool) :
    ∀ other entry, (s.folder.insert name ⟨.tree content, promoted⟩).get? other = some entry →
      entry.promoted = true → ∃ content, entry.node = .tree content := by
  intro other entry hentry hpromoted
  rw [Dict.get?_insert] at hentry
  split at hentry
  · obtain rfl := Option.some.inj hentry
    exact ⟨content, rfl⟩
  · exact h.trees other entry hentry hpromoted

/-- After a rename, what SaveSync has made are directories as before. -/
theorem trees_rename (h : Arisen P s) {d : Folder α} {source target : String}
    (hrename : s.folder.rename source target = some d) :
    ∀ other entry, d.get? other = some entry → entry.promoted = true →
      ∃ content, entry.node = .tree content := by
  intro other entry hentry hpromoted
  obtain ⟨moved, hmoved, -, hget⟩ := get?_rename hrename
  rw [hget] at hentry
  split at hentry
  · obtain rfl := Option.some.inj hentry
    exact h.trees source moved hmoved hpromoted
  split at hentry
  · cases hentry
  · exact h.trees other entry hentry hpromoted

/-- A file of others beside what SaveSync has made. -/
theorem trees_foreign (h : Arisen P s) (name : String) (node : Node α) :
    ∀ other entry, (s.folder.insert name ⟨node, false⟩).get? other = some entry →
      entry.promoted = true → ∃ content, entry.node = .tree content := by
  intro other entry hentry hpromoted
  rw [Dict.get?_insert] at hentry
  split at hentry
  · obtain rfl := Option.some.inj hentry
    cases hpromoted
  · exact h.trees other entry hentry hpromoted

/-- The old dataset at a point before the first rename. -/
theorem Arisen.old (h : Arisen P s) (hgoing : s.stopped = false)
    (hpoint : s.point = .preparing ∨ s.point = .ready ∨ s.point = .cleared) :
    (s.folder.get? P.root).map Entry.node = P.old.map Node.tree := by
  have hroot := h.root (h.going hgoing)
  rw [RootAt] at hroot
  rcases hpoint with hpoint | hpoint | hpoint
  · rw [hpoint] at hroot
    exact hroot
  · rw [hpoint] at hroot
    exact hroot
  · rw [hpoint] at hroot
    exact hroot

/-- The steps up to the first rename leave the save root alone. -/
theorem arisen_before {d : Folder α} {point : Point} (h : Arisen P s)
    (hgoing : s.stopped = false) (hpoint : s.point = .preparing ∨ s.point = .ready)
    (hnext : point = .ready ∨ point = .cleared)
    (htrees : ∀ name entry, d.get? name = some entry → entry.promoted = true →
      ∃ content, entry.node = .tree content)
    (hstaging : d.get? P.staging = some ⟨.tree P.new, true⟩)
    (hroot : d.get? P.root = s.folder.get? P.root) : Arisen P (s.move d point) where
  trees := htrees
  staging := fun _ => hstaging
  aside := fun haside => by
    change point = .aside at haside
    rw [haside] at hnext
    rcases hnext with hnext | hnext <;> cases hnext
  root := fun _ => by
    have hold := h.old hgoing (hpoint.imp_right Or.inl)
    rw [← hroot] at hold
    rcases hnext with rfl | rfl
    · exact hold
    · exact hold
  rewritten := fun hrewritten => by
    change s.rewritten = true at hrewritten
    rw [h.going hgoing] at hrewritten
    cases hrewritten

/-- **One step.** -/
theorem Arisen.step {action : PromotionAction α} (h : Arisen P s)
    (hstep : promotionStep P s action = some t) : Arisen P t := by
  have hstaging := P.staging_ne_root
  have hprevious := P.previous_ne_root
  have hapart := P.staging_ne_previous
  cases action with
  | stage =>
    rw [promotionStep, Option.ite_none_right_eq_some] at hstep
    obtain ⟨⟨hgoing, hpoint⟩, hstep⟩ := hstep
    obtain rfl := Option.some.inj hstep
    refine arisen_before h hgoing (Or.inl hpoint) (Or.inl rfl) (trees_insert h _ _ _) ?_ ?_
    · rw [Dict.get?_insert, if_pos rfl]
    · rw [Dict.get?_insert, if_neg hstaging.symm]
  | clearPart rest =>
    rw [promotionStep, Option.ite_none_right_eq_some] at hstep
    obtain ⟨⟨hgoing, hpoint⟩, hstep⟩ := hstep
    split at hstep
    · next content promoted hentry =>
      obtain rfl := Option.some.inj hstep
      refine arisen_before h hgoing (Or.inr hpoint) (Or.inl rfl) (trees_insert h _ _ _) ?_ ?_
      · rw [Dict.get?_insert, if_neg hapart]
        exact h.staging (Or.inl hpoint)
      · rw [Dict.get?_insert, if_neg hprevious.symm]
    · cases hstep
  | clear =>
    rw [promotionStep, Option.ite_none_right_eq_some] at hstep
    obtain ⟨⟨hgoing, hpoint⟩, hstep⟩ := hstep
    split at hstep
    · split at hstep
      · next content promoted hentry =>
        obtain rfl := Option.some.inj hstep
        refine arisen_before h hgoing (Or.inr hpoint) (Or.inr rfl) ?_ ?_ ?_
        · intro name entry hname
          rw [Dict.get?_erase] at hname
          split at hname
          · cases hname
          · exact h.trees name entry hname
        · rw [Dict.get?_erase, if_neg hapart]
          exact h.staging (Or.inl hpoint)
        · rw [Dict.get?_erase, if_neg hprevious.symm]
      · cases hstep
    · obtain rfl := Option.some.inj hstep
      exact arisen_before h hgoing (Or.inr hpoint) (Or.inr rfl) h.trees
        (h.staging (Or.inl hpoint)) rfl
  | setAside =>
    rw [promotionStep, Option.ite_none_right_eq_some] at hstep
    obtain ⟨⟨hgoing, hpoint, -⟩, hstep⟩ := hstep
    split at hstep
    · next entry hentry hfree =>
      obtain rfl := Option.some.inj hstep
      -- The old dataset is what stood at the save root.
      have hold := h.old hgoing (Or.inr (Or.inr hpoint))
      rw [hentry] at hold
      obtain ⟨old, hsome, hnode⟩ := Option.map_eq_some_iff.mp hold.symm
      have hget : ∀ name, ((s.folder.erase P.root).insert P.previous ⟨entry.node, true⟩).get? name
          = if name = P.previous then some ⟨.tree old, true⟩
            else if name = P.root then none else s.folder.get? name := by
        intro name
        rw [Dict.get?_insert, Dict.get?_erase, hnode]
      refine ⟨?_, fun _ => ?_, fun _ => ⟨old, hsome, ?_⟩, fun _ => ?_, fun hrewritten => ?_⟩
      · intro name other hname hpromoted
        change ((s.folder.erase P.root).insert P.previous ⟨entry.node, true⟩).get? name
          = some other at hname
        rw [hget] at hname
        split at hname
        · obtain rfl := Option.some.inj hname
          exact ⟨old, rfl⟩
        split at hname
        · cases hname
        · exact h.trees name other hname hpromoted
      · show ((s.folder.erase P.root).insert P.previous ⟨entry.node, true⟩).get? P.staging = _
        rw [hget, if_neg hapart, if_neg hstaging]
        exact h.staging (Or.inr (Or.inl hpoint))
      · show ((s.folder.erase P.root).insert P.previous ⟨entry.node, true⟩).get? P.previous = _
        rw [hget, if_pos rfl]
      · show ((s.folder.erase P.root).insert P.previous ⟨entry.node, true⟩).get? P.root = none
        rw [hget, if_neg hprevious.symm, if_pos rfl]
      · change s.rewritten = true at hrewritten
        rw [h.going hgoing] at hrewritten
        cases hrewritten
    · cases hstep
  | place =>
    rw [promotionStep, Option.ite_none_right_eq_some] at hstep
    obtain ⟨⟨hgoing, hpoint⟩, hstep⟩ := hstep
    obtain ⟨d, hrename, rfl⟩ := Option.map_eq_some_iff.mp hstep
    obtain ⟨entry, hentry, -, hget⟩ := get?_rename hrename
    have hready : s.folder.get? P.staging = some ⟨.tree P.new, true⟩ :=
      h.staging (Or.inr (hpoint.imp_left And.left))
    rw [hready] at hentry
    obtain rfl := Option.some.inj hentry
    refine ⟨trees_rename h hrename, nofun, nofun, fun _ => ?_, fun hrewritten => ?_⟩
    · show d.get? P.root = _
      rw [hget, if_pos rfl]
    · change s.rewritten = true at hrewritten
      rw [h.going hgoing] at hrewritten
      cases hrewritten
  | restore =>
    rw [promotionStep, Option.ite_none_right_eq_some] at hstep
    obtain ⟨⟨hgoing, hpoint⟩, hstep⟩ := hstep
    obtain ⟨d, hrename, rfl⟩ := Option.map_eq_some_iff.mp hstep
    obtain ⟨entry, hentry, -, hget⟩ := get?_rename hrename
    obtain ⟨old, hsome, hold⟩ := h.aside hpoint
    rw [hold] at hentry
    obtain rfl := Option.some.inj hentry
    refine ⟨trees_rename h hrename, nofun, nofun, fun _ => ⟨old, hsome, ?_⟩, fun hrewritten => ?_⟩
    · show d.get? P.root = _
      rw [hget, if_pos rfl]
    · change s.rewritten = true at hrewritten
      rw [h.going hgoing] at hrewritten
      cases hrewritten
  | stop =>
    rw [promotionStep] at hstep
    obtain rfl := Option.some.inj hstep
    exact ⟨h.trees, h.staging, h.aside, h.root,
      fun hrewritten => ⟨rfl, (h.rewritten hrewritten).2⟩⟩
  | user name node =>
    rw [promotionStep, Option.ite_none_right_eq_some] at hstep
    obtain ⟨⟨-, hname, hfree⟩, hstep⟩ := hstep
    obtain rfl := Option.some.inj hstep
    -- What stood in the folder still stands there.
    have hkept : ∀ other entry, s.folder.get? other = some entry →
        (s.folder.insert name ⟨node, false⟩).get? other = some entry := by
      intro other entry hother
      rw [Dict.get?_insert, if_neg]
      · exact hother
      · rintro rfl
        rw [hfree] at hother
        cases hother
    have hroot : (s.folder.insert name ⟨node, false⟩).get? P.root = s.folder.get? P.root := by
      rw [Dict.get?_insert, if_neg (Ne.symm hname)]
    refine ⟨trees_foreign h name node, fun hpoint => hkept _ _ (h.staging hpoint), fun hpoint => ?_,
      fun hrewritten => ?_, fun hrewritten => ?_⟩
    · obtain ⟨old, hsome, hold⟩ := h.aside hpoint
      exact ⟨old, hsome, hkept _ _ hold⟩
    · have hbefore := h.root hrewritten
      unfold RootAt at hbefore ⊢
      rw [hroot]
      exact hbefore
    · obtain ⟨hstopped, ⟨other, hother⟩, hpoint⟩ := h.rewritten hrewritten
      exact ⟨hstopped, ⟨other, hkept _ _ hother⟩, hpoint⟩
  | other node =>
    rw [promotionStep, Option.ite_none_right_eq_some] at hstep
    obtain ⟨⟨hstopped, hfree⟩, hstep⟩ := hstep
    obtain rfl := Option.some.inj hstep
    have hget : ∀ name, (s.folder.insert P.root ⟨node, false⟩).get? name
        = if name = P.root then some ⟨node, false⟩ else s.folder.get? name := fun name =>
      Dict.get?_insert _ _ _ _
    refine ⟨trees_foreign h P.root node, fun hpoint => ?_, fun hpoint => ?_, nofun,
      fun _ => ⟨hstopped, ⟨node, ?_⟩, ?_⟩⟩
    · show (s.folder.insert P.root ⟨node, false⟩).get? P.staging = _
      rw [hget, if_neg hstaging]
      exact h.staging hpoint
    · obtain ⟨old, hsome, hold⟩ := h.aside hpoint
      refine ⟨old, hsome, ?_⟩
      show (s.folder.insert P.root ⟨node, false⟩).get? P.previous = _
      rw [hget, if_neg hprevious]
      exact hold
    · show (s.folder.insert P.root ⟨node, false⟩).get? P.root = _
      rw [hget, if_pos rfl]
    · -- A missing save root was never there, or it was set aside.
      by_cases hrewritten : s.rewritten = true
      · exact (h.rewritten hrewritten).2.2
      have hmissing := hfree.resolve_left hrewritten
      have hroot := h.root (Bool.eq_false_of_not_eq_true hrewritten)
      rw [RootAt] at hroot
      cases hpoint : s.point with
      | aside => exact Or.inr rfl
      | placed =>
        rw [hpoint, hmissing] at hroot
        cases hroot
      | restored =>
        rw [hpoint, hmissing] at hroot
        obtain ⟨old, -, hold⟩ := hroot
        cases hold
      | preparing | ready | cleared =>
        rw [hpoint, hmissing] at hroot
        exact Or.inl ⟨Option.map_eq_none_iff.mp hroot.symm, nofun⟩

/-- **Every run.** -/
theorem arisen_of_reach (h : (promoting P).Reach Machine.anyStep s) : Arisen P s :=
  h.invariant (fun _ (hinit : Initial P _) => hinit.arisen)
    fun _ _ _ _ (harisen : Arisen P _) _ hstep => harisen.step hstep

end Steps

end RomCloud.SaveSync.SaveTree
