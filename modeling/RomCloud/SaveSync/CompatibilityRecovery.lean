import RomCloud.SaveSync.SaveTree

namespace RomCloud.SaveSync.SaveTree

open RomCloud.Lib

/-!
# What the compatibility recovery keeps

`recover_interrupted_commit` in every folder that an interrupted promotion can leave, with what
others did in it since.

* `Preserved` — what is to be left: a complete dataset, a complete save root unless others wrote it,
  and every directory that no promotion has made;
* `Harmless` — this after any number of calls, none of which fails for a file or link of others;
* `removeEach_spec` — what the removals leave, and where they stop;
* `Recoverable` — what the folder has to be like;
* `harmless_iff` — that this is exactly so.
-/

variable {α : Type}

/-! ### The property -/

/-- A file or a link that no promotion has made. -/
def foreign (d : Folder α) (name : String) : Bool :=
  match d.get? name with
  | some ⟨.tree _, _⟩ => false
  | some ⟨_, promoted⟩ => !promoted
  | none => false

/-- The error is due to a file or a link that no promotion has made: without these, there would be no
several backups either. -/
def Blames (d : Folder α) : RecoverError → Prop
  | .symlinked name => foreign d name = true
  | .notDirectory name => foreign d name = true
  | .rename target => foreign d target = true
  | .ambiguous backups => (backups.filter fun name => !foreign d name).length ≤ 1
  | .pattern => False

/-- A complete dataset stands in the folder. -/
def HasCopy (P : Promotion α) (d : Folder α) : Prop :=
  ∃ name content promoted, d.get? name = some ⟨.tree content, promoted⟩ ∧ P.Complete content

/-- What is to be left of the folder of a promotion. -/
structure Preserved (P : Promotion α) (s : PromotionState α) (d : Folder α) : Prop where
  copy : s.Live P → HasCopy P d
  root : s.rewritten = false →
    (∃ content promoted, d.get? P.root = some ⟨.tree content, promoted⟩ ∧ P.Complete content) ∨
      (d.get? P.root = none ∧ ¬ s.Live P)
  kept : ∀ name content, s.folder.get? name = some ⟨.tree content, false⟩ →
    d.get? name = some ⟨.tree content, false⟩

/-- After any number of calls what is to be left is there, and none of them failed for what is not
its own. -/
def Harmless (strict : Bool) (P : Promotion α) (s : PromotionState α) : Prop :=
  ∀ times, Preserved P s (recoverTimes strict P.root (times + 1) s.folder) ∧
    ∀ error, (recover strict P.root (recoverTimes strict P.root times s.folder)).2 = some error →
      ¬ Blames (recoverTimes strict P.root times s.folder) error

/-! ### The condition -/

/-- A name of the kind that the recovery takes for its own. -/
def Leftover (root name : String) : Prop :=
  fnmatch name.toList (stagingPattern root).toList = true ∨ name = previousName root ∨
    fnmatch name.toList (legacyPattern root).toList = true

/-- What the recovery removes if the save root exists. -/
def leftovers (root : String) (d : Folder α) : List String :=
  stagingDirs root d ++ backupDirs root d

/-- A directory that a promotion has made. -/
def Abandoned (d : Folder α) (name : String) : Prop :=
  ∃ content, d.get? name = some ⟨.tree content, true⟩

/-- The save root may stay as it is. -/
def Settled (P : Promotion α) (s : PromotionState α) : Prop :=
  s.rewritten = true ∨ s.folder.get? P.root ≠ none ∨ ¬ s.Live P

/-- The folders that are recovered without harm. -/
def Recoverable (strict : Bool) (P : Promotion α) (s : PromotionState α) : Prop :=
  if refused strict P.root then Settled P s
  else if s.folder.exists P.root then
    -- All that bears a name of the recovery is its own, and a complete dataset bears none.
    (∀ name ∈ leftovers P.root s.folder, Abandoned s.folder name) ∧
    P.root ∉ leftovers P.root s.folder ∧
    (s.Live P → ∃ name content promoted, s.folder.get? name = some ⟨.tree content, promoted⟩ ∧
      P.Complete content ∧ name ∉ leftovers P.root s.folder)
  else
    match backupDirs P.root s.folder with
    | [] => (∀ name ∈ stagingDirs P.root s.folder, Abandoned s.folder name) ∧ Settled P s
    | [backup] =>
      -- The one backup is complete and the promotion's own, and its place is free.
      s.folder.get? P.root = none ∧
      (∃ content, s.folder.get? backup = some ⟨.tree content, true⟩ ∧ P.Complete content) ∧
      (∀ name ∈ stagingDirs P.root s.folder, Abandoned s.folder name) ∧
      (¬ s.Live P ∨ ¬ Leftover P.root P.root)
    | backups => 2 ≤ (backups.filter fun name => !foreign s.folder name).length ∧ Settled P s

/-! ### Names and nodes -/

section Names

variable {d : Folder α} {root name : String}

theorem mem_glob {pattern : String} : name ∈ d.glob pattern ↔
    d.get? name ≠ none ∧ fnmatch name.toList pattern.toList = true := by
  rw [Folder.glob, List.mem_filter, Ne, Dict.get?_eq_none_iff, not_not]

theorem absent_iff : (!d.exists name && !d.isSymlink name) = true ↔ d.get? name = none := by
  rw [Folder.exists, Folder.isSymlink]
  cases d.get? name with
  | none => exact iff_of_true rfl rfl
  | some entry =>
    refine iff_of_false ?_ (Option.some_ne_none entry)
    obtain ⟨node, promoted⟩ := entry
    cases node with
    | tree content => exact Bool.false_ne_true
    | file => exact Bool.false_ne_true
    | link target => cases target <;> exact Bool.false_ne_true

theorem mem_stagingDirs : name ∈ stagingDirs root d ↔
    d.get? name ≠ none ∧ fnmatch name.toList (stagingPattern root).toList = true := mem_glob

theorem mem_backupDirs : name ∈ backupDirs root d ↔ d.get? name ≠ none ∧
    (name = previousName root ∨ fnmatch name.toList (legacyPattern root).toList = true) := by
  have hstands : (d.exists (previousName root) || d.isSymlink (previousName root)) = true ↔
      d.get? (previousName root) ≠ none := by
    rw [Ne, ← absent_iff, ← Bool.not_or, Bool.not_eq_true', Bool.not_eq_false]
  rw [backupDirs, List.mem_append, mem_glob]
  by_cases hprevious : d.get? (previousName root) = none
  · rw [if_neg (by rw [hstands]; exact not_not.mpr hprevious)]
    constructor
    · rintro (hmem | ⟨hstand, hmatch⟩)
      · cases hmem
      · exact ⟨hstand, Or.inr hmatch⟩
    · rintro ⟨hstand, rfl | hmatch⟩
      · exact absurd hprevious hstand
      · exact Or.inr ⟨hstand, hmatch⟩
  · rw [if_pos (hstands.mpr hprevious), List.mem_singleton]
    constructor
    · rintro (rfl | ⟨hstand, hmatch⟩)
      · exact ⟨hprevious, Or.inl rfl⟩
      · exact ⟨hstand, Or.inr hmatch⟩
    · rintro ⟨hstand, rfl | hmatch⟩
      · exact Or.inl rfl
      · exact Or.inr ⟨hstand, hmatch⟩

theorem mem_leftovers : name ∈ leftovers root d ↔ d.get? name ≠ none ∧ Leftover root name := by
  rw [leftovers, List.mem_append, mem_stagingDirs, mem_backupDirs, Leftover, ← and_or_left]

/-- What is refused is no directory of its own, and what is not refused is one. -/
theorem validate_spec (h : d.get? name ≠ none) :
    match validate d name with
    | none => ∃ content promoted, d.get? name = some ⟨.tree content, promoted⟩
    | some error => (error = .symlinked name ∨ error = .notDirectory name) ∧
        ∀ content promoted, d.get? name ≠ some ⟨.tree content, promoted⟩ := by
  obtain ⟨⟨node, promoted⟩, hentry⟩ := Option.ne_none_iff_exists'.mp h
  rw [validate, Folder.isSymlink, Folder.isDir, hentry]
  cases node with
  | tree content => exact ⟨content, promoted, rfl⟩
  | file => exact ⟨Or.inr rfl, nofun⟩
  | link target => exact ⟨Or.inl rfl, nofun⟩

end Names

/-! ### The removals -/

/-- **The removals.** Directories are removed one after the other, up to the first name that stands
for something else. -/
theorem removeEach_spec (names : List String) (d : Folder α) :
    ∃ done : List String,
      (∀ name, (removeEach names d).1.get? name = if name ∈ done then none else d.get? name) ∧
      (∀ name ∈ done, name ∈ names ∧ (d.get? name = none ∨
        ∃ content promoted, d.get? name = some ⟨.tree content, promoted⟩)) ∧
      match (removeEach names d).2 with
      | none => ∀ name ∈ names, name ∈ done
      | some error => ∃ name ∈ names, d.get? name ≠ none ∧
          (∀ content promoted, d.get? name ≠ some ⟨.tree content, promoted⟩) ∧
          (error = .symlinked name ∨ error = .notDirectory name) := by
  induction names generalizing d with
  | nil => exact ⟨[], fun name => by rw [if_neg List.not_mem_nil]; rfl, nofun, nofun⟩
  | cons first rest ih =>
    by_cases habsent : d.get? first = none
    · obtain ⟨done, hget, hdone, hend⟩ := ih d
      have hrun : removeEach (first :: rest) d = removeEach rest d := by
        rw [removeEach, if_pos (absent_iff.mpr habsent)]
      rw [hrun]
      refine ⟨first :: done, fun name => ?_, fun name hname => ?_, ?_⟩
      · rw [hget]
        by_cases hfirst : name = first
        · rw [hfirst, habsent, if_pos List.mem_cons_self, ite_self]
        · simp only [List.mem_cons, hfirst, false_or]
      · rcases List.mem_cons.mp hname with rfl | hname
        · exact ⟨List.mem_cons_self, Or.inl habsent⟩
        · exact ⟨List.mem_cons_of_mem _ (hdone name hname).1, (hdone name hname).2⟩
      · cases herror : (removeEach rest d).2 with
        | none =>
          rw [herror] at hend
          exact fun name hname => (List.mem_cons.mp hname).elim (fun h => h ▸ List.mem_cons_self)
            fun h => List.mem_cons_of_mem _ (hend name h)
        | some error =>
          rw [herror] at hend
          obtain ⟨name, hname, hstand⟩ := hend
          exact ⟨name, List.mem_cons_of_mem _ hname, hstand⟩
    have hvalid := validate_spec habsent
    cases hvalidate : validate d first with
    | some error =>
      rw [hvalidate] at hvalid
      have hrun : removeEach (first :: rest) d = (d, some error) := by
        rw [removeEach, if_neg (by rw [absent_iff]; exact habsent), hvalidate]
      rw [hrun]
      exact ⟨[], fun name => by rw [if_neg List.not_mem_nil], nofun,
        first, List.mem_cons_self, habsent, hvalid.2, hvalid.1⟩
    | none =>
      rw [hvalidate] at hvalid
      have hrun : removeEach (first :: rest) d = removeEach rest (d.erase first) := by
        rw [removeEach, if_neg (by rw [absent_iff]; exact habsent), hvalidate]
      obtain ⟨done, hget, hdone, hend⟩ := ih (d.erase first)
      rw [hrun]
      refine ⟨first :: done, fun name => ?_, fun name hname => ?_, ?_⟩
      · rw [hget, Dict.get?_erase]
        by_cases hfirst : name = first
        · rw [if_pos hfirst, hfirst, if_pos List.mem_cons_self, ite_self]
        · simp only [List.mem_cons, hfirst, false_or, if_false]
      · rcases List.mem_cons.mp hname with rfl | hname
        · exact ⟨List.mem_cons_self, Or.inr hvalid⟩
        · obtain ⟨hmem, hnode⟩ := hdone name hname
          refine ⟨List.mem_cons_of_mem _ hmem, ?_⟩
          rw [Dict.get?_erase] at hnode
          by_cases hfirst : name = first
          · exact Or.inr (hfirst ▸ hvalid)
          · rwa [if_neg hfirst] at hnode
      · cases herror : (removeEach rest (d.erase first)).2 with
        | none =>
          rw [herror] at hend
          exact fun name hname => (List.mem_cons.mp hname).elim (fun h => h ▸ List.mem_cons_self)
            fun h => List.mem_cons_of_mem _ (hend name h)
        | some error =>
          rw [herror] at hend
          obtain ⟨name, hname, hstand, hnode, heq⟩ := hend
          rw [Dict.get?_erase] at hstand hnode
          by_cases hfirst : name = first
          · rw [if_pos hfirst] at hstand
            exact absurd rfl hstand
          · rw [if_neg hfirst] at hstand hnode
            exact ⟨name, List.mem_cons_of_mem _ hname, hstand, hnode, heq⟩

/-- The removals end if all names stand for directories, and then all of them are gone. -/
theorem removeEach_trees {names : List String} {d : Folder α}
    (h : ∀ name ∈ names, d.get? name = none ∨
      ∃ content promoted, d.get? name = some ⟨.tree content, promoted⟩) :
    (removeEach names d).2 = none ∧
      ∀ name, (removeEach names d).1.get? name = if name ∈ names then none else d.get? name := by
  obtain ⟨done, hget, hdone, hend⟩ := removeEach_spec names d
  cases herror : (removeEach names d).2 with
  | some error =>
    rw [herror] at hend
    obtain ⟨name, hname, hstand, hnode, -⟩ := hend
    rcases h name hname with habsent | ⟨content, promoted, htree⟩
    · exact absurd habsent hstand
    · exact absurd htree (hnode content promoted)
  | none =>
    rw [herror] at hend
    refine ⟨rfl, fun name => ?_⟩
    rw [hget]
    by_cases hname : name ∈ names
    · rw [if_pos hname, if_pos (hend name hname)]
    · rw [if_neg hname, if_neg fun hmem => hname (hdone name hmem).1]

/-! ### What a promotion leaves -/

section Facts

variable {P : Promotion α} {s : PromotionState α}

/-- Unless others have written it, the save root is complete, or it is missing. -/
theorem Arisen.root_entry (h : Arisen P s) (hown : s.rewritten = false) :
    (∃ content promoted, s.folder.get? P.root = some ⟨.tree content, promoted⟩ ∧
      P.Complete content ∧ s.Live P) ∨
    (s.folder.get? P.root = none ∧ (¬ s.Live P ∨ s.point = .aside)) := by
  have hroot := h.root hown
  rw [RootAt] at hroot
  cases hpoint : s.point with
  | aside =>
    rw [hpoint] at hroot
    exact Or.inr ⟨hroot, Or.inr rfl⟩
  | placed =>
    rw [hpoint] at hroot
    exact Or.inl ⟨P.new, true, hroot, Or.inr rfl, Or.inr hpoint⟩
  | restored =>
    rw [hpoint] at hroot
    obtain ⟨old, hsome, hold⟩ := hroot
    exact Or.inl ⟨old, true, hold, Or.inl hsome, Or.inl (by rw [hsome]; rfl)⟩
  | preparing | ready | cleared =>
    rw [hpoint] at hroot
    cases hold : P.old with
    | none =>
      rw [hold] at hroot
      refine Or.inr ⟨Option.map_eq_none_iff.mp hroot, Or.inl ?_⟩
      rintro (hsome | hplaced)
      · rw [hold] at hsome
        cases hsome
      · rw [hpoint] at hplaced
        cases hplaced
    | some old =>
      rw [hold] at hroot
      obtain ⟨⟨node, promoted⟩, hentry, rfl⟩ := Option.map_eq_some_iff.mp hroot
      exact Or.inl ⟨old, promoted, hentry, Or.inl hold, Or.inl (by rw [hold]; rfl)⟩

/-- An old dataset that was set aside is a backup. -/
theorem Arisen.backup (h : Arisen P s) (haside : s.point = .aside) :
    ∃ content, s.folder.get? (previousName P.root) = some ⟨.tree content, true⟩ ∧
      P.Complete content := by
  obtain ⟨old, hsome, hold⟩ := h.aside haside
  exact ⟨old, hold, Or.inl hsome⟩

/-- No step of a promotion is without a complete dataset. -/
theorem Arisen.copy (h : Arisen P s) (hlive : s.Live P) : HasCopy P s.folder := by
  have haside : s.point = .aside → HasCopy P s.folder := fun hpoint => by
    obtain ⟨content, hentry, hcomplete⟩ := h.backup hpoint
    exact ⟨_, content, true, hentry, hcomplete⟩
  cases hown : s.rewritten with
  | true =>
    rcases (h.rewritten hown).2.2 with ⟨hold, hpoint⟩ | hpoint
    · rcases hlive with hsome | hplaced
      · rw [hold] at hsome
        cases hsome
      · exact absurd hplaced hpoint
    · exact haside hpoint
  | false =>
    rcases h.root_entry hown with ⟨content, promoted, hentry, hcomplete, -⟩ | ⟨-, hnot | hpoint⟩
    · exact ⟨P.root, content, promoted, hentry, hcomplete⟩
    · exact absurd hlive hnot
    · exact haside hpoint

/-- What stands for neither a directory nor nothing was not made by a promotion. -/
theorem Arisen.foreign_of_ne_tree (h : Arisen P s) {name : String} (hstand : s.folder.get? name ≠ none)
    (hnode : ∀ content promoted, s.folder.get? name ≠ some ⟨.tree content, promoted⟩) :
    foreign s.folder name = true := by
  obtain ⟨⟨node, promoted⟩, hentry⟩ := Option.ne_none_iff_exists'.mp hstand
  have hmade : promoted = false := by
    by_contra hpromoted
    obtain ⟨content, rfl⟩ := h.trees name _ hentry (Bool.eq_true_of_not_eq_false hpromoted)
    exact hnode content promoted hentry
  rw [foreign, hentry, hmade]
  cases node with
  | tree content => exact absurd hentry (hnode content promoted)
  | file => rfl
  | link target => rfl

/-- A save root that stands and does not exist is a broken link of others. -/
theorem Arisen.broken (h : Arisen P s) (hmissing : s.folder.exists P.root = false)
    (hstand : s.folder.get? P.root ≠ none) :
    s.rewritten = true ∧ foreign s.folder P.root = true := by
  have hnode : ∀ content promoted, s.folder.get? P.root ≠ some ⟨.tree content, promoted⟩ := by
    intro content promoted hentry
    have hexists := @exists_of_tree α s.folder P.root content (by rw [hentry]; rfl)
    rw [hmissing] at hexists
    cases hexists
  refine ⟨?_, h.foreign_of_ne_tree hstand hnode⟩
  by_contra hown
  rcases h.root_entry (Bool.eq_false_of_not_eq_true hown) with
    ⟨content, promoted, hentry, -⟩ | ⟨hnone, -⟩
  · exact hnode content promoted hentry
  · exact hstand hnone

/-- What is to be left is there before the first call, if the save root may stay as it is. -/
theorem Arisen.preserved (h : Arisen P s) (hsettled : Settled P s) : Preserved P s s.folder where
  copy := h.copy
  root := fun hown => by
    rcases h.root_entry hown with ⟨content, promoted, hentry, hcomplete, -⟩ | ⟨hnone, -⟩
    · exact Or.inl ⟨content, promoted, hentry, hcomplete⟩
    · refine Or.inr ⟨hnone, ?_⟩
      rcases hsettled with hrewritten | hstand | hnot
      · rw [hown] at hrewritten
        cases hrewritten
      · exact absurd hnone hstand
      · exact hnot
  kept := fun _ _ h => h

/-- A directory that is gone was made by a promotion. -/
theorem Preserved.abandoned {d : Folder α} (h : Preserved P s d) {name : String}
    (hgone : d.get? name = none)
    (htree : ∃ content promoted, s.folder.get? name = some ⟨.tree content, promoted⟩) :
    Abandoned s.folder name := by
  obtain ⟨content, promoted, hentry⟩ := htree
  cases promoted with
  | true => exact ⟨content, hentry⟩
  | false =>
    have hkept := h.kept name content hentry
    rw [hgone] at hkept
    cases hkept

/-- A save root that is still missing may stay so. -/
theorem Preserved.settled {d : Folder α} (h : Preserved P s d)
    (hroot : d.get? P.root = s.folder.get? P.root) : Settled P s := by
  cases hown : s.rewritten with
  | true => exact Or.inl hown
  | false =>
    refine Or.inr ?_
    rcases h.root hown with ⟨content, promoted, hentry, -⟩ | ⟨-, hnot⟩
    · rw [hroot] at hentry
      exact Or.inl (by rw [hentry]; nofun)
    · exact Or.inr hnot

end Facts

/-! ### A call that is not blamed -/

section Blameless

variable {P : Promotion α} {s : PromotionState α}

/-- Removals that are not blamed end, and remove all: what they stop at would be a file or a link of
others. -/
theorem removed_of_blameless {d d' : Folder α} {names : List String}
    (hforeign : ∀ name ∈ names, d.get? name ≠ none →
      (∀ content promoted, d.get? name ≠ some ⟨.tree content, promoted⟩) → foreign d' name = true)
    (hblame : ∀ error, (removeEach names d).2 = some error → ¬ Blames d' error) :
    (∀ name, (removeEach names d).1.get? name = if name ∈ names then none else d.get? name) ∧
    ∀ name ∈ names, d.get? name ≠ none →
      ∃ content promoted, d.get? name = some ⟨.tree content, promoted⟩ := by
  have htrees : ∀ name ∈ names, d.get? name = none ∨
      ∃ content promoted, d.get? name = some ⟨.tree content, promoted⟩ := by
    obtain ⟨done, -, hdone, hend⟩ := removeEach_spec names d
    cases herror : (removeEach names d).2 with
    | none =>
      rw [herror] at hend
      exact fun name hname => (hdone name (hend name hname)).2
    | some error =>
      rw [herror] at hend
      obtain ⟨name, hname, hstand, hnode, heq⟩ := hend
      have hforeign := hforeign name hname hstand hnode
      refine absurd ?_ (hblame error herror)
      rcases heq with rfl | rfl
      · exact hforeign
      · exact hforeign
  exact ⟨(removeEach_trees htrees).2, fun name hname hstand =>
    (htrees name hname).resolve_left hstand⟩

theorem Arisen.removed (h : Arisen P s) {names : List String}
    (hblame : ∀ error, (removeEach names s.folder).2 = some error → ¬ Blames s.folder error) :
    (∀ name, (removeEach names s.folder).1.get? name
      = if name ∈ names then none else s.folder.get? name) ∧
    ∀ name ∈ names, s.folder.get? name ≠ none →
      ∃ content promoted, s.folder.get? name = some ⟨.tree content, promoted⟩ :=
  removed_of_blameless (fun _ _ hstand hnode => h.foreign_of_ne_tree hstand hnode) hblame

/-- All names are the recovery's own, if nothing else may be gone. -/
theorem Arisen.abandoned (h : Arisen P s) {names : List String}
    (hblame : ∀ error, (removeEach names s.folder).2 = some error → ¬ Blames s.folder error)
    (hpreserved : Preserved P s (removeEach names s.folder).1)
    (hstand : ∀ name ∈ names, s.folder.get? name ≠ none) :
    ∀ name ∈ names, Abandoned s.folder name := by
  obtain ⟨hget, htrees⟩ := h.removed hblame
  intro name hname
  exact hpreserved.abandoned (by rw [hget, if_pos hname]) (htrees name hname (hstand name hname))

/-- **The save root exists.** What one call must have met. -/
theorem Arisen.recoverable_exists (h : Arisen P s)
    (hblame : ∀ error, (removeEach (leftovers P.root s.folder) s.folder).2 = some error →
      ¬ Blames s.folder error)
    (hpreserved : Preserved P s (removeEach (leftovers P.root s.folder) s.folder).1) :
    (∀ name ∈ leftovers P.root s.folder, Abandoned s.folder name) ∧
    P.root ∉ leftovers P.root s.folder ∧
    (s.Live P → ∃ name content promoted, s.folder.get? name = some ⟨.tree content, promoted⟩ ∧
      P.Complete content ∧ name ∉ leftovers P.root s.folder) := by
  have howned := h.abandoned hblame hpreserved fun name hname => (mem_leftovers.mp hname).1
  obtain ⟨hget, -⟩ := h.removed hblame
  refine ⟨howned, fun hroot => ?_, fun hlive => ?_⟩
  · have hgone := hget P.root
    rw [if_pos hroot] at hgone
    cases hown : s.rewritten with
    | true =>
      obtain ⟨node, hnode⟩ := (h.rewritten hown).2.1
      obtain ⟨content, hentry⟩ := howned _ hroot
      rw [hnode] at hentry
      cases hentry
    | false =>
      rcases h.root_entry hown with ⟨content, promoted, -, -, hlive⟩ | ⟨hnone, -⟩
      · rcases hpreserved.root hown with ⟨content, promoted, hentry, -⟩ | ⟨-, hnot⟩
        · rw [hgone] at hentry
          cases hentry
        · exact hnot hlive
      · exact (mem_leftovers.mp hroot).1 hnone
  · obtain ⟨name, content, promoted, hentry, hcomplete⟩ := hpreserved.copy hlive
    have hname : name ∉ leftovers P.root s.folder := by
      intro hname
      rw [hget, if_pos hname] at hentry
      cases hentry
    rw [hget, if_neg hname] at hentry
    exact ⟨name, content, promoted, hentry, hcomplete, hname⟩

/-- **One backup.** What two calls must have met. -/
theorem Arisen.recoverable_backup (h : Arisen P s) {strict : Bool} {backup : String}
    (hrefused : refused strict P.root = false) (hmissing : s.folder.exists P.root = false)
    (hbackups : backupDirs P.root s.folder = [backup]) (hharmless : Harmless strict P s) :
    s.folder.get? P.root = none ∧
    (∃ content, s.folder.get? backup = some ⟨.tree content, true⟩ ∧ P.Complete content) ∧
    (∀ name ∈ stagingDirs P.root s.folder, Abandoned s.folder name) ∧
    (¬ s.Live P ∨ ¬ Leftover P.root P.root) := by
  obtain ⟨hpreserved, hblame⟩ := hharmless 0
  obtain ⟨hpreserved₂, hblame₂⟩ := hharmless 1
  have hone : recoverTimes strict P.root 1 s.folder = (recover strict P.root s.folder).1 := rfl
  have htwo : recoverTimes strict P.root 2 s.folder
      = (recover strict P.root (recover strict P.root s.folder).1).1 := rfl
  rw [hone] at hpreserved hblame₂
  rw [htwo] at hpreserved₂
  change ∀ error, (recover strict P.root s.folder).2 = some error → ¬ Blames s.folder error at hblame
  have hstand : s.folder.get? backup ≠ none :=
    (mem_backupDirs.mp (hbackups ▸ List.mem_singleton_self backup)).1
  have hvalid := validate_spec hstand
  cases hvalidate : validate s.folder backup with
  | some error =>
    -- A backup that is refused would be blamed.
    have hcall : recover strict P.root s.folder = (s.folder, some error) := by
      rw [recover, hrefused, hmissing, hbackups]
      dsimp only [Bool.false_eq_true, if_false]
      rw [hvalidate]
      rfl
    rw [hvalidate] at hvalid
    have hforeign := h.foreign_of_ne_tree hstand hvalid.2
    rw [hcall] at hblame
    refine absurd ?_ (hblame error rfl)
    rcases hvalid.1 with rfl | rfl
    · exact hforeign
    · exact hforeign
  | none =>
    rw [hvalidate] at hvalid
    obtain ⟨content, promoted, hentry⟩ := hvalid
    have hfree : s.folder.get? P.root = none := by
      by_contra hroot
      obtain ⟨entry, hroot'⟩ := Option.ne_none_iff_exists'.mp hroot
      have hrename : s.folder.rename backup P.root = none := by
        rw [Folder.rename, hentry, hroot']
      have hcall : recover strict P.root s.folder = (s.folder, some (.rename P.root)) := by
        rw [recover, hrefused, hmissing, hbackups]
        dsimp only [Bool.false_eq_true, if_false]
        rw [hvalidate, hrename]
        rfl
      rw [hcall] at hblame
      exact hblame _ rfl (h.broken hmissing hroot).2
    obtain ⟨restored, hrename⟩ : ∃ restored, s.folder.rename backup P.root = some restored := by
      rw [Folder.rename, hentry, hfree]
      exact ⟨_, rfl⟩
    have hcall : recover strict P.root s.folder
        = removeEach (stagingDirs P.root s.folder) restored := by
      rw [recover, hrefused, hmissing, hbackups]
      dsimp only [Bool.false_eq_true, if_false]
      rw [hvalidate, hrename]
      rfl
    obtain ⟨moved, hmoved, -, hrestored⟩ := get?_rename hrename
    rw [hentry] at hmoved
    obtain rfl := Option.some.inj hmoved
    have hother : backup ≠ P.root := by
      rintro rfl
      exact hstand hfree
    have hroot : P.root ∉ stagingDirs P.root s.folder := fun hmem =>
      (mem_stagingDirs.mp hmem).1 hfree
    rw [hcall] at hpreserved hblame hpreserved₂ hblame₂
    -- What is no directory now was none before.
    have hforeign : ∀ name, restored.get? name ≠ none →
        (∀ content promoted, restored.get? name ≠ some ⟨.tree content, promoted⟩) →
          restored.get? name = s.folder.get? name ∧ foreign s.folder name = true := by
      intro name hname hnode
      have hget := hrestored name
      by_cases hroot : name = P.root
      · rw [if_pos hroot] at hget
        exact absurd hget (hnode _ _)
      by_cases hbackup : name = backup
      · rw [if_neg hroot, if_pos hbackup] at hget
        exact absurd hget hname
      rw [if_neg hroot, if_neg hbackup] at hget
      rw [hget] at hname hnode
      exact ⟨hget, h.foreign_of_ne_tree hname hnode⟩
    obtain ⟨hget, htrees⟩ := removed_of_blameless
      (fun name (_ : name ∈ stagingDirs P.root s.folder) hname hnode =>
        (hforeign name hname hnode).2) hblame
    have hgone : (removeEach (stagingDirs P.root s.folder) restored).1.get? backup = none := by
      rw [hget, hrestored, if_neg hother, if_pos rfl, ite_self]
    have hplaced : (removeEach (stagingDirs P.root s.folder) restored).1.get? P.root
        = some ⟨.tree content, promoted⟩ := by
      rw [hget, if_neg hroot, hrestored, if_pos rfl]
    have hown : s.rewritten = false := by
      by_contra hrewritten
      obtain ⟨node, hnode⟩ := (h.rewritten (Bool.eq_true_of_not_eq_false hrewritten)).2.1
      rw [hfree] at hnode
      cases hnode
    obtain ⟨kept, hkept⟩ := hpreserved.abandoned hgone ⟨content, promoted, hentry⟩
    have hsame := hkept
    rw [hentry] at hsame
    obtain ⟨hcontent, rfl⟩ := Entry.mk.inj (Option.some.inj hsame)
    obtain rfl := Node.tree.inj hcontent
    refine ⟨hfree, ⟨content, hkept, ?_⟩, fun name hname => ?_, ?_⟩
    · rcases hpreserved.root hown with ⟨found, promoted, hfound, hcomplete⟩ | ⟨hnone, -⟩
      · rw [hplaced] at hfound
        obtain ⟨hfound, -⟩ := Entry.mk.inj (Option.some.inj hfound)
        obtain rfl := Node.tree.inj hfound
        exact hcomplete
      · rw [hplaced] at hnone
        cases hnone
    · by_cases hbackup : name = backup
      · exact hbackup ▸ ⟨content, hkept⟩
      have hne : name ≠ P.root := by
        rintro rfl
        exact hroot hname
      have hsame : restored.get? name = s.folder.get? name := by
        rw [hrestored, if_neg hne, if_neg hbackup]
      have htree := htrees name hname (by rw [hsame]; exact (mem_stagingDirs.mp hname).1)
      rw [hsame] at htree
      exact hpreserved.abandoned (by rw [hget, if_pos hname]) htree
    · -- The second call would remove a save root with a name of its own.
      by_contra hboth
      rw [not_or, not_not, not_not] at hboth
      obtain ⟨hlive, hmatch⟩ := hboth
      generalize (removeEach (stagingDirs P.root s.folder) restored).1 = d at *
      have hexists : d.exists P.root = true := exists_of_tree (by rw [hplaced]; rfl)
      have hcall₂ : recover strict P.root d = removeEach (leftovers P.root d) d := by
        rw [recover, hrefused, hexists]
        rfl
      rw [hcall₂] at hpreserved₂ hblame₂
      have hforeign₂ : ∀ name ∈ leftovers P.root d, d.get? name ≠ none →
          (∀ content promoted, d.get? name ≠ some ⟨.tree content, promoted⟩) →
            foreign d name = true := by
        intro name _ hname hnode
        have hstaging : name ∉ stagingDirs P.root s.folder := by
          intro hmem
          rw [hget, if_pos hmem] at hname
          exact hname rfl
        rw [hget, if_neg hstaging] at hname hnode
        obtain ⟨hsame, hforeign⟩ := hforeign name hname hnode
        rw [foreign, hget, if_neg hstaging, hsame]
        exact hforeign
      obtain ⟨hget₂, -⟩ := removed_of_blameless hforeign₂ hblame₂
      have hin : P.root ∈ leftovers P.root d :=
        mem_leftovers.mpr ⟨by rw [hplaced]; exact Option.some_ne_none _, hmatch⟩
      have hnone := hget₂ P.root
      rw [if_pos hin] at hnone
      rcases hpreserved₂.root hown with ⟨found, promoted, hfound, -⟩ | ⟨-, hnot⟩
      · rw [hnone] at hfound
        cases hfound
      · exact hnot hlive

end Blameless

/-! ### After the first call -/

section Quiet

variable {P : Promotion α} {s : PromotionState α} {strict : Bool} {d : Folder α}

/-- Nothing is left to recover, except for a save root that bears a name of the recovery itself. -/
structure Quiet (P : Promotion α) (s : PromotionState α) (d : Folder α) : Prop where
  preserved : Preserved P s d
  names : ∀ name, d.get? name ≠ none → Leftover P.root name → name = P.root
  root : Leftover P.root P.root → ∀ entry, d.get? P.root = some entry →
    ¬ s.Live P ∧ ∃ content, entry = ⟨.tree content, true⟩

/-- **A further call.** -/
theorem Quiet.recover (h : Quiet P s d) (hrefused : refused strict P.root = false) :
    (recover strict P.root d).2 = none ∧ Quiet P s (recover strict P.root d).1 := by
  by_cases hmatch : Leftover P.root P.root ∧ d.get? P.root ≠ none
  · obtain ⟨hname, hstand⟩ := hmatch
    obtain ⟨entry, hentry⟩ := Option.ne_none_iff_exists'.mp hstand
    obtain ⟨hlive, content, rfl⟩ := h.root hname entry hentry
    have hcall : SaveTree.recover strict P.root d = removeEach (leftovers P.root d) d := by
      have hexists : d.exists P.root = true := exists_of_tree (by rw [hentry]; rfl)
      rw [SaveTree.recover, hrefused, hexists]
      rfl
    have hroot : ∀ name ∈ leftovers P.root d, name = P.root := fun name hmem =>
      h.names name (mem_leftovers.mp hmem).1 (mem_leftovers.mp hmem).2
    obtain ⟨hend, hget⟩ := @removeEach_trees α (leftovers P.root d) d fun name hmem =>
      Or.inr ⟨content, true, by rw [hroot name hmem, hentry]⟩
    have hgone : (removeEach (leftovers P.root d) d).1.get? P.root = none := by
      rw [hget, if_pos (mem_leftovers.mpr ⟨hstand, hname⟩)]
    rw [hcall]
    refine ⟨hend, ⟨fun h => absurd h hlive, fun _ => Or.inr ⟨hgone, hlive⟩, ?_⟩, ?_, ?_⟩
    · intro name kept hkept
      have hd := h.preserved.kept name kept hkept
      rw [hget, if_neg fun hmem => ?_]
      · exact hd
      · rw [hroot name hmem, hentry] at hd
        cases hd
    · intro name hname
      rw [hget] at hname
      split at hname
      · exact absurd rfl hname
      · exact h.names name hname
    · intro _ entry hentry
      rw [hgone] at hentry
      cases hentry
  · have hnone : leftovers P.root d = [] := by
      refine List.eq_nil_iff_forall_not_mem.mpr fun name hmem => ?_
      obtain ⟨hstand, hname⟩ := mem_leftovers.mp hmem
      obtain rfl := h.names name hstand hname
      exact hmatch ⟨hname, hstand⟩
    obtain ⟨hstaging, hbackups⟩ := List.append_eq_nil_iff.mp hnone
    have hcall : SaveTree.recover strict P.root d = (d, none) := by
      rw [SaveTree.recover, hrefused, hstaging, hbackups]
      cases d.exists P.root <;> rfl
    rw [hcall]
    exact ⟨rfl, h⟩

theorem Quiet.recoverTimes (h : Quiet P s d) (hrefused : refused strict P.root = false)
    (times : ℕ) : Quiet P s (recoverTimes strict P.root times d) := by
  induction times generalizing d with
  | zero => exact h
  | succ times ih => exact ih (h.recover hrefused).2

/-- One call that leaves nothing to recover is enough. -/
theorem harmless_of_quiet (hrefused : refused strict P.root = false)
    (hend : (recover strict P.root s.folder).2 = none)
    (hquiet : Quiet P s (recover strict P.root s.folder).1) : Harmless strict P s := by
  intro times
  refine ⟨(hquiet.recoverTimes hrefused times).preserved, fun error herror => ?_⟩
  cases times with
  | zero =>
    change (recover strict P.root s.folder).2 = some error at herror
    rw [hend] at herror
    cases herror
  | succ times =>
    have hlater := ((hquiet.recoverTimes hrefused times).recover hrefused).1
    change (recover strict P.root
      (recoverTimes strict P.root times (recover strict P.root s.folder).1)).2 = some error at herror
    rw [hlater] at herror
    cases herror

/-- A call that changes nothing may be repeated. -/
theorem recoverTimes_fixed {root : String} (h : (recover strict root d).1 = d) (times : ℕ) :
    recoverTimes strict root times d = d := by
  induction times with
  | zero => rfl
  | succ times ih => rw [recoverTimes, h, ih]

/-- What is not among removed names of the recovery's own is kept. -/
theorem kept_of_abandoned {names : List String} (howned : ∀ name ∈ names, Abandoned s.folder name)
    {name : String} {content : α} (h : s.folder.get? name = some ⟨.tree content, false⟩) :
    name ∉ names := by
  intro hmem
  obtain ⟨other, hother⟩ := howned name hmem
  rw [h] at hother
  cases hother

end Quiet

/-! ### The cases -/

section Cases

variable {P : Promotion α} {s : PromotionState α} {strict : Bool}

theorem trees_of_abandoned {d : Folder α} {names : List String}
    (h : ∀ name ∈ names, Abandoned d name) : ∀ name ∈ names, d.get? name = none ∨
      ∃ content promoted, d.get? name = some ⟨.tree content, promoted⟩ := by
  intro name hname
  obtain ⟨content, hentry⟩ := h name hname
  exact Or.inr ⟨content, true, hentry⟩

/-- **The save root exists**, and all that bears a name of the recovery is its own. -/
theorem Arisen.harmless_exists (h : Arisen P s) (hrefused : refused strict P.root = false)
    (hexists : s.folder.exists P.root = true)
    (howned : ∀ name ∈ leftovers P.root s.folder, Abandoned s.folder name)
    (hroot : P.root ∉ leftovers P.root s.folder)
    (hcopy : s.Live P → ∃ name content promoted,
      s.folder.get? name = some ⟨.tree content, promoted⟩ ∧ P.Complete content ∧
        name ∉ leftovers P.root s.folder) : Harmless strict P s := by
  have hcall : recover strict P.root s.folder
      = removeEach (leftovers P.root s.folder) s.folder := by
    rw [recover, hrefused, hexists]
    rfl
  obtain ⟨hend, hget⟩ := removeEach_trees (trees_of_abandoned howned)
  refine harmless_of_quiet hrefused (by rw [hcall]; exact hend) ?_
  rw [hcall]
  refine ⟨⟨fun hlive => ?_, fun hown => ?_, fun name content hkept => ?_⟩, ?_, ?_⟩
  · obtain ⟨name, content, promoted, hentry, hcomplete, hname⟩ := hcopy hlive
    exact ⟨name, content, promoted, by rw [hget, if_neg hname, hentry], hcomplete⟩
  · rw [hget, if_neg hroot]
    rcases h.root_entry hown with ⟨content, promoted, hentry, hcomplete, -⟩ | ⟨hnone, -⟩
    · exact Or.inl ⟨content, promoted, hentry, hcomplete⟩
    · rw [Folder.exists, hnone] at hexists
      cases hexists
  · rw [hget, if_neg (kept_of_abandoned howned hkept), hkept]
  · intro name hstand hname
    rw [hget] at hstand
    split at hstand
    · exact absurd rfl hstand
    · next hnot => exact absurd (mem_leftovers.mpr ⟨hstand, hname⟩) hnot
  · intro hname entry hentry
    rw [hget, if_neg hroot] at hentry
    exact absurd (mem_leftovers.mpr ⟨by rw [hentry]; exact Option.some_ne_none entry, hname⟩) hroot

/-- **No backup.** Only staging directories are removed. -/
theorem Arisen.harmless_empty (h : Arisen P s) (hrefused : refused strict P.root = false)
    (hmissing : s.folder.exists P.root = false) (hbackups : backupDirs P.root s.folder = [])
    (howned : ∀ name ∈ stagingDirs P.root s.folder, Abandoned s.folder name)
    (hsettled : Settled P s) : Harmless strict P s := by
  have hcall : recover strict P.root s.folder
      = removeEach (stagingDirs P.root s.folder) s.folder := by
    rw [recover, hrefused, hmissing, hbackups]
    rfl
  obtain ⟨hend, hget⟩ := removeEach_trees (trees_of_abandoned howned)
  have hnobackup : ∀ name ∈ backupDirs P.root s.folder, False := by
    rw [hbackups]
    exact fun name hname => List.not_mem_nil hname
  -- A dataset that was set aside would be a backup.
  have haside : s.point ≠ .aside := by
    intro hpoint
    obtain ⟨content, hentry, -⟩ := h.backup hpoint
    exact hnobackup _ (mem_backupDirs.mpr ⟨by rw [hentry]; nofun, Or.inl rfl⟩)
  have hleft : ∀ name, (removeEach (stagingDirs P.root s.folder) s.folder).1.get? name ≠ none →
      ¬ Leftover P.root name := by
    intro name hstand hname
    rw [hget] at hstand
    split at hstand
    · exact absurd rfl hstand
    · next hnot =>
      rcases hname with hname | hname
      · exact hnot (mem_stagingDirs.mpr ⟨hstand, hname⟩)
      · exact hnobackup _ (mem_backupDirs.mpr ⟨hstand, hname⟩)
  have hlive : s.rewritten = false → ¬ s.Live P := by
    intro hown
    rcases hsettled with hrewritten | hstand | hnot
    · rw [hown] at hrewritten
      cases hrewritten
    · rw [(h.broken hmissing hstand).1] at hown
      cases hown
    · exact hnot
  have hdead : ¬ s.Live P := by
    cases hown : s.rewritten with
    | false => exact hlive hown
    | true =>
      rcases (h.rewritten hown).2.2 with ⟨hold, hpoint⟩ | hpoint
      · rintro (hsome | hplaced)
        · rw [hold] at hsome
          cases hsome
        · exact hpoint hplaced
      · exact absurd hpoint haside
  refine harmless_of_quiet hrefused (by rw [hcall]; exact hend) ?_
  rw [hcall]
  refine ⟨⟨fun h => absurd h hdead, fun hown => Or.inr ⟨?_, hdead⟩, fun name content hkept => ?_⟩,
    fun name hstand hname => absurd hname (hleft name hstand), fun hname entry hentry => ?_⟩
  · rw [hget]
    rcases h.root_entry hown with ⟨content, promoted, hentry, -, hlive⟩ | ⟨hnone, -⟩
    · exact absurd hlive hdead
    · rw [hnone, ite_self]
  · rw [hget, if_neg (kept_of_abandoned howned hkept), hkept]
  · exact absurd hname (hleft _ (by rw [hentry]; nofun))

/-- **One backup.** It is complete and takes its place. -/
theorem harmless_backup (hrefused : refused strict P.root = false)
    (hmissing : s.folder.exists P.root = false) {backup : String} {content : α}
    (hbackups : backupDirs P.root s.folder = [backup]) (hfree : s.folder.get? P.root = none)
    (hentry : s.folder.get? backup = some ⟨.tree content, true⟩) (hcomplete : P.Complete content)
    (howned : ∀ name ∈ stagingDirs P.root s.folder, Abandoned s.folder name)
    (hname : ¬ s.Live P ∨ ¬ Leftover P.root P.root) : Harmless strict P s := by
  obtain ⟨restored, hrename⟩ : ∃ restored, s.folder.rename backup P.root = some restored := by
    rw [Folder.rename, hentry, hfree]
    exact ⟨_, rfl⟩
  have hvalidate : validate s.folder backup = none := by
    rw [validate, Folder.isSymlink, Folder.isDir, hentry]
    rfl
  have hcall : recover strict P.root s.folder
      = removeEach (stagingDirs P.root s.folder) restored := by
    rw [recover, hrefused, hmissing, hbackups]
    dsimp only
    rw [hvalidate, hrename]
    rfl
  obtain ⟨moved, hmoved, -, hrestored⟩ := get?_rename hrename
  rw [hentry] at hmoved
  obtain rfl := Option.some.inj hmoved
  have hroot : P.root ∉ stagingDirs P.root s.folder := fun hmem =>
    (mem_stagingDirs.mp hmem).1 hfree
  obtain ⟨hend, hremoved⟩ := @removeEach_trees α (stagingDirs P.root s.folder) restored (by
    intro name hmem
    have hne : name ≠ P.root := by
      rintro rfl
      exact hroot hmem
    rw [hrestored, if_neg hne]
    split
    · exact Or.inl rfl
    · exact trees_of_abandoned howned name hmem)
  have hget : ∀ name, (removeEach (stagingDirs P.root s.folder) restored).1.get? name
      = if name = P.root then some ⟨.tree content, true⟩
        else if name = backup ∨ name ∈ stagingDirs P.root s.folder then none
        else s.folder.get? name := by
    intro name
    rw [hremoved, hrestored]
    by_cases heq : name = P.root
    · rw [if_pos heq, if_pos heq, heq, if_neg hroot]
    rw [if_neg heq, if_neg heq]
    by_cases hmem : name ∈ stagingDirs P.root s.folder
    · rw [if_pos hmem, if_pos (Or.inr hmem)]
    · rw [if_neg hmem]
      simp only [hmem, or_false]
  refine harmless_of_quiet hrefused (by rw [hcall]; exact hend) ?_
  rw [hcall]
  have hplaced : (removeEach (stagingDirs P.root s.folder) restored).1.get? P.root
      = some ⟨.tree content, true⟩ := by
    rw [hget, if_pos rfl]
  refine ⟨⟨fun _ => ⟨_, content, true, hplaced, hcomplete⟩,
    fun _ => Or.inl ⟨content, true, hplaced, hcomplete⟩, fun name kept hkept => ?_⟩, ?_, ?_⟩
  · rw [hget, if_neg, if_neg, hkept]
    · rintro (rfl | hmem)
      · rw [hentry] at hkept
        cases hkept
      · exact kept_of_abandoned howned hkept hmem
    · rintro rfl
      rw [hfree] at hkept
      cases hkept
  · intro name hstand hleft
    by_contra hne
    rw [hget, if_neg hne] at hstand
    split at hstand
    · exact hstand rfl
    · next hnot =>
      rw [not_or] at hnot
      rcases hleft with hleft | hleft
      · exact hnot.2 (mem_stagingDirs.mpr ⟨hstand, hleft⟩)
      · have hmem := mem_backupDirs.mpr ⟨hstand, hleft⟩
        rw [hbackups, List.mem_singleton] at hmem
        exact hnot.1 hmem
  · intro hleft entry hroot
    rw [hplaced] at hroot
    obtain rfl := Option.some.inj hroot
    exact ⟨hname.resolve_right (not_not.mpr hleft), content, rfl⟩

end Cases

/-- **The compatibility recovery.** In every folder that an interrupted promotion and others can
leave, it is harmless exactly if the folder is recoverable. -/
theorem harmless_iff (strict : Bool) (P : Promotion α) (s : PromotionState α)
    (hrun : (promoting P).Reach Machine.anyStep s) :
    Harmless strict P s ↔ Recoverable strict P s := by
  have h := arisen_of_reach hrun
  rw [Recoverable]
  cases hrefused : refused strict P.root with
  | true =>
    have hcall : recover strict P.root s.folder = (s.folder, some .pattern) := by
      rw [recover, hrefused]
      rfl
    have hfixed := @recoverTimes_fixed α strict s.folder P.root (by rw [hcall])
    rw [if_pos rfl]
    constructor
    · intro hharmless
      have hpreserved := (hharmless 0).1
      rw [hfixed] at hpreserved
      exact hpreserved.settled rfl
    · intro hsettled times
      rw [hfixed, hfixed, hcall]
      refine ⟨h.preserved hsettled, fun error herror => ?_⟩
      obtain rfl := Option.some.inj herror
      exact id
  | false =>
    rw [if_neg Bool.false_ne_true]
    cases hexists : s.folder.exists P.root with
    | true =>
      rw [if_pos rfl]
      constructor
      · intro hharmless
        obtain ⟨hpreserved, hblame⟩ := hharmless 0
        have hcall : recover strict P.root s.folder
            = removeEach (leftovers P.root s.folder) s.folder := by
          rw [recover, hrefused, hexists]
          rfl
        change Preserved P s (recover strict P.root s.folder).1 at hpreserved
        change ∀ error, (recover strict P.root s.folder).2 = some error →
          ¬ Blames s.folder error at hblame
        rw [hcall] at hpreserved hblame
        exact h.recoverable_exists hblame hpreserved
      · rintro ⟨howned, hroot, hcopy⟩
        exact h.harmless_exists hrefused hexists howned hroot hcopy
    | false =>
      rw [if_neg Bool.false_ne_true]
      cases hbackups : backupDirs P.root s.folder with
      | nil =>
        constructor
        · intro hharmless
          obtain ⟨hpreserved, hblame⟩ := hharmless 0
          have hcall : recover strict P.root s.folder
              = removeEach (stagingDirs P.root s.folder) s.folder := by
            rw [recover, hrefused, hexists, hbackups]
            rfl
          change Preserved P s (recover strict P.root s.folder).1 at hpreserved
          change ∀ error, (recover strict P.root s.folder).2 = some error →
            ¬ Blames s.folder error at hblame
          rw [hcall] at hpreserved hblame
          have howned := h.abandoned hblame hpreserved fun name hname =>
            (mem_stagingDirs.mp hname).1
          refine ⟨howned, ?_⟩
          by_cases hstand : s.folder.get? P.root = none
          · refine hpreserved.settled ?_
            rw [(h.removed hblame).1, hstand, ite_self]
          · exact Or.inr (Or.inl hstand)
        · rintro ⟨howned, hsettled⟩
          exact h.harmless_empty hrefused hexists hbackups howned hsettled
      | cons backup others =>
        cases others with
        | nil =>
          constructor
          · exact h.recoverable_backup hrefused hexists hbackups
          · rintro ⟨hfree, ⟨content, hentry, hcomplete⟩, howned, hname⟩
            exact harmless_backup hrefused hexists hbackups hfree hentry hcomplete howned hname
        | cons second others =>
          -- Several backups: every call stops at once.
          have hcall : recover strict P.root s.folder
              = (s.folder, some (.ambiguous (backup :: second :: others))) := by
            rw [recover, hrefused, hexists, hbackups]
            rfl
          have hfixed := @recoverTimes_fixed α strict s.folder P.root (by rw [hcall])
          constructor
          · intro hharmless
            obtain ⟨hpreserved, hblame⟩ := hharmless 0
            rw [hfixed] at hpreserved hblame
            rw [hcall] at hblame
            have hmany := hblame _ rfl
            rw [Blames] at hmany
            exact ⟨by omega, hpreserved.settled rfl⟩
          · rintro ⟨hmany, hsettled⟩ times
            rw [hfixed, hfixed, hcall]
            refine ⟨h.preserved hsettled, fun error herror => ?_⟩
            obtain rfl := Option.some.inj herror
            rw [Blames]
            omega

/-! ### Runs -/

/-- A promotion over the dataset `old`. -/
def promotionOf (root : String) : Promotion String where
  root := root
  old := some "old"
  new := "new"
  suffix := "cafebabe"
  eight := rfl

/-- The save root, and a directory of others beside it. -/
def folderOf (root beside : String) : PromotionState String where
  folder := ((∅ : Folder String).insert root ⟨.tree "old", false⟩).insert beside
    ⟨.tree "mine", false⟩
  point := .preparing
  stopped := false
  rewritten := false

theorem initial_folderOf {root beside : String} (hroot : beside ≠ root)
    (hstaging : beside ≠ (promotionOf root).staging) :
    Initial (promotionOf root) (folderOf root beside) := by
  have hget : ∀ name, (folderOf root beside).folder.get? name
      = if name = beside then some ⟨.tree "mine", false⟩
        else if name = root then some ⟨.tree "old", false⟩ else none := by
    intro name
    rw [folderOf, Dict.get?_insert, Dict.get?_insert, Dict.get?_empty]
  have hforeign : ∀ name entry, (folderOf root beside).folder.get? name = some entry →
      entry.promoted = false := by
    intro name entry hentry
    rw [hget] at hentry
    split at hentry
    · obtain rfl := Option.some.inj hentry
      rfl
    split at hentry
    · obtain rfl := Option.some.inj hentry
      rfl
    · cases hentry
  refine ⟨rfl, rfl, rfl, ?_, fun entry hentry => ?_, fun name entry hentry hmade => ?_⟩
  · show ((folderOf root beside).folder.get? root).map Entry.node = _
    rw [hget, if_neg hroot.symm, if_pos rfl]
    rfl
  · rw [hget, if_neg hstaging.symm, 
      if_neg (show (promotionOf root).staging ≠ root from (promotionOf root).staging_ne_root)] at hentry
    cases hentry
  · rw [hforeign name entry hentry] at hmade
    cases hmade

/-- The start of a promotion is a state of it. -/
theorem reach_folderOf {root beside : String} (hroot : beside ≠ root)
    (hstaging : beside ≠ (promotionOf root).staging) :
    (promoting (promotionOf root)).Reach Machine.anyStep (folderOf root beside) :=
  .init (initial_folderOf hroot hstaging)

/-- An old dataset that was set aside, and the whole promotion stopped there, is restored. -/
theorem setAside_harmless : ∃ s, (promoting (promotionOf "saves")).Reach Machine.anyStep s ∧
    Harmless false (promotionOf "saves") s := by
  obtain ⟨s, hreach, hcheck⟩ := @Machine.exists_reach_of_drive _ _
    (promoting (promotionOf "saves")) Machine.anyStep (folderOf "saves" "music") _
    [.stage, .clear, .setAside, .stop]
    (fun s => s.folder.exists "saves" == false && backupDirs "saves" s.folder == ["saves.previous"]
      && stagingDirs "saves" s.folder == [".saves.staging-cafebabe"]
      && s.folder.get? "saves" == none
      && s.folder.get? "saves.previous" == some ⟨.tree "old", true⟩
      && s.folder.get? ".saves.staging-cafebabe" == some ⟨.tree "new", true⟩)
    (reach_folderOf (by decide) (by decide)) (by decide +kernel)
  simp only [Bool.and_eq_true, beq_iff_eq] at hcheck
  obtain ⟨⟨⟨⟨⟨hexists, hbackups⟩, hstaging⟩, hfree⟩, hprevious⟩, hnew⟩ := hcheck
  have hname : ¬ Leftover "saves" "saves" := by
    unfold Leftover
    decide +kernel
  refine ⟨s, hreach, (harmless_iff false _ s hreach).mpr ?_⟩
  rw [Recoverable, if_neg (by decide +kernel)]
  show if s.folder.exists "saves" then _ else _
  rw [hexists, if_neg Bool.false_ne_true]
  show match backupDirs "saves" s.folder with | [] => _ | [backup] => _ | backups => _
  rw [hbackups]
  refine ⟨hfree, ⟨"old", hprevious, Or.inl rfl⟩, fun name hmem => ?_, Or.inr hname⟩
  change name ∈ stagingDirs "saves" s.folder at hmem
  rw [hstaging, List.mem_singleton] at hmem
  exact ⟨"new", hmem ▸ hnew⟩

/-- A save root that another program has made anew costs the dataset that was set aside, and brackets
in the name of the save root cost a directory of the user. -/
theorem recovery_destroys :
    (∃ s, (promoting (promotionOf "saves")).Reach Machine.anyStep s ∧
      ¬ Harmless false (promotionOf "saves") s) ∧
    ∃ s, (promoting (promotionOf "saves[1]")).Reach Machine.anyStep s ∧
      ¬ Harmless false (promotionOf "saves[1]") s := by
  constructor
  · obtain ⟨s, hreach, hcheck⟩ := @Machine.exists_reach_of_drive _ _
      (promoting (promotionOf "saves")) Machine.anyStep (folderOf "saves" "music") _
      [.stage, .clear, .setAside, .stop, .other (.tree "")]
      (fun s => (recover false "saves" s.folder).1.entries.all fun entry =>
        entry.2.node != .tree "old" && entry.2.node != .tree "new")
      (reach_folderOf (by decide) (by decide)) (by decide +kernel)
    refine ⟨s, hreach, fun hharmless => ?_⟩
    obtain ⟨name, content, promoted, hentry, hcomplete⟩ := (hharmless 0).1.copy (Or.inl rfl)
    have hmem := List.all_eq_true.mp hcheck _ ((Dict.get?_eq_some_iff _ _ _).mp hentry)
    simp only [Bool.and_eq_true, bne_iff_ne] at hmem
    rcases hcomplete with hold | hnew
    · obtain rfl := Option.some.inj hold
      exact hmem.1 rfl
    · change "new" = content at hnew
      subst hnew
      exact hmem.2 rfl
  · refine ⟨folderOf "saves[1]" "saves1.previous-mine", reach_folderOf (by decide) (by decide),
      fun hharmless => ?_⟩
    have hkept := (hharmless 0).1.kept "saves1.previous-mine" "mine" (by decide +kernel)
    have hgone : (recover false "saves[1]"
        (folderOf "saves[1]" "saves1.previous-mine").folder).1.get? "saves1.previous-mine" = none := by
      decide +kernel
    have hboth := hgone.symm.trans hkept
    cases hboth

end RomCloud.SaveSync.SaveTree
