import RomCloud.Ports.Gamelist

namespace RomCloud.Ports

open RomCloud.Lib

/-!
# The Ports entry among the entries of others

The launcher of ROMCloud is one file in the ports directory, and an entry is ROMCloud's if its path
leads there.  The installation finds its entry by the file name without case, the proof of
ownership by the exact path, and the removal by the file name again.

* `isLauncherGame` — the entries whose path leads to the launcher;
* `Lawful` — what a call has to do, and what it must not;
* `Fits` — the files on which a call does so;
* `reconcile_lawful_iff`, `remove_lawful_iff` — that these are all;
* `gamelist_calls_iff` — the same of all calls of a run, which keeps the entries of others.
-/

/-- The path of an entry leads to `ROMCloud.sh` in the ports directory. -/
def denotesLauncher (portsDir path : String) : Bool :=
  if path.toList.head? = some '/' then posixParts path = posixParts portsDir ++ ["ROMCloud.sh"]
  else posixParts path = ["ROMCloud.sh"]

def isLauncherGame (portsDir : String) (game : Element) : Bool :=
  denotesLauncher portsDir (gamePath game)

/-- The entries of others. -/
def foreignGames (portsDir : String) (file : Option Gamelist) : List Element :=
  (games file).filter (fun game => !isLauncherGame portsDir game)

/-- The entries of the launcher. -/
def launcherGames (portsDir : String) (file : Option Gamelist) : List Element :=
  (games file).filter (isLauncherGame portsDir)

/-- The entry that the ownership proof looks at. -/
def isExact (game : Element) : Bool := gamePath game = romcloudRomPath

inductive Call
  | reconcile (image name : String)
  | remove (launcherOwned : Bool)

section Runs

variable (lower : String → String) (tostring : Element → String) (portsDir : String)

/-- The file after a call: a file that cannot be read stays. -/
def Call.run (file : Option Gamelist) : Call → Option Gamelist
  | .reconcile image name =>
    match Ports.reconcile lower tostring image name file with
    | .ok (g, _) => some g
    | .error _ => file
  | .remove launcherOwned => Ports.remove lower tostring launcherOwned file

/-- What an installation has to do with the file. -/
structure Installs (image name : String) (file : Option Gamelist) (after : Gamelist) : Prop where
  kept : foreignGames portsDir (some after) = foreignGames portsDir file
  single : ∃ own, launcherGames portsDir (some after) = [own] ∧ Carries name image own
  settled : Ports.reconcile lower tostring image name (some after) = .ok (after, false)

/-- What a removal has to do with the file, where the launcher and the entry are proved to be
ROMCloud's: only the entry of the proof goes, and the next proof finds none. -/
structure Uninstalls (file after : Option Gamelist) : Prop where
  kept : foreignGames portsDir after = foreignGames portsDir file
  removed : games after = (games file).filter (fun game => !isExact game)
  gone : (after.bind fromstring).map ownedMatches = some []

/-- What a call has to do. -/
def Lawful (file : Option Gamelist) : Call → Prop
  | .reconcile image name =>
    ∀ g changed, Ports.reconcile lower tostring image name file = .ok (g, changed) →
      Installs lower tostring portsDir image name file g
  | .remove launcherOwned =>
    let after := Ports.remove lower tostring launcherOwned file
    if launcherOwned && entryOwned file then Uninstalls portsDir file after else after = file

/-- The files on which a call does what it has to. An installation needs that no entry has the file
name of the launcher, or that the launcher has one entry, and this is the first with the file name
(or neither is changed). A removal needs that no entry but the proved one has the file name. -/
def Fits (file : Option Gamelist) : Call → Prop
  | .reconcile image name =>
    (parseRoot file).isSome = true →
      (∀ game ∈ games file, isRomcloudEntry lower romcloudRomPath game = false) ∨
      ∃ own, launcherGames portsDir file = [own] ∧
        ∀ first, (games file).find? (isRomcloudEntry lower romcloudRomPath) = some first →
          isLauncherGame portsDir first = true ∨ (Carries name image first ∧ Carries name image own)
  | .remove launcherOwned =>
    launcherOwned = true → entryOwned file = true →
      ∀ game ∈ games file, isRomcloudEntry lower romcloudRomPath game = true → isExact game = true

/-- A property of every call of a run. -/
def Along (P : Option Gamelist → Call → Prop) : Option Gamelist → List Call → Prop
  | _, [] => True
  | file, call :: calls => P file call ∧ Along P (call.run lower tostring file) calls

/-- The file after a run. -/
def runCalls (file : Option Gamelist) (calls : List Call) : Option Gamelist :=
  calls.foldl (Call.run lower tostring) file

end Runs

/-! ### The three rules -/

section Rules

variable {lower : String → String} {portsDir : String} {game : Element}

theorem posixName_romcloudRomPath : posixName romcloudRomPath = "ROMCloud.sh" := by decide

/-- The exact path leads to the launcher. -/
theorem isLauncherGame_of_isExact (h : isExact game = true) :
    isLauncherGame portsDir game = true := by
  have hpath : gamePath game = romcloudRomPath := of_decide_eq_true h
  rw [isLauncherGame, hpath, denotesLauncher, if_neg (by decide)]
  decide

/-- An entry of the launcher has its file name. -/
theorem isRomcloudEntry_of_isLauncherGame (h : isLauncherGame portsDir game = true) :
    isRomcloudEntry lower romcloudRomPath game = true := by
  have hname : posixName (gamePath game) = "ROMCloud.sh" ∧ gamePath game ≠ "" := by
    have hparts : ∃ dirs, posixParts (gamePath game) = dirs ++ ["ROMCloud.sh"] := by
      rw [isLauncherGame, denotesLauncher] at h
      split at h
      · exact ⟨_, of_decide_eq_true h⟩
      · exact ⟨[], of_decide_eq_true h⟩
    obtain ⟨dirs, hdirs⟩ := hparts
    constructor
    · rw [posixName, hdirs]
      simp
    · intro hempty
      rw [hempty, show posixParts "" = [] by decide] at hdirs
      simp at hdirs
  rw [isRomcloudEntry, hname.1, posixName_romcloudRomPath]
  simp [hname.2]

end Rules

/-! ### Installation -/

section Install

variable {lower : String → String} {tostring : Element → String} {portsDir name image : String}

theorem append_newline_ne_empty (a b : String) : a ++ b ++ "\n" ≠ "" := by
  intro h
  have hlast := (String.append_eq_empty_iff.mp h).2
  revert hlast
  decide

theorem document_ne_empty (root : Element) : document tostring root ≠ "" :=
  append_newline_ne_empty _ _

/-- The games of a file that was written. -/
theorem games_written (root : Element) :
    games (some ⟨document tostring root, some root⟩) = gamesIn root := by
  rw [games, parseRoot, if_neg (document_ne_empty root)]
  rfl

/-- The first entry that matches after an installation carries the name and the image. -/
theorem find?_placeEntry (children : List Element) :
    ∃ own, (placeEntry lower romcloudRomPath name image children).find?
        (isRomcloudGame lower romcloudRomPath) = some own ∧ Carries name image own := by
  rw [placeEntry]
  by_cases hany : children.any (isRomcloudGame lower romcloudRomPath) = true
  · obtain ⟨a, hfind⟩ := Option.isSome_iff_exists.mp (by
      rw [List.find?_isSome]
      exact List.any_eq_true.mp hany)
    obtain ⟨ha, before, after, hsplit, hbefore⟩ := List.find?_eq_some_iff_append.mp hfind
    have hnone : ∀ b ∈ before, isRomcloudGame lower romcloudRomPath b = false := by
      intro b hb
      simpa using hbefore b hb
    refine ⟨updateEntry name image a, ?_, carries_updateEntry a⟩
    rw [if_pos hany, hsplit, updateFirst_append _ _ hnone ha]
    refine List.find?_eq_some_iff_append.mpr ⟨?_, before, after, rfl, hbefore⟩
    rw [isRomcloudGame_updateEntry, ha]
  · refine ⟨newEntry romcloudRomPath name image, ?_, carries_newEntry _⟩
    rw [if_neg hany, List.find?_append, List.find?_eq_none.mpr (by
      intro x hx hmatch
      exact hany (List.any_eq_true.mpr ⟨x, hx, hmatch⟩))]
    simp [isRomcloudGame_newEntry]

/-- Where the first entry that matches carries the name and the image, the update says nothing
new. -/
theorem map_compact_placeEntry {children : List Element} {own : Element}
    (hfind : children.find? (isRomcloudGame lower romcloudRomPath) = some own)
    (hcarries : Carries name image own) :
    (placeEntry lower romcloudRomPath name image children).map Element.compact
      = children.map Element.compact := by
  obtain ⟨hown, before, after, rfl, hbefore⟩ := List.find?_eq_some_iff_append.mp hfind
  have hany : (before ++ own :: after).any (isRomcloudGame lower romcloudRomPath) = true :=
    List.any_eq_true.mpr ⟨own, by simp, hown⟩
  have hnone : ∀ b ∈ before, isRomcloudGame lower romcloudRomPath b = false := by
    intro b hb
    simpa using hbefore b hb
  rw [placeEntry, if_pos hany, updateFirst_append _ _ hnone hown, List.map_append, List.map_append,
    List.map_cons, List.map_cons, (compact_updateEntry_iff own).mpr hcarries]

/-- The first entry that matches, in elements that say the same. -/
theorem find?_isRomcloudGame_congr {es es' : List Element}
    (h : es.map Element.compact = es'.map Element.compact) :
    (es.find? (isRomcloudGame lower romcloudRomPath)).map Element.compact
      = (es'.find? (isRomcloudGame lower romcloudRomPath)).map Element.compact := by
  have hmap : ∀ es : List Element, (es.map Element.compact).find? (isRomcloudGame lower romcloudRomPath)
      = (es.find? (isRomcloudGame lower romcloudRomPath)).map Element.compact := by
    intro es
    rw [List.find?_map]
    exact congrArg (fun p => (es.find? p).map Element.compact)
      (funext fun e => isRomcloudGame_compact e)
  rw [← hmap, h, hmap]

/-- A second installation finds its own tree. -/
theorem upsertRomcloudEntry_idem (root : Element) :
    upsertRomcloudEntry lower romcloudRomPath name image
        (upsertRomcloudEntry lower romcloudRomPath name image root)
      = upsertRomcloudEntry lower romcloudRomPath name image root := by
  obtain ⟨own, hfind, hcarries⟩ := @find?_placeEntry lower name image root.children
  set e : Element :=
    { root with children := placeEntry lower romcloudRomPath name image root.children } with he
  have hsame : (e.indentAt 0).children.map Element.compact = e.children.map Element.compact := by
    rw [← Element.children_compact, Element.compact_indentAt, Element.children_compact]
  -- The first entry that matches is the one of the first installation, laid out.
  have hfound := @find?_isRomcloudGame_congr lower _ _ hsame
  rw [show e.children.find? _ = some own from hfind, Option.map_some] at hfound
  obtain ⟨own', hfind', hcompact⟩ := Option.map_eq_some_iff.mp hfound
  have hcarries' : Carries name image own' := by
    rw [← carries_compact, hcompact, carries_compact]
    exact hcarries
  have hne : e.children ≠ [] := by
    intro hnil
    have hnone : e.children.find? (isRomcloudGame lower romcloudRomPath) = none := by
      rw [hnil, List.find?_nil]
    exact absurd (hnone.symm.trans hfind) nofun
  have hmap := (map_compact_placeEntry hfind' hcarries').trans hsame
  exact Element.indentAt_congr 0 (Element.compact_indentAt_with hne hmap)
    (Element.tail_indentAt 0 e)

/-- An installation, in terms of the games. -/
theorem installs_iff {file : Option Gamelist} {g : Gamelist} {changed : Bool} {root : Element}
    (hroot : parseRoot file = some root)
    (hrun : reconcile lower tostring image name file = .ok (g, changed)) :
    Installs lower tostring portsDir image name file g ↔
      foreignGames portsDir (some g) = foreignGames portsDir file ∧
        ∃ own, launcherGames portsDir (some g) = [own] ∧ Carries name image own := by
  constructor
  · exact fun h => ⟨h.kept, h.single⟩
  · rintro ⟨hkept, hsingle⟩
    refine ⟨hkept, hsingle, ?_⟩
    rw [reconcile, hroot] at hrun
    have hg : g = ⟨document tostring (upsertRomcloudEntry lower romcloudRomPath name image root),
        some (upsertRomcloudEntry lower romcloudRomPath name image root)⟩ :=
      (Prod.mk.inj (Except.ok.inj hrun)).1.symm
    rw [hg, reconcile, parseRoot, if_neg (document_ne_empty _)]
    simp only [upsertRomcloudEntry_idem]
    simp

/-- The games of a file after an installation. -/
theorem games_reconcile {file : Option Gamelist} {g : Gamelist} {changed : Bool} {root : Element}
    (hroot : parseRoot file = some root)
    (hrun : reconcile lower tostring image name file = .ok (g, changed)) :
    games file = gamesIn root ∧
      games (some g) = gamesIn (upsertRomcloudEntry lower romcloudRomPath name image root) := by
  rw [reconcile, hroot] at hrun
  rw [← (Prod.mk.inj (Except.ok.inj hrun)).1, games_written, games, hroot]
  exact ⟨rfl, rfl⟩

theorem isLauncherGame_newEntry :
    isLauncherGame portsDir (newEntry romcloudRomPath name image).compact = true := by
  refine isLauncherGame_of_isExact ?_
  have hpath : gamePath (newEntry romcloudRomPath name image) = romcloudRomPath := by
    show strip romcloudRomPath = romcloudRomPath
    decide
  rw [isExact, gamePath_compact, hpath]
  exact decide_eq_true rfl

/-- An installation does what it has to exactly on the files of `Fits`. -/
theorem reconcile_lawful_iff (file : Option Gamelist) :
    Lawful lower tostring portsDir file (.reconcile image name) ↔
      Fits lower portsDir file (.reconcile image name) := by
  cases hroot : parseRoot file with
  | none =>
    refine iff_of_true (fun g changed hrun => ?_) (fun h => by rw [hroot] at h; cases h)
    rw [reconcile, hroot] at hrun
    cases hrun
  | some root =>
    obtain ⟨g, changed, hrun⟩ : ∃ g changed,
        reconcile lower tostring image name file = .ok (g, changed) := by
      rw [reconcile, hroot]
      exact ⟨_, _, rfl⟩
    obtain ⟨hbefore, hafter⟩ := games_reconcile hroot hrun
    have hlawful : Lawful lower tostring portsDir file (.reconcile image name) ↔
        foreignGames portsDir (some g) = foreignGames portsDir file ∧
          ∃ own, launcherGames portsDir (some g) = [own] ∧ Carries name image own := by
      rw [← installs_iff hroot hrun]
      refine ⟨fun h => h g changed hrun, fun h g' changed' hrun' => ?_⟩
      rw [hrun] at hrun'
      obtain ⟨rfl, -⟩ := Prod.mk.inj (Except.ok.inj hrun')
      exact h
    rw [hlawful, foreignGames, foreignGames, launcherGames, Fits, launcherGames, hroot, hbefore,
      hafter]
    rcases @upsert_spec lower name image root with ⟨hnone, hgames⟩ | ⟨before, game, after, updated,
      hsplit, hfirst, hmatch, hgames, hpath, hcarries, hsame⟩
    · -- No entry has the file name: the new one is the only one of the launcher.
      rw [hgames, List.filter_append, List.filter_append]
      have hown : (gamesIn root).filter (isLauncherGame portsDir) = [] := by
        rw [List.filter_eq_nil_iff]
        intro e he hlauncher
        have hentry := @isRomcloudEntry_of_isLauncherGame lower portsDir e hlauncher
        rw [hnone e he] at hentry
        cases hentry
      refine iff_of_true ⟨?_, ?_⟩ fun _ => Or.inl hnone
      · rw [List.filter_singleton, isLauncherGame_newEntry]
        simp
      · rw [hown, List.filter_singleton, isLauncherGame_newEntry]
        exact ⟨_, rfl, (carries_compact _).mpr (carries_newEntry _)⟩
    · have hfind : (before ++ game :: after).find? (isRomcloudEntry lower romcloudRomPath)
          = some game :=
        List.find?_eq_some_iff_append.mpr ⟨hmatch, before, after, rfl, fun b hb => by
          rw [hfirst b hb]; rfl⟩
      have hlauncher : isLauncherGame portsDir updated = isLauncherGame portsDir game := by
        rw [isLauncherGame, isLauncherGame, hpath]
      have hsome : ¬ ∀ e ∈ gamesIn root, isRomcloudEntry lower romcloudRomPath e = false := by
        intro hall
        rw [hall game (by simp [hsplit])] at hmatch
        cases hmatch
      have hown : before.filter (isLauncherGame portsDir) = [] := by
        rw [List.filter_eq_nil_iff]
        intro e he hcase
        have hentry := @isRomcloudEntry_of_isLauncherGame lower portsDir e hcase
        rw [hfirst e he] at hentry
        cases hentry
      rw [or_iff_right hsome, hgames, hsplit, List.filter_append, List.filter_append,
        List.filter_append, List.filter_append, hown, List.nil_append, List.nil_append, hfind]
      cases hgame : isLauncherGame portsDir game with
      | true =>
        -- The first entry is the launcher's: it must be the only one.
        rw [hgame] at hlauncher
        rw [List.filter_cons_of_neg (by simp [hlauncher]), List.filter_cons_of_neg (by simp [hgame]),
          List.filter_cons_of_pos hlauncher, List.filter_cons_of_pos hgame]
        constructor
        · rintro ⟨-, own, hown', -⟩ -
          rw [List.cons.injEq] at hown'
          exact ⟨game, by rw [hown'.2], fun first hfirst' => Or.inl (by cases hfirst'; exact hgame)⟩
        · intro h
          obtain ⟨own, hown', -⟩ := h rfl
          rw [List.cons.injEq] at hown'
          exact ⟨rfl, updated, by rw [hown'.2], hcarries⟩
      | false =>
        -- The first entry is of another program: it must not change.
        rw [hgame] at hlauncher
        rw [List.filter_cons_of_pos (by simp [hlauncher]), List.filter_cons_of_pos (by simp [hgame]),
          List.filter_cons_of_neg (by simp [hlauncher]), List.filter_cons_of_neg (by simp [hgame])]
        constructor
        · rintro ⟨hkept, own, hown', hcarried⟩ -
          have hupdated : updated = game := (List.cons.inj (List.append_cancel_left hkept)).1
          refine ⟨own, hown', fun first hfirst' => Or.inr ?_⟩
          cases hfirst'
          exact ⟨hsame.mp hupdated, hcarried⟩
        · intro h
          obtain ⟨own, hown', hall⟩ := h rfl
          rcases hall game rfl with hcase | ⟨hcarried, howned⟩
          · rw [hgame] at hcase
            cases hcase
          · exact ⟨by rw [hsame.mpr hcarried], own, hown', howned⟩

end Install

/-! ### Removal -/

section Uninstall

variable {lower : String → String} {tostring : Element → String} {portsDir : String}

theorem ownedMatches_map_compact (root : Element) :
    (ownedMatches root).map Element.compact = (gamesIn root).filter isExact := by
  have hexact : ∀ e : Element, isExact e.compact = isExact e := fun e => by
    rw [isExact, isExact, gamePath_compact]
  have hfilter : ownedMatches root = root.children.filter (fun e => isExact e.compact && isGame e) := by
    refine List.filter_congr fun e _ => ?_
    rw [hexact, Bool.and_comm, isExact]
  rw [hfilter, gamesIn_eq, List.filter_map, List.filter_filter]
  rfl

/-- The games after a removal are those that do not match. -/
theorem gamesIn_removeRomcloudEntry (root : Element) :
    gamesIn (removeRomcloudEntry lower romcloudRomPath root).1
      = (gamesIn root).filter (fun game => !isRomcloudEntry lower romcloudRomPath game) := by
  rw [removeRomcloudEntry]
  by_cases hany : root.children.any (isRomcloudGame lower romcloudRomPath) = true
  · have hfilter : (root.children.filter
        (fun e => !isRomcloudGame lower romcloudRomPath e)).filter isGame
          = (root.children.filter isGame).filter
              (fun e => !isRomcloudEntry lower romcloudRomPath e.compact) := by
      rw [List.filter_filter, List.filter_filter]
      refine List.filter_congr fun e _ => ?_
      rw [isRomcloudEntry_compact, isRomcloudGame]
      cases isGame e <;> simp
    rw [if_pos hany, gamesIn_indentAt, gamesIn_eq, gamesIn_eq, List.filter_map]
    exact congrArg (List.map Element.compact) hfilter
  · rw [if_neg hany]
    refine (List.filter_eq_self.mpr fun game hgame => ?_).symm
    rw [gamesIn_eq] at hgame
    obtain ⟨x, hx, rfl⟩ := List.mem_map.mp hgame
    rw [List.mem_filter] at hx
    rw [isRomcloudEntry_compact, Bool.not_eq_true', Bool.eq_false_iff]
    intro hmatch
    exact hany (List.any_eq_true.mpr ⟨x, hx.1, by rw [isRomcloudGame, hx.2, hmatch]; rfl⟩)

/-- The exact path is one that matches. -/
theorem isRomcloudEntry_of_isExact {game : Element} (h : isExact game = true) :
    isRomcloudEntry lower romcloudRomPath game = true :=
  @isRomcloudEntry_of_isLauncherGame lower "" game (isLauncherGame_of_isExact h)

/-- A proved entry is one that matches. -/
theorem removed_of_entryOwned {root : Element} {game : Element} (h : ownedMatches root = [game]) :
    (removeRomcloudEntry lower romcloudRomPath root).2 = true := by
  have hmem : game ∈ ownedMatches root := by simp [h]
  rw [ownedMatches, List.mem_filter, Bool.and_eq_true] at hmem
  have hmatch : isRomcloudGame lower romcloudRomPath game = true := by
    rw [isRomcloudGame, hmem.2.1, isRomcloudEntry_of_isExact hmem.2.2]
    rfl
  have hany : root.children.any (isRomcloudGame lower romcloudRomPath) = true :=
    List.any_eq_true.mpr ⟨game, hmem.1, hmatch⟩
  rw [removeRomcloudEntry, if_pos hany]

/-- A removal does what it has to exactly on the files of `Fits`. -/
theorem remove_lawful_iff (file : Option Gamelist) (launcherOwned : Bool) :
    Lawful lower tostring portsDir file (.remove launcherOwned) ↔
      Fits lower portsDir file (.remove launcherOwned) := by
  rw [Lawful, Fits]
  by_cases hproved : (launcherOwned && entryOwned file) = true
  · obtain ⟨hlauncher, hentry⟩ := Bool.and_eq_true_iff.mp hproved
    rw [if_pos hproved, forall_prop_of_true hlauncher, forall_prop_of_true hentry]
    obtain ⟨g, rfl⟩ : ∃ g, file = some g := by
      cases file with
      | none => cases hentry
      | some g => exact ⟨g, rfl⟩
    obtain ⟨root, hroot⟩ : ∃ root, fromstring g = some root := by
      cases hcase : fromstring g with
      | none => rw [entryOwned, Option.bind_some, hcase] at hentry; cases hentry
      | some root => exact ⟨root, rfl⟩
    have hmatches : ∃ game, ownedMatches root = [game] := by
      rw [entryOwned, Option.bind_some, hroot] at hentry
      cases hcase : ownedMatches root with
      | nil => simp [hcase] at hentry
      | cons game rest =>
        cases rest with
        | nil => exact ⟨game, rfl⟩
        | cons other rest => simp [hcase] at hentry
    obtain ⟨game, hgame⟩ := hmatches
    have hgames : games (some g) = gamesIn root := by
      rw [fromstring] at hroot
      by_cases hempty : g.text = ""
      · rw [if_pos hempty] at hroot; cases hroot
      · rw [if_neg hempty] at hroot
        rw [games, parseRoot, if_neg hempty, hroot]
        rfl
    have hrun : remove lower tostring launcherOwned (some g)
        = some ⟨document tostring (removeRomcloudEntry lower romcloudRomPath root).1,
            some (removeRomcloudEntry lower romcloudRomPath root).1⟩ := by
      have hremoved := @removed_of_entryOwned lower root game hgame
      rw [remove, if_pos hproved, Option.bind_some, hroot]
      simp only [hremoved, if_true]
    have hafter : games (remove lower tostring launcherOwned (some g))
        = (gamesIn root).filter (fun e => !isRomcloudEntry lower romcloudRomPath e) := by
      rw [hrun, games_written, gamesIn_removeRomcloudEntry]
    show Uninstalls portsDir (some g) (remove lower tostring launcherOwned (some g)) ↔ _
    constructor
    · intro h e he hmatch
      have hremoved := h.removed
      rw [hafter, hgames] at hremoved
      rw [hgames] at he
      by_contra hexact
      have hmem : e ∈ (gamesIn root).filter (fun e => !isExact e) :=
        List.mem_filter.mpr ⟨he, by rw [Bool.eq_false_iff.mpr hexact]; rfl⟩
      rw [← hremoved, List.mem_filter, hmatch] at hmem
      exact absurd hmem.2 (by simp)
    · intro h
      rw [hgames] at h
      have hsame : (gamesIn root).filter (fun e => !isRomcloudEntry lower romcloudRomPath e)
          = (gamesIn root).filter (fun e => !isExact e) := by
        refine List.filter_congr fun e he => ?_
        cases hexact : isExact e with
        | true => rw [isRomcloudEntry_of_isExact hexact]
        | false =>
          cases hmatch : isRomcloudEntry lower romcloudRomPath e with
          | true => rw [h e he hmatch] at hexact; cases hexact
          | false => rfl
      refine ⟨?_, by rw [hafter, hgames, hsame], ?_⟩
      · rw [foreignGames, foreignGames, hafter, hgames, hsame, List.filter_filter]
        refine List.filter_congr fun e _ => ?_
        cases hexact : isExact e with
        | true => simp [isLauncherGame_of_isExact hexact]
        | false => simp
      · rw [hrun, Option.bind_some, fromstring, if_neg (document_ne_empty _), Option.map_some,
          Option.some.injEq]
        have hnone : (ownedMatches (removeRomcloudEntry lower romcloudRomPath root).1).map
            Element.compact = [] := by
          rw [ownedMatches_map_compact, gamesIn_removeRomcloudEntry, hsame, List.filter_filter,
            List.filter_eq_nil_iff]
          intro e _
          simp
        exact List.map_eq_nil_iff.mp hnone
  · rw [if_neg hproved]
    refine iff_of_true ?_ fun hlauncher hentry => absurd (by rw [hlauncher, hentry]; rfl) hproved
    rw [remove, if_neg hproved]

end Uninstall

/-! ### Runs -/

section Run

variable {lower : String → String} {tostring : Element → String} {portsDir : String}

theorem lawful_iff (file : Option Gamelist) (call : Call) :
    Lawful lower tostring portsDir file call ↔ Fits lower portsDir file call := by
  cases call with
  | reconcile image name => exact reconcile_lawful_iff file
  | remove launcherOwned => exact remove_lawful_iff file launcherOwned

/-- A lawful call keeps the entries of others. -/
theorem foreignGames_run {file : Option Gamelist} {call : Call}
    (h : Lawful lower tostring portsDir file call) :
    foreignGames portsDir (call.run lower tostring file) = foreignGames portsDir file := by
  cases call with
  | reconcile image name =>
    rw [Call.run]
    cases hrun : reconcile lower tostring image name file with
    | error e => rfl
    | ok result => exact (h result.1 result.2 hrun).kept
  | remove launcherOwned =>
    rw [Lawful] at h
    rw [Call.run]
    by_cases hproved : (launcherOwned && entryOwned file) = true
    · rw [if_pos hproved] at h
      exact h.kept
    · rw [remove, if_neg hproved]

theorem Along.imp {P Q : Option Gamelist → Call → Prop} (h : ∀ file call, P file call → Q file call)
    {file : Option Gamelist} {calls : List Call} (halong : Along lower tostring P file calls) :
    Along lower tostring Q file calls := by
  induction calls generalizing file with
  | nil => trivial
  | cons call calls ih => exact ⟨h _ _ halong.1, ih halong.2⟩

theorem foreignGames_runCalls {file : Option Gamelist} {calls : List Call}
    (h : Along lower tostring (Lawful lower tostring portsDir) file calls) :
    foreignGames portsDir (runCalls lower tostring file calls) = foreignGames portsDir file := by
  induction calls generalizing file with
  | nil => rfl
  | cons call calls ih =>
    rw [runCalls, List.foldl_cons]
    exact (ih h.2).trans (foreignGames_run h.1)

/-- **Every call of a run does what it has to exactly if it fits its file, and such a run keeps the
entries of others.** -/
theorem gamelist_calls_iff (lower : String → String) (tostring : Element → String)
    (portsDir : String) (file : Option Gamelist) (calls : List Call) :
    (Along lower tostring (Lawful lower tostring portsDir) file calls ↔
      Along lower tostring (Fits lower portsDir) file calls) ∧
    (Along lower tostring (Fits lower portsDir) file calls →
      foreignGames portsDir (runCalls lower tostring file calls) = foreignGames portsDir file) := by
  have hto : Along lower tostring (Fits lower portsDir) file calls →
      Along lower tostring (Lawful lower tostring portsDir) file calls :=
    Along.imp fun file call => (lawful_iff file call).mpr
  exact ⟨⟨Along.imp fun file call => (lawful_iff file call).mp, hto⟩,
    fun h => foreignGames_runCalls (hto h)⟩

end Run

/-! ### Entries with the file name of the launcher -/

/-- `str.lower`, of ASCII texts. -/
def asciiLower (text : String) : String := String.ofList (text.toList.map Char.toLower)

/-- A program of the user, in a directory of its own and with small letters. -/
def toolEntry : Element :=
  ⟨"game", [], "", "", [.leaf "path" "./tools/romcloud.sh", .leaf "name" "My tool"]⟩

def fileWith (entries : List Element) : Gamelist :=
  let root := Element.indentAt 0 { emptyGamelist with children := entries }
  ⟨document Element.tostring root, some root⟩

/-- A file with the program of the user. -/
def toolGamelist : Gamelist := fileWith [toolEntry]

/-- The same file after ROMCloud's entry was put before it. -/
def sharedGamelist : Gamelist :=
  fileWith [newEntry romcloudRomPath romcloudGameName romcloudImageRelativePath, toolEntry]

/-- The installation turns the entry of the user's program into its own, and the launcher gets none;
the removal takes the entry of the program away with the one that was proved. -/
theorem toolEntry_lost :
    ¬ Lawful asciiLower Element.tostring "/userdata/roms/ports" (some toolGamelist)
        (.reconcile romcloudImageRelativePath romcloudGameName) ∧
    ¬ Lawful asciiLower Element.tostring "/userdata/roms/ports" (some sharedGamelist)
        (.remove true) := by
  constructor
  · rw [lawful_iff]
    intro h
    rcases h (by decide +kernel) with hnone | ⟨own, hown, -⟩
    · exact absurd (List.all_eq_true.mpr fun game hgame => by rw [hnone game hgame]; rfl :
        (games (some toolGamelist)).all (fun game =>
          !isRomcloudEntry asciiLower romcloudRomPath game) = true) (by decide +kernel)
    · have hlength : (launcherGames "/userdata/roms/ports" (some toolGamelist)).length = 1 := by
        rw [hown]
        rfl
      exact absurd hlength (by decide +kernel)
  · rw [lawful_iff]
    intro h
    have hall := h rfl (by decide +kernel)
    exact absurd (List.all_eq_true.mpr fun game hgame => by
        rw [Bool.or_eq_true, Bool.not_eq_true']
        by_cases hmatch : isRomcloudEntry asciiLower romcloudRomPath game = true
        · exact Or.inr (hall game hgame hmatch)
        · exact Or.inl (Bool.eq_false_iff.mpr hmatch) :
      (games (some sharedGamelist)).all (fun game =>
        !isRomcloudEntry asciiLower romcloudRomPath game || isExact game) = true) (by decide +kernel)

end RomCloud.Ports
