import RomCloud.Lib.XmlLayout

namespace RomCloud.Ports

open RomCloud.Lib

/-!
# The Ports gamelist

EmulationStation keeps the entries of all ports in one XML file, which other installers and the
user write too.

* `isRomcloudEntry` — the entries that installation and removal take for ROMCloud's;
* `upsertRomcloudEntry`, `removeRomcloudEntry` — the changes of the tree;
* `reconcile`, `entryOwned`, `remove` — the operations on the file;
* `upsert_spec` — what an installation does to the games of the file.

A file is its text and the tree that the XML library reads from it.  What the library wrote, it
reads again: so a written file has the tree that was written.
-/

def romcloudRomPath : String := "./ROMCloud.sh"

def romcloudGameName : String := "ROMCloud"

def romcloudImageRelativePath : String := "./images/ROMCloud.png"

structure Gamelist where
  text : String
  root : Option Element

/-- `PurePosixPath(path).name`. -/
def posixName (path : String) : String := (posixParts path).getLastD ""

def isGame (e : Element) : Bool := e.tag = "game"

/-- The path of a game, as both matching rules read it. -/
def gamePath (game : Element) : String := strip (game.findText "path")

def emptyGamelist : Element := ⟨"gameList", [], "", "", []⟩

/-- An empty file is a new one. -/
def parseRoot : Option Gamelist → Option Element
  | none => some emptyGamelist
  | some g => if g.text = "" then some emptyGamelist else g.root

/-- The text of a tree, with the XML declaration. -/
def document (tostring : Element → String) (root : Element) : String :=
  "<?xml version=\"1.0\"?>\n" ++ tostring root ++ "\n"

def newEntry (romPath name image : String) : Element :=
  ⟨"game", [], "", "", [.leaf "path" romPath, .leaf "name" name, .leaf "image" image]⟩

def updateEntry (name image : String) (game : Element) : Element :=
  (game.setChild "name" name).setChild "image" image

section Operations

variable (lower : String → String) (tostring : Element → String)

/-- File names are compared without case, and directories not at all. -/
def isRomcloudEntry (romPath : String) (game : Element) : Bool :=
  gamePath game ≠ "" && lower (posixName (gamePath game)) = lower (posixName romPath)

def isRomcloudGame (romPath : String) (e : Element) : Bool :=
  isGame e && isRomcloudEntry lower romPath e

/-- The first entry that matches is updated; where there is none, one is appended. -/
def placeEntry (romPath name image : String) (children : List Element) : List Element :=
  if children.any (isRomcloudGame lower romPath) then
    updateFirst (isRomcloudGame lower romPath) (updateEntry name image) children
  else children ++ [newEntry romPath name image]

def upsertRomcloudEntry (romPath name image : String) (root : Element) : Element :=
  Element.indentAt 0 { root with children := placeEntry lower romPath name image root.children }

/-- The tree without the entries that match, and whether there was one. -/
def removeRomcloudEntry (romPath : String) (root : Element) : Element × Bool :=
  if root.children.any (isRomcloudGame lower romPath) then
    (Element.indentAt 0
      { root with children := root.children.filter (fun e => !isRomcloudGame lower romPath e) }, true)
  else (root, false)

/-- The file is written where its text changes; the answer says whether. A tree that cannot be read
is an error. -/
def reconcile (image name : String) (file : Option Gamelist) : Except Unit (Gamelist × Bool) :=
  match parseRoot file with
  | none => .error ()
  | some root =>
    let root := upsertRomcloudEntry lower romcloudRomPath name image root
    let text := document tostring root
    .ok (⟨text, some root⟩, file.map Gamelist.text ≠ some text)

/-- The entries that `inspect_ownership` looks at. -/
def ownedMatches (root : Element) : List Element :=
  root.children.filter (fun e => isGame e && gamePath e = romcloudRomPath)

/-- The tag and text of each child are the generated ones, in any order. -/
def generatedFields (game : Element) : Bool :=
  (game.children.map (fun child => (child.tag, strip child.text))).isPerm
    [("path", romcloudRomPath), ("name", romcloudGameName), ("image", romcloudImageRelativePath)]

/-- What the XML library reads from the file. -/
def fromstring (g : Gamelist) : Option Element := if g.text = "" then none else g.root

/-- `inspect_ownership(…).entry_owned`. -/
def entryOwned (file : Option Gamelist) : Bool :=
  match file.bind fromstring with
  | none => false
  | some root =>
    match ownedMatches root with
    | [game] => generatedFields game
    | _ => false

/-- The entry is removed where the launcher and the entry are proved to be ROMCloud's. -/
def remove (launcherOwned : Bool) (file : Option Gamelist) : Option Gamelist :=
  if launcherOwned && entryOwned file then
    match file.bind fromstring with
    | none => file
    | some root =>
      let (root, removed) := removeRomcloudEntry lower romcloudRomPath root
      if removed then some ⟨document tostring root, some root⟩ else file
  else file

end Operations

/-! ### The games of a file -/

/-- The games of a tree, without layout. -/
def gamesIn (root : Element) : List Element := root.compact.children.filter isGame

/-- The games of a file. -/
def games (file : Option Gamelist) : List Element := ((parseRoot file).map gamesIn).getD []

section Compact

variable {lower : String → String} {romPath name image : String}

@[simp] theorem isGame_compact (e : Element) : isGame e.compact = isGame e := by
  rw [isGame, isGame, Element.tag_compact]

@[simp] theorem gamePath_compact (e : Element) : gamePath e.compact = gamePath e :=
  Element.strip_findText_compact e "path"

@[simp] theorem isRomcloudEntry_compact (e : Element) :
    isRomcloudEntry lower romPath e.compact = isRomcloudEntry lower romPath e := by
  rw [isRomcloudEntry, isRomcloudEntry, gamePath_compact]

@[simp] theorem isRomcloudGame_compact (e : Element) :
    isRomcloudGame lower romPath e.compact = isRomcloudGame lower romPath e := by
  rw [isRomcloudGame, isRomcloudGame, isGame_compact, isRomcloudEntry_compact]

theorem gamesIn_eq (root : Element) :
    gamesIn root = (root.children.filter isGame).map Element.compact := by
  rw [gamesIn, Element.children_compact, List.filter_map]
  congr 1
  exact congrArg (fun p => List.filter p root.children) (funext isGame_compact)

theorem gamesIn_indentAt (level : ℕ) (root : Element) :
    gamesIn (root.indentAt level) = gamesIn root := by
  rw [gamesIn, Element.compact_indentAt, gamesIn]

@[simp] theorem isGame_updateEntry (e : Element) : isGame (updateEntry name image e) = isGame e := rfl

@[simp] theorem gamePath_updateEntry (e : Element) :
    gamePath (updateEntry name image e) = gamePath e := by
  rw [gamePath, updateEntry, Element.findText_setChild_of_ne _ _ (by decide),
    Element.findText_setChild_of_ne _ _ (by decide), gamePath]

theorem isRomcloudGame_updateEntry (e : Element) :
    isRomcloudGame lower romPath (updateEntry name image e) = isRomcloudGame lower romPath e := by
  rw [isRomcloudGame, isRomcloudGame, isRomcloudEntry, isRomcloudEntry, isGame_updateEntry,
    gamePath_updateEntry]

/-- An entry that carries the name and the image of ROMCloud. -/
def Carries (name image : String) (game : Element) : Prop :=
  game.carries "name" name = true ∧ game.carries "image" image = true

theorem carries_updateEntry (e : Element) : Carries name image (updateEntry name image e) := by
  refine ⟨?_, Element.carries_setChild_self _ _ _⟩
  rw [updateEntry, Element.carries_setChild_of_ne _ _ _ (by decide)]
  exact Element.carries_setChild_self e "name" name

theorem carries_compact (e : Element) : Carries name image e.compact ↔ Carries name image e := by
  rw [Carries, Carries, Element.carries_compact, Element.carries_compact]

/-- The update changes an entry exactly if it does not carry the name and the image. -/
theorem compact_updateEntry_iff (e : Element) :
    (updateEntry name image e).compact = e.compact ↔ Carries name image e := by
  constructor
  · intro h
    rw [← carries_compact, ← h, carries_compact]
    exact carries_updateEntry e
  · rintro ⟨hname, himage⟩
    have hkept : (e.setChild "name" name).carries "image" image = true := by
      rw [Element.carries_setChild_of_ne _ _ _ (by decide)]
      exact himage
    rw [updateEntry, Element.compact_setChild_of_carries hkept,
      Element.compact_setChild_of_carries hname]

end Compact

/-! ### What an installation does -/

section Upsert

variable {lower : String → String} {name image : String}

theorem isRomcloudGame_newEntry :
    isRomcloudGame lower romcloudRomPath (newEntry romcloudRomPath name image) = true := by
  have hpath : gamePath (newEntry romcloudRomPath name image) = romcloudRomPath := by
    show strip romcloudRomPath = romcloudRomPath
    decide
  rw [isRomcloudGame, isRomcloudEntry, hpath]
  simp [isGame, newEntry, romcloudRomPath]

theorem carries_newEntry (romPath : String) : Carries name image (newEntry romPath name image) := by
  simp [Carries, Element.carries, newEntry, Element.leaf]

/-- The games of a list after the update of a game in it. -/
theorem filter_isGame_split {before after : List Element} {a : Element} (ha : isGame a = true) :
    (before ++ a :: after).filter isGame = before.filter isGame ++ a :: after.filter isGame := by
  rw [List.filter_append, List.filter_cons_of_pos ha]

/-- What an installation does to the games: one is appended where none matches, and else the first
that matches is updated. -/
theorem upsert_spec (root : Element) :
    ((∀ game ∈ gamesIn root, isRomcloudEntry lower romcloudRomPath game = false) ∧
      gamesIn (upsertRomcloudEntry lower romcloudRomPath name image root)
        = gamesIn root ++ [(newEntry romcloudRomPath name image).compact]) ∨
    ∃ before game after updated, gamesIn root = before ++ game :: after ∧
      (∀ b ∈ before, isRomcloudEntry lower romcloudRomPath b = false) ∧
      isRomcloudEntry lower romcloudRomPath game = true ∧
      gamesIn (upsertRomcloudEntry lower romcloudRomPath name image root)
        = before ++ updated :: after ∧
      gamePath updated = gamePath game ∧ Carries name image updated ∧
      (updated = game ↔ Carries name image game) := by
  rw [upsertRomcloudEntry, gamesIn_indentAt, gamesIn_eq, gamesIn_eq, placeEntry]
  by_cases hany : root.children.any (isRomcloudGame lower romcloudRomPath) = true
  · right
    obtain ⟨a, hfind⟩ := Option.isSome_iff_exists.mp (by
      rw [List.find?_isSome]
      exact List.any_eq_true.mp hany)
    obtain ⟨ha, before, after, hsplit, hbefore⟩ := List.find?_eq_some_iff_append.mp hfind
    have hnone : ∀ b ∈ before, isRomcloudGame lower romcloudRomPath b = false := by
      intro b hb
      simpa using hbefore b hb
    have hgame := ha
    rw [isRomcloudGame, Bool.and_eq_true] at hgame
    refine ⟨(before.filter isGame).map Element.compact, a.compact,
      (after.filter isGame).map Element.compact, (updateEntry name image a).compact, ?_, ?_, ?_, ?_,
      ?_, ?_, ?_⟩
    · rw [hsplit, filter_isGame_split hgame.1, List.map_append, List.map_cons]
    · intro b hb
      obtain ⟨x, hx, rfl⟩ := List.mem_map.mp hb
      rw [List.mem_filter] at hx
      have hmatch := hnone x hx.1
      rw [isRomcloudGame, hx.2, Bool.true_and] at hmatch
      rw [isRomcloudEntry_compact, hmatch]
    · rw [isRomcloudEntry_compact, hgame.2]
    · show ((if _ then _ else _ : List Element).filter isGame).map Element.compact = _
      rw [if_pos hany, hsplit, updateFirst_append _ _ hnone ha,
        filter_isGame_split (by rw [isGame_updateEntry, hgame.1]), List.map_append, List.map_cons]
    · rw [gamePath_compact, gamePath_compact, gamePath_updateEntry]
    · exact (carries_compact _).mpr (carries_updateEntry a)
    · rw [compact_updateEntry_iff, carries_compact]
  · left
    rw [List.any_eq_true] at hany
    refine ⟨fun game hgame => ?_, ?_⟩
    · obtain ⟨x, hx, rfl⟩ := List.mem_map.mp hgame
      rw [List.mem_filter] at hx
      rw [isRomcloudEntry_compact, Bool.eq_false_iff]
      intro hmatch
      exact hany ⟨x, hx.1, by rw [isRomcloudGame, hx.2, hmatch]; rfl⟩
    · show ((if _ then _ else _ : List Element).filter isGame).map Element.compact = _
      rw [if_neg (by rwa [List.any_eq_true]), List.filter_append, List.map_append]
      rfl

end Upsert

end RomCloud.Ports
