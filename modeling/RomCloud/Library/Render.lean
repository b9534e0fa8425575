import RomCloud.Lib.Positions
import RomCloud.Library.Identity

namespace RomCloud.Library

open Lib

/-!
# Rendering a gamelist

`_render_system` writes the games of one system into the `gamelist.xml` that EmulationStation and
the user edit too.  An element of a rendered game carries the identity of the game as a marker.

The elements are known by their positions: the loop only appends to the children of the root, and
removes at its end.  Text is a sequence of Unicode scalar values.

* `GamelistFile` — the file, as reading it finds it;
* `ownedElements`, `unownedElements` — the two indexes, by marker and by path;
* `Service.renderElement` — the children that a game's element gets;
* `Service.renderEntry` — one turn of the loop;
* `Service.renderSystem` — the whole function.
-/

/-- `OWNERSHIP_TAG`. -/
def ownershipTag : String := "romcloudId"

/-- `METADATA_TAGS`. -/
def metadataTags : List String :=
  ["name", "sortname", "desc", "rating", "releasedate", "developer", "publisher", "genre", "players",
    "lang", "region", "favorite", "kidgame", "hidden", "playcount", "lastplayed"]

/-- `MEDIA_TAGS`. -/
def mediaTags : List String :=
  ["image", "thumbnail", "video", "marquee", "fanart", "manual", "boxback", "bezel", "wheel"]

/-! ### The file -/

/-- A well-formed gamelist. -/
structure Gamelist where
  root : Element
  tag_eq : root.tag = "gameList"
  xmlText : root.xmlText = true

/-- What reading `gamelist.xml` finds: no file, a symbolic link, a text that is no gamelist, or a
gamelist. -/
inductive GamelistFile
  | missing
  | symlink
  | malformed
  | gamelist (list : Gamelist)

/-- The root that the renderer works on. -/
def GamelistFile.root? : GamelistFile → Option Element
  | missing => some (.leaf "gameList" "")
  | symlink => none
  | malformed => none
  | gamelist list => some list.root

/-- What a file with this tree in it reads as.  The library writes and reads a tree of XML texts
faithfully; it writes other characters as they are, and then the file is not well formed. -/
def written (root : Element) : GamelistFile :=
  if h : root.tag = "gameList" ∧ root.xmlText = true then .gamelist ⟨root, h.1, h.2⟩ else .malformed

/-! ### The indexes -/

/-- The ownership marker of an element, empty where it has none. -/
def marker (e : Element) : String := strip (e.findText ownershipTag)

/-- The marker of a game element that has one. -/
def ownedKey (e : Element) : Option String :=
  if e.tag = "game" ∧ marker e ≠ "" then some (marker e) else none

/-- The path of a game element without a marker. -/
def unownedKey (e : Element) : Option String :=
  if e.tag = "game" ∧ marker e = "" then safeRelative (e.findText "path") else none

/-- `owned`: the last element with each marker. -/
def ownedElements (children : List Element) : Dict String ℕ :=
  (∅ : Dict String ℕ).insertAll children.zipIdx fun p => (ownedKey p.1).map fun key => (key, p.2)

/-- `unowned_by_path`: the first element without a marker at each path. -/
def unownedElements (children : List Element) : Dict String ℕ :=
  children.zipIdx.foldl (fun found p =>
    match unownedKey p.1 with
    | none => found
    | some path => if (found.get? path).isSome then found else found.insert path p.2) ∅

theorem ownedKey_eq_some_iff {e : Element} {m : String} :
    ownedKey e = some m ↔ e.tag = "game" ∧ m ≠ "" ∧ marker e = m := by
  unfold ownedKey
  split
  · next h =>
    rw [Option.some.injEq]
    exact ⟨fun heq => ⟨h.1, heq ▸ h.2, heq⟩, fun heq => heq.2.2⟩
  · next h =>
    refine ⟨nofun, fun heq => absurd ⟨heq.1, ?_⟩ h⟩
    rw [heq.2.2]
    exact heq.2.1

theorem unownedKey_eq_some_iff {e : Element} {path : String} :
    unownedKey e = some path ↔
      (e.tag = "game" ∧ marker e = "") ∧ safeRelative (e.findText "path") = some path := by
  unfold unownedKey
  split
  · next h => exact ⟨fun heq => ⟨h, heq⟩, fun heq => heq.2⟩
  · next h => exact ⟨nofun, fun heq => absurd heq.1 h⟩

/-- An element is in one of the indexes at most. -/
theorem unownedKey_of_ownedKey {e : Element} {m : String} (h : ownedKey e = some m) :
    unownedKey e = none := by
  rw [ownedKey_eq_some_iff] at h
  rw [unownedKey, if_neg fun hblank => h.2.1 (h.2.2.symm.trans hblank.2)]

section Indexes

variable {children : List Element} {i : ℕ}

theorem ownedKey_of_get? {m : String} (h : (ownedElements children).get? m = some i) :
    ∃ e, children[i]? = some e ∧ ownedKey e = some m := by
  rcases Dict.of_get?_insertAll h with hempty | ⟨⟨e, j⟩, hmem, hkey⟩
  · rw [Dict.get?_empty] at hempty
    cases hempty
  · rw [Option.map_eq_some_iff] at hkey
    obtain ⟨key, hkey, hpair⟩ := hkey
    cases hpair
    exact ⟨e, List.mem_zipIdx_iff_getElem?.mp hmem, hkey⟩

/-- Every marker of the file is in the index. -/
theorem exists_get?_ownedElements {e : Element} {m : String} (h : children[i]? = some e)
    (hkey : ownedKey e = some m) : ∃ j, (ownedElements children).get? m = some j := by
  rw [← Dict.mem_keys_iff, ownedElements, Dict.mem_keys_insertAll]
  refine Or.inr ⟨(e, i), List.mem_zipIdx_iff_getElem?.mpr h, i, ?_⟩
  simp [hkey]

theorem unownedKey_of_get? {path : String} (h : (unownedElements children).get? path = some i) :
    ∃ e, children[i]? = some e ∧ unownedKey e = some path := by
  suffices hall : ∀ path i, (unownedElements children).get? path = some i →
      ∃ e, children[i]? = some e ∧ unownedKey e = some path from hall path i h
  refine List.foldlRecOn (motive := fun found : Dict String ℕ => ∀ path i,
    found.get? path = some i → ∃ e, children[i]? = some e ∧ unownedKey e = some path) _ _ ?_ ?_
  · intro path i hget
    rw [Dict.get?_empty] at hget
    cases hget
  · intro found ih p hp path i hget
    cases hkey : unownedKey p.1 with
    | none => exact ih path i (by simpa [hkey] using hget)
    | some key =>
      simp only [hkey] at hget
      split at hget
      · exact ih path i hget
      · rw [Dict.get?_insert] at hget
        split at hget
        · next heq =>
          cases hget
          exact ⟨p.1, List.mem_zipIdx_iff_getElem?.mp hp, heq ▸ hkey⟩
        · exact ih path i hget

end Indexes

/-! ### One game -/

/-- One of `entries`: a game with its identity and its record, its proxy, and what the file system
does for its media. -/
structure Entry (S : Service) where
  game : Game
  libraryId : LibraryId
  identified : S.libraryIdForGame game = some libraryId
  record : LibraryRecord
  proxy : Option Proxy
  answer : String → MediaAnswer

/-- An entry with a launch path. -/
structure Launchable (S : Service) where
  entry : Entry S
  path : String

variable {S : Service}

def Entry.launchable? (e : Entry S) : Option (Launchable S) :=
  (S.localLaunchPath e.game e.proxy).map fun path => ⟨e, path⟩

namespace Launchable

variable (g : Launchable S)

/-- The library id, as it is written into the marker. -/
def id : String := g.entry.libraryId.text

/-- What `_render_media` gives for the media of a tag. -/
def rendered (field : String × Descriptor) : RenderedMedia :=
  S.renderMedia field.2 (g.entry.answer field.1)

/-- The loop over the metadata takes the field. -/
def writesField (field : String × String) : Bool := field.1 ∈ metadataTags ∧ strip field.2 ≠ ""

/-- One field of the metadata. -/
def writeField (element : Element) (field : String × String) : Element :=
  if writesField field then element.setChild field.1 field.2 else element

/-- One field of the media: a failure keeps the child, media that is not there removes it. -/
def writeMediaField (element : Element) (field : String × Descriptor) : Element :=
  if field.1 ∈ mediaTags then
    match g.rendered field with
    | .failed => element
    | .absent => element.removeChild field.1
    | .reference path => element.setChild field.1 path
  else element

/-- The loop over the metadata. -/
def writeMetadata (element : Element) : Element :=
  g.entry.record.metadata.entries.foldl writeField element

/-- The loop over the media. -/
def writeMedia (element : Element) : Element :=
  g.entry.record.media.entries.foldl g.writeMediaField element

/-- What the loop does to the element of the game. -/
def render (element : Element) : Element :=
  (g.writeMedia (g.writeMetadata (element.setChild "path" g.path))).setChild ownershipTag g.id

/-- The path that is written for a media field. -/
def mediaText (field : String × Descriptor) : Option String :=
  if field.1 ∈ mediaTags then
    match g.rendered field with
    | .reference path => some path
    | _ => none
  else none

/-- The texts from the catalog and the dataset that the element gets. -/
def texts : List String :=
  g.path :: ((g.entry.record.metadata.entries.filter writesField).map Prod.snd
    ++ g.entry.record.media.entries.filterMap g.mediaText)

/-! #### What the element of a game is -/

variable (e : Element)

theorem findText_writeField_of_ne {field : String × String} {tag : String} (h : tag ≠ field.1) :
    (writeField e field).findText tag = e.findText tag := by
  unfold writeField
  split
  · exact e.findText_setChild_of_ne _ h
  · rfl

theorem findText_writeMediaField_of_ne {field : String × Descriptor} {tag : String}
    (h : tag ≠ field.1) : (g.writeMediaField e field).findText tag = e.findText tag := by
  unfold writeMediaField
  split
  · cases g.rendered field with
    | failed => rfl
    | absent => exact e.findText_removeChild_of_ne h
    | reference path => exact e.findText_setChild_of_ne path h
  · rfl

theorem findText_writeMetadata_of_notMem {tag : String} (h : tag ∉ metadataTags) :
    (g.writeMetadata e).findText tag = e.findText tag := by
  refine List.foldlRecOn (motive := fun x : Element => x.findText tag = e.findText tag)
    g.entry.record.metadata.entries _ rfl fun x hx field _ => ?_
  by_cases htag : tag = field.1
  · have hskip : writesField field = false := by simp [writesField, ← htag, h]
    rw [writeField, hskip, if_neg Bool.false_ne_true, hx]
  · rw [findText_writeField_of_ne x htag, hx]

theorem findText_writeMedia_of_notMem {tag : String} (h : tag ∉ mediaTags) :
    (g.writeMedia e).findText tag = e.findText tag := by
  refine List.foldlRecOn (motive := fun x : Element => x.findText tag = e.findText tag)
    g.entry.record.media.entries _ rfl fun x hx field _ => ?_
  by_cases htag : tag = field.1
  · rw [writeMediaField, if_neg (htag ▸ h), hx]
  · rw [findText_writeMediaField_of_ne g x htag, hx]

@[simp] theorem tag_writeField (field : String × String) : (writeField e field).tag = e.tag := by
  unfold writeField
  split <;> rfl

@[simp] theorem tag_writeMediaField (field : String × Descriptor) :
    (g.writeMediaField e field).tag = e.tag := by
  unfold writeMediaField
  split
  · cases g.rendered field <;> rfl
  · rfl

@[simp] theorem tag_render : (g.render e).tag = e.tag := by
  have hmetadata : ∀ x, (g.writeMetadata x).tag = x.tag := fun x =>
    List.foldlRecOn (motive := fun y => y.tag = x.tag) g.entry.record.metadata.entries _ rfl
      fun y hy field _ => (tag_writeField y field).trans hy
  have hmedia : ∀ x, (g.writeMedia x).tag = x.tag := fun x =>
    List.foldlRecOn (motive := fun y => y.tag = x.tag) g.entry.record.media.entries _ rfl
      fun y hy field _ => (tag_writeMediaField g y field).trans hy
  show (g.writeMedia (g.writeMetadata (e.setChild "path" g.path))).tag = e.tag
  rw [hmedia, hmetadata, Element.tag_setChild]

/-- A game's element has its launch path. -/
@[simp] theorem findText_path_render : (g.render e).findText "path" = g.path := by
  rw [render, Element.findText_setChild_of_ne _ _ (by decide),
    findText_writeMedia_of_notMem _ _ (by decide), findText_writeMetadata_of_notMem _ _ (by decide),
    Element.findText_setChild_self]

/-- A game's element has its marker. -/
@[simp] theorem marker_render : marker (g.render e) = g.id := by
  rw [marker, render, Element.findText_setChild_self, id, LibraryId.strip_text]

/-- A field of the metadata is written, and nothing later writes over it. -/
theorem findText_metadata_render {field : String × String}
    (hmem : field ∈ g.entry.record.metadata.entries) (hwrites : writesField field = true) :
    (g.render e).findText field.1 = field.2 := by
  have htag : field.1 ∈ metadataTags := by
    simp only [writesField, decide_eq_true_eq] at hwrites
    exact hwrites.1
  have hother : ∀ tag ∈ metadataTags, tag ≠ ownershipTag ∧ tag ∉ mediaTags := by decide
  rw [render, Element.findText_setChild_of_ne _ _ (hother _ htag).1,
    findText_writeMedia_of_notMem _ _ (hother _ htag).2]
  refine Lib.Dict.look_foldl_of_mem (fun x : Element => x.findText field.1) _ (fun _ => field.2) hmem
    (List.Nodup.of_map _ g.entry.record.metadata.keys_nodup) ?_ ?_ _
  · intro x
    simp only [writeField, hwrites, if_true, Element.findText_setChild_self]
  · intro x other hin hne
    refine findText_writeField_of_ne x fun heq => hne ?_
    exact List.inj_on_of_nodup_map g.entry.record.metadata.keys_nodup hin hmem heq.symm

/-- So is the path of its media. -/
theorem findText_media_render {field : String × Descriptor} {path : String}
    (hmem : field ∈ g.entry.record.media.entries) (htext : g.mediaText field = some path) :
    (g.render e).findText field.1 = path := by
  have htag : field.1 ∈ mediaTags ∧ g.rendered field = .reference path := by
    unfold mediaText at htext
    split at htext
    · next htag =>
      refine ⟨htag, ?_⟩
      cases hrendered : g.rendered field with
      | reference other => simpa [hrendered] using htext
      | _ => simp [hrendered] at htext
    · cases htext
  have hother : ∀ tag ∈ mediaTags, tag ≠ ownershipTag := by decide
  rw [render, Element.findText_setChild_of_ne _ _ (hother _ htag.1)]
  refine Lib.Dict.look_foldl_of_mem (fun x : Element => x.findText field.1) _ (fun _ => path) hmem
    (List.Nodup.of_map _ g.entry.record.media.keys_nodup) ?_ ?_ _
  · intro x
    simp only [writeMediaField, htag.1, htag.2, if_true, Element.findText_setChild_self]
  · intro x other hin hne
    refine findText_writeMediaField_of_ne g x fun heq => hne ?_
    exact List.inj_on_of_nodup_map g.entry.record.media.keys_nodup hin hmem heq.symm

/-- **The element of a game is an XML element** just when the texts written to it are. -/
theorem xmlText_render_iff {e : Element} (he : e.xmlText = true) :
    (g.render e).xmlText = true ↔ ∀ text ∈ g.texts, isXmlText text = true := by
  constructor
  · intro h text htext
    rw [texts, List.mem_cons, List.mem_append, List.mem_map, List.mem_filterMap] at htext
    rcases htext with rfl | ⟨field, hfield, rfl⟩ | ⟨field, hfield, hpath⟩
    · exact g.findText_path_render e ▸ Element.isXmlText_findText h "path"
    · rw [List.mem_filter] at hfield
      exact g.findText_metadata_render e hfield.1 hfield.2 ▸ Element.isXmlText_findText h field.1
    · exact g.findText_media_render e hfield hpath ▸ Element.isXmlText_findText h field.1
  · intro h
    have hmetadata : ∀ x : Element, x.xmlText = true → (g.writeMetadata x).xmlText = true :=
      fun x hx => List.foldlRecOn (motive := fun y : Element => y.xmlText = true) _ _ hx
        fun y hy field hfield => by
          unfold writeField
          split
          · next hwrites =>
            refine Element.xmlText_setChild hy (h _ ?_)
            refine List.mem_cons_of_mem _ (List.mem_append_left _ ?_)
            exact List.mem_map_of_mem (List.mem_filter.mpr ⟨hfield, hwrites⟩)
          · exact hy
    have hmedia : ∀ x : Element, x.xmlText = true → (g.writeMedia x).xmlText = true :=
      fun x hx => List.foldlRecOn (motive := fun y : Element => y.xmlText = true) _ _ hx
        fun y hy field hfield => by
          unfold writeMediaField
          split
          · next htag =>
            cases hrendered : g.rendered field with
            | failed => exact hy
            | absent => exact Element.xmlText_removeChild _ hy
            | reference path =>
              refine Element.xmlText_setChild hy (h _ ?_)
              refine List.mem_cons_of_mem _ (List.mem_append_right _ ?_)
              exact List.mem_filterMap.mpr ⟨field, hfield, by simp [mediaText, htag, hrendered]⟩
          · exact hy
    refine Element.xmlText_setChild (hmedia _ (hmetadata _ (Element.xmlText_setChild he ?_))) ?_
    · exact h _ List.mem_cons_self
    · exact isXmlText_libraryId g.entry.libraryId

end Launchable

/-! ### The loop -/

/-- The state of the loop.  `placed` has the element that each game was written to. -/
structure Rendering (S : Service) where
  children : List Element
  unowned : Dict String ℕ
  placed : List (Launchable S × ℕ)

/-- The element that a game has already: its own by the marker, else one at its path, which is
taken out of the index. -/
def Rendering.adopt (owned : Dict String ℕ) (s : Rendering S) (g : Launchable S) :
    Option ℕ × Dict String ℕ :=
  match owned.get? g.id, safeRelative g.path with
  | some i, _ => (some i, s.unowned)
  | none, some path => (s.unowned.get? path, s.unowned.erase path)
  | none, none => (none, s.unowned)

/-- The turn of a game with a launch path. -/
def Rendering.place (owned : Dict String ℕ) (s : Rendering S) (g : Launchable S) : Rendering S :=
  match s.adopt owned g with
  | (some i, unowned) => ⟨s.children.modify i g.render, unowned, s.placed ++ [(g, i)]⟩
  | (none, unowned) =>
    ⟨s.children ++ [g.render (.leaf "game" "")], unowned, s.placed ++ [(g, s.children.length)]⟩

/-- One turn of the loop. -/
def Rendering.renderEntry (owned : Dict String ℕ) (s : Rendering S) (e : Entry S) : Rendering S :=
  match e.launchable? with
  | none => s
  | some g => s.place owned g

/-- The loop over the entries. -/
def renderEntries (root : Element) (entries : List (Entry S)) : Rendering S :=
  entries.foldl (Rendering.renderEntry (ownedElements root.children))
    ⟨root.children, unownedElements root.children, []⟩

/-- The owned elements whose marker no rendered game has. -/
def staleElements (owned : Dict String ℕ) (desired : List String) : List ℕ :=
  (owned.entries.filter fun p => p.1 ∉ desired).map Prod.snd

/-- What the function leaves, and the element of each rendered game. -/
structure Outcome (S : Service) where
  file : GamelistFile
  placed : List (Launchable S × ℕ)

/-- `_render_system`. -/
def renderSystem (file : GamelistFile) (entries : List (Entry S)) : Outcome S :=
  match file.root? with
  | none => ⟨file, []⟩
  | some root =>
    let s := renderEntries root entries
    let stale := staleElements (ownedElements root.children) (s.placed.map fun p => p.1.id)
    ⟨written { root with children := removeAll s.children stale }, s.placed⟩

end RomCloud.Library
