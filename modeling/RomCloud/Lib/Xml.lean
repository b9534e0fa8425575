import RomCloud.Lib.Text

namespace RomCloud.Lib

/-!
# XML elements

The elements of `xml.etree.ElementTree`.  A blank text beside the children of an element is layout:
`ET.indent` writes it anew, so it is read as empty here.

* `Element` — an element with its children, and the text that follows it in its parent;
* `isXmlText` — the texts that a document can carry: XML has no other characters, not even as
  references;
* `Element.xmlText` — all texts of an element and of what it contains are such texts;
* `Element.findText`, `Element.setChild`, `Element.removeChild` — the first child with a tag.
-/

/-- The characters of XML. -/
def isXmlChar (c : Char) : Bool :=
  let n := c.toNat
  n = 9 || n = 10 || n = 13 || (0x20 ≤ n && n ≤ 0xFFFD) || 0x10000 ≤ n

def isXmlText (text : String) : Bool := text.toList.all isXmlChar

structure Element where
  tag : String
  attributes : List (String × String)
  text : String
  tail : String
  children : List Element

namespace Element

/-- An element with a text and nothing else. -/
def leaf (tag text : String) : Element := ⟨tag, [], text, "", []⟩

mutual

/-- Every text in the element is an XML text. -/
def xmlText : Element → Bool
  | ⟨_, attributes, text, tail, children⟩ =>
    attributes.all (fun attr => isXmlText attr.2) && isXmlText text && isXmlText tail
      && xmlTexts children

def xmlTexts : List Element → Bool
  | [] => true
  | child :: rest => xmlText child && xmlTexts rest

end

theorem xmlTexts_iff (elements : List Element) :
    xmlTexts elements = true ↔ ∀ e ∈ elements, e.xmlText = true := by
  induction elements with
  | nil => simp [xmlTexts]
  | cons e rest ih => simp [xmlTexts, ih]

theorem xmlText_iff (e : Element) : e.xmlText = true ↔
    ((∀ attr ∈ e.attributes, isXmlText attr.2 = true) ∧ isXmlText e.text = true
      ∧ isXmlText e.tail = true) ∧ ∀ child ∈ e.children, child.xmlText = true := by
  obtain ⟨tag, attributes, text, tail, children⟩ := e
  rw [xmlText, Bool.and_eq_true, xmlTexts_iff]
  simp [and_assoc]

/-! ### The first child with a tag -/

/-- `findtext`, with an empty text for a child that is not there. -/
def findText (e : Element) (tag : String) : String :=
  ((e.children.find? (fun child => child.tag = tag)).map text).getD ""

/-- The first element with the tag gets the text; where there is none, one is appended. -/
def setIn (tag value : String) : List Element → List Element
  | [] => [leaf tag value]
  | child :: rest =>
    if child.tag = tag then { child with text := value } :: rest else child :: setIn tag value rest

/-- The first child with the tag gets the text; where there is none, one is appended. -/
def setChild (e : Element) (tag value : String) : Element :=
  { e with children := setIn tag value e.children }

/-- The first child with the tag is removed. -/
def removeChild (e : Element) (tag : String) : Element :=
  { e with children := e.children.eraseP (fun child => child.tag = tag) }

@[simp] theorem tag_setChild (e : Element) (tag value : String) :
    (e.setChild tag value).tag = e.tag := rfl

@[simp] theorem tag_removeChild (e : Element) (tag : String) :
    (e.removeChild tag).tag = e.tag := rfl

@[simp] theorem findText_setChild_self (e : Element) (tag value : String) :
    (e.setChild tag value).findText tag = value := by
  obtain ⟨t, attributes, text, tail, children⟩ := e
  simp only [setChild, findText]
  induction children with
  | nil => simp [setIn, leaf]
  | cons child rest ih =>
    by_cases htag : child.tag = tag
    · simp [setIn, htag]
    · simpa [setIn, htag] using ih

theorem findText_setChild_of_ne (e : Element) {tag other : String} (value : String)
    (h : other ≠ tag) : (e.setChild tag value).findText other = e.findText other := by
  obtain ⟨t, attributes, text, tail, children⟩ := e
  simp only [setChild, findText]
  induction children with
  | nil => simp [setIn, leaf, Ne.symm h]
  | cons child rest ih =>
    by_cases htag : child.tag = tag
    · simp [setIn, htag, Ne.symm h]
    · by_cases hother : child.tag = other
      · simp [setIn, hother, h]
      · simpa [setIn, htag, hother] using ih

theorem findText_removeChild_of_ne (e : Element) {tag other : String} (h : other ≠ tag) :
    (e.removeChild tag).findText other = e.findText other := by
  obtain ⟨t, attributes, text, tail, children⟩ := e
  simp only [removeChild, findText]
  induction children with
  | nil => rfl
  | cons child rest ih =>
    by_cases htag : child.tag = tag
    · simp [htag, Ne.symm h]
    · by_cases hother : child.tag = other
      · simp [hother, h]
      · simpa [htag, hother] using ih

/-! ### XML texts -/

theorem isXmlText_findText {e : Element} (h : e.xmlText = true) (tag : String) :
    isXmlText (e.findText tag) = true := by
  cases hfind : e.children.find? (fun child => child.tag = tag) with
  | none => simp [findText, hfind, isXmlText]
  | some child =>
    have hchild := ((xmlText_iff e).mp h).2 child (List.mem_of_find?_eq_some hfind)
    simpa [findText, hfind] using ((xmlText_iff child).mp hchild).1.2.1

theorem xmlText_leaf {tag value : String} (h : isXmlText value = true) :
    (leaf tag value).xmlText = true := by
  rw [xmlText_iff]
  exact ⟨⟨by simp [leaf], h, rfl⟩, by simp [leaf]⟩

theorem xmlText_setChild {e : Element} {tag value : String} (h : e.xmlText = true)
    (hvalue : isXmlText value = true) : (e.setChild tag value).xmlText = true := by
  rw [xmlText_iff] at h ⊢
  refine ⟨h.1, ?_⟩
  have hchildren := h.2
  show ∀ child ∈ setIn tag value e.children, child.xmlText = true
  generalize e.children = children at hchildren
  induction children with
  | nil => simpa [setIn] using xmlText_leaf hvalue
  | cons child rest ih =>
    rw [List.forall_mem_cons] at hchildren
    by_cases htag : child.tag = tag
    · rw [setIn, if_pos htag, List.forall_mem_cons]
      refine ⟨?_, hchildren.2⟩
      have hold := (xmlText_iff child).mp hchildren.1
      exact (xmlText_iff _).mpr ⟨⟨hold.1.1, hvalue, hold.1.2.2⟩, hold.2⟩
    · rw [setIn, if_neg htag, List.forall_mem_cons]
      exact ⟨hchildren.1, ih hchildren.2⟩

theorem xmlText_removeChild {e : Element} (tag : String) (h : e.xmlText = true) :
    (e.removeChild tag).xmlText = true := by
  rw [xmlText_iff] at h ⊢
  exact ⟨h.1, fun child hchild => h.2 child (List.mem_of_mem_eraseP hchild)⟩

end Element

end RomCloud.Lib
