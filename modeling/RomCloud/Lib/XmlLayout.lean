import RomCloud.Lib.Xml

namespace RomCloud.Lib

/-!
# The layout of an XML tree

`ET.indent` puts every child of an element on a line of its own.  For this it writes the blank
texts beside the children anew, and only these.

* `Element.indentAt` — `ET.indent` of an element at a level;
* `Element.compact` — the element without such blank texts: what it says, whatever its layout is;
* `Element.compact_indentAt`, `Element.indentAt_congr` — indenting keeps what an element says, and
  depends on nothing else;
* `Element.carries` — the first child with a tag has a text;
* `Element.tostring` — the text of a tree;
* `updateFirst` — the first element with a property is changed.
-/

/-- Nothing but white space: `not text or not text.strip()`. -/
def isBlank (text : String) : Bool := strip text = ""

/-- A line break and the indentation of a level. -/
def lineBreak (level : ℕ) : String := String.ofList ('\n' :: List.replicate (2 * level) ' ')

/-- A blank text becomes layout. -/
def fill (level : ℕ) (text : String) : String := if isBlank text then lineBreak level else text

/-- A blank text is dropped. -/
def unfill (text : String) : String := if isBlank text then "" else text

theorem isBlank_lineBreak (level : ℕ) : isBlank (lineBreak level) = true := by
  have hspace : strip (lineBreak level) = "" := by
    refine strip_eq_empty fun c hc => ?_
    rw [lineBreak, String.toList_ofList, List.mem_cons, List.mem_replicate] at hc
    rcases hc with rfl | ⟨-, rfl⟩
    · decide
    · decide
  rw [isBlank, hspace]
  rfl

theorem isBlank_empty : isBlank "" = true := by decide

@[simp] theorem unfill_fill (level : ℕ) (text : String) : unfill (fill level text) = unfill text := by
  by_cases hblank : isBlank text = true
  · rw [fill, if_pos hblank, unfill, unfill, if_pos (isBlank_lineBreak level), if_pos hblank]
  · rw [fill, if_neg hblank]

@[simp] theorem fill_unfill (level : ℕ) (text : String) : fill level (unfill text) = fill level text := by
  by_cases hblank : isBlank text = true
  · rw [unfill, if_pos hblank, fill, fill, if_pos isBlank_empty, if_pos hblank]
  · rw [unfill, if_neg hblank]

@[simp] theorem strip_unfill (text : String) : strip (unfill text) = strip text := by
  by_cases hblank : isBlank text = true
  · rw [unfill, if_pos hblank, of_decide_eq_true hblank]
    decide
  · rw [unfill, if_neg hblank]

namespace Element

mutual

/-- `ET.indent`, with two spaces a level. -/
def indentAt (level : ℕ) : Element → Element
  | ⟨tag, attributes, text, tail, children⟩ =>
    ⟨tag, attributes, if children.isEmpty then text else fill (level + 1) text, tail,
      indentChildren level children⟩

/-- Below the last child the line of the parent goes on. -/
def indentChildren (level : ℕ) : List Element → List Element
  | [] => []
  | child :: rest =>
    let placed := indentAt (level + 1) child
    { placed with tail := fill (if rest.isEmpty then level else level + 1) placed.tail }
      :: indentChildren level rest

end

mutual

/-- The element without layout. -/
def compact : Element → Element
  | ⟨tag, attributes, text, tail, children⟩ =>
    ⟨tag, attributes, if children.isEmpty then text else unfill text, unfill tail,
      compactChildren children⟩

def compactChildren : List Element → List Element
  | [] => []
  | child :: rest => compact child :: compactChildren rest

end

theorem compactChildren_eq_map (children : List Element) :
    compactChildren children = children.map compact := by
  induction children with
  | nil => rfl
  | cons child rest ih => rw [compactChildren, ih, List.map_cons]

@[simp] theorem tag_compact (e : Element) : e.compact.tag = e.tag := by
  cases e
  rw [compact]

@[simp] theorem children_compact (e : Element) : e.compact.children = e.children.map compact := by
  cases e
  rw [compact, compactChildren_eq_map]

/-- The text that an element would have as its own, up to layout. -/
def ownText (e : Element) (text : String) : String :=
  if e.children.isEmpty then text else unfill text

theorem text_compact (e : Element) : e.compact.text = e.ownText e.text := by
  cases e
  rw [compact, ownText]

theorem isEmpty_indentChildren (level : ℕ) (children : List Element) :
    (indentChildren level children).isEmpty = children.isEmpty := by
  cases children <;> simp [indentChildren]

@[simp] theorem tail_indentAt (level : ℕ) (e : Element) : (e.indentAt level).tail = e.tail := by
  cases e
  rw [indentAt]

theorem compact_with_tail (e : Element) (tail : String) :
    compact { e with tail := tail } = { e.compact with tail := unfill tail } := by
  cases e
  simp only [compact]

mutual

/-- Indenting keeps what an element says. -/
theorem compact_indentAt (level : ℕ) : ∀ e : Element, (e.indentAt level).compact = e.compact
  | ⟨tag, attributes, text, tail, children⟩ => by
    rw [indentAt, compact, compact, isEmpty_indentChildren, compact_indentChildren level children]
    cases children with
    | nil => rfl
    | cons child rest => simp

theorem compact_indentChildren (level : ℕ) : ∀ children : List Element,
    compactChildren (indentChildren level children) = compactChildren children
  | [] => rfl
  | child :: rest => by
    have hchild := compact_indentAt (level + 1) child
    rw [indentChildren, compactChildren, compactChildren, compact_indentChildren level rest]
    rw [compact_with_tail, unfill_fill, hchild, tail_indentAt]
    cases child
    rw [compact]

end

mutual

/-- The layout is the same, whatever it was before. -/
theorem indentAt_compact (level : ℕ) : ∀ e : Element,
    e.compact.indentAt level = { e.indentAt level with tail := unfill e.tail }
  | ⟨tag, attributes, text, tail, children⟩ => by
    rw [compact, indentAt, indentAt, indentChildren_compact level children]
    cases children with
    | nil => rfl
    | cons child rest => simp [compactChildren]

theorem indentChildren_compact (level : ℕ) : ∀ children : List Element,
    indentChildren level (compactChildren children) = indentChildren level children
  | [] => rfl
  | child :: rest => by
    have hempty : (compactChildren rest).isEmpty = rest.isEmpty := by
      cases rest <;> simp [compactChildren]
    rw [compactChildren, indentChildren, indentChildren, indentChildren_compact level rest, hempty,
      indentAt_compact (level + 1) child]
    simp

end

/-- Elements that say the same are laid out alike. -/
theorem indentAt_congr {e e' : Element} (level : ℕ) (h : e.compact = e'.compact)
    (htail : e.tail = e'.tail) : e.indentAt level = e'.indentAt level := by
  have hsame : { e.indentAt level with tail := unfill e.tail }
      = { e'.indentAt level with tail := unfill e'.tail } := by
    rw [← indentAt_compact, ← indentAt_compact, h]
  have htails : (e.indentAt level).tail = (e'.indentAt level).tail := by
    rw [tail_indentAt, tail_indentAt, htail]
  generalize e.indentAt level = a at hsame htails ⊢
  generalize e'.indentAt level = b at hsame htails ⊢
  cases a
  cases b
  simp only [Element.mk.injEq] at hsame htails ⊢
  exact ⟨hsame.1, hsame.2.1, hsame.2.2.1, htails, hsame.2.2.2.2⟩

/-- An indented element whose children are replaced by children that say the same. -/
theorem compact_indentAt_with {level : ℕ} {e : Element} {children : List Element}
    (hne : e.children ≠ []) (h : children.map compact = e.children.map compact) :
    compact { e.indentAt level with children := children } = e.compact := by
  obtain ⟨tag, attributes, text, tail, old⟩ := e
  have hempty : children.isEmpty = old.isEmpty := by
    have hmap := congrArg List.isEmpty h
    rwa [List.isEmpty_map, List.isEmpty_map] at hmap
  have hold : old.isEmpty = false := List.isEmpty_eq_false_iff.mpr hne
  simp only [indentAt, compact, compactChildren_eq_map, hempty, hold, h]
  simp

/-! ### The text of a child -/

theorem find?_compact (e : Element) (tag : String) :
    e.compact.children.find? (fun child => child.tag = tag)
      = (e.children.find? (fun child => child.tag = tag)).map compact := by
  rw [children_compact, List.find?_map]
  congr 1
  refine congrArg (fun p => e.children.find? p) (funext fun child => ?_)
  simp

@[simp] theorem strip_findText_compact (e : Element) (tag : String) :
    strip (e.compact.findText tag) = strip (e.findText tag) := by
  rw [findText, findText, find?_compact]
  cases e.children.find? (fun child => child.tag = tag) with
  | none => rfl
  | some child =>
    show strip child.compact.text = strip child.text
    rw [text_compact, ownText]
    split
    · rfl
    · exact strip_unfill child.text

/-- The first child with the tag has the text, up to layout. -/
def carries (e : Element) (tag value : String) : Bool :=
  (e.children.find? (fun child => child.tag = tag)).any
    (fun child => child.ownText child.text = child.ownText value)

@[simp] theorem ownText_compact (e : Element) (text : String) :
    e.compact.ownText (e.ownText text) = e.ownText text := by
  rw [ownText, children_compact, List.isEmpty_map]
  by_cases hleaf : e.children.isEmpty = true
  · rw [if_pos hleaf]
  · rw [if_neg hleaf, ownText, if_neg hleaf]
    by_cases hblank : isBlank text = true
    · rw [unfill, unfill, if_pos hblank, if_pos isBlank_empty]
    · rw [unfill, unfill, if_neg hblank, if_neg hblank]

theorem carries_compact (e : Element) (tag value : String) :
    e.compact.carries tag value = e.carries tag value := by
  rw [carries, carries, find?_compact]
  cases e.children.find? (fun child => child.tag = tag) with
  | none => rfl
  | some child =>
    have hvalue : child.compact.ownText value = child.ownText value := by
      rw [ownText, ownText, children_compact, List.isEmpty_map]
    show decide (child.compact.ownText child.compact.text = child.compact.ownText value)
      = decide (child.ownText child.text = child.ownText value)
    rw [hvalue, text_compact, ownText_compact]

/-- Elements that say the same carry the same texts. -/
theorem carries_congr {e e' : Element} (h : e.compact = e'.compact) (tag value : String) :
    e.carries tag value = e'.carries tag value := by
  rw [← carries_compact e, h, carries_compact]

theorem find?_setIn_self (tag value : String) (children : List Element) :
    ((setIn tag value children).find? (fun child => child.tag = tag)).map text = some value := by
  induction children with
  | nil => simp [setIn, leaf]
  | cons child rest ih =>
    by_cases htag : child.tag = tag
    · simp [setIn, htag]
    · simpa [setIn, htag] using ih

theorem carries_setChild_self (e : Element) (tag value : String) :
    (e.setChild tag value).carries tag value = true := by
  have hfind := find?_setIn_self tag value e.children
  rw [carries]
  show (Option.any _ ((setIn tag value e.children).find? _)) = true
  cases hchild : (setIn tag value e.children).find? (fun child => child.tag = tag) with
  | none => simp [hchild] at hfind
  | some child =>
    rw [hchild, Option.map_some, Option.some.injEq] at hfind
    simp [hfind]

theorem find?_setIn_of_ne {tag other : String} (value : String) (h : other ≠ tag)
    (children : List Element) : (setIn tag value children).find? (fun child => child.tag = other)
      = children.find? (fun child => child.tag = other) := by
  induction children with
  | nil => simp [setIn, leaf, Ne.symm h]
  | cons child rest ih =>
    by_cases htag : child.tag = tag
    · simp [setIn, htag, Ne.symm h]
    · by_cases hother : child.tag = other
      · rw [setIn, if_neg htag, List.find?_cons_of_pos (by simp [hother]),
          List.find?_cons_of_pos (by simp [hother])]
      · simpa [setIn, htag, hother] using ih

theorem carries_setChild_of_ne (e : Element) {tag other : String} (value otherValue : String)
    (h : other ≠ tag) :
    (e.setChild tag value).carries other otherValue = e.carries other otherValue := by
  rw [carries, carries]
  show Option.any _ ((setIn tag value e.children).find? _) = _
  rw [find?_setIn_of_ne value h]

theorem compact_with_text {e : Element} {value : String}
    (h : e.ownText e.text = e.ownText value) : compact { e with text := value } = e.compact := by
  obtain ⟨tag, attributes, text, tail, children⟩ := e
  rw [compact, compact]
  exact congrArg (fun text => Element.mk tag attributes text (unfill tail) _) h.symm

/-- Writing a text that is there changes nothing. -/
theorem compact_setChild_of_carries {e : Element} {tag value : String}
    (h : e.carries tag value = true) : (e.setChild tag value).compact = e.compact := by
  have hchildren : (setIn tag value e.children).map compact = e.children.map compact := by
    unfold carries at h
    generalize e.children = children at h
    induction children with
    | nil => simp at h
    | cons child rest ih =>
      by_cases htag : child.tag = tag
      · have htext : child.ownText child.text = child.ownText value := by simpa [htag] using h
        rw [setIn, if_pos htag, List.map_cons, List.map_cons, compact_with_text htext]
      · rw [setIn, if_neg htag, List.map_cons, List.map_cons, ih (by simpa [htag] using h)]
  have hempty : (setIn tag value e.children).isEmpty = e.children.isEmpty := by
    rw [← List.isEmpty_map (f := compact), hchildren, List.isEmpty_map]
  obtain ⟨etag, attributes, text, tail, children⟩ := e
  rw [setChild, compact, compact, compactChildren_eq_map, compactChildren_eq_map]
  exact congrArg₂ (fun text children => Element.mk etag attributes text (unfill tail) children)
    (by rw [hempty]) hchildren

/-! ### The text of a tree -/

/-- The text with references for the characters that markup is made of. -/
def escape (references : List (Char × List Char)) (text : String) : String :=
  String.ofList (text.toList.flatMap fun c => ((references.find? (·.1 = c)).map (·.2)).getD [c])

/-- The references in a text, and with the quotation mark those in an attribute. -/
def cdataReferences : List (Char × List Char) :=
  [('&', ['&', 'a', 'm', 'p', ';']), ('<', ['&', 'l', 't', ';']), ('>', ['&', 'g', 't', ';'])]

def attribReferences : List (Char × List Char) :=
  cdataReferences ++ [('"', ['&', 'q', 'u', 'o', 't', ';'])]

mutual

/-- `ET.tostring`, of a tree whose names are in no namespace. -/
def tostring : Element → String
  | ⟨tag, attributes, text, tail, children⟩ =>
    "<" ++ tag
      ++ String.join (attributes.map fun a => " " ++ a.1 ++ "=\"" ++ escape attribReferences a.2 ++ "\"")
      ++ (if text = "" && children.isEmpty then " />"
          else ">" ++ escape cdataReferences text ++ tostringAll children ++ "</" ++ tag ++ ">")
      ++ escape cdataReferences tail

def tostringAll : List Element → String
  | [] => ""
  | child :: rest => tostring child ++ tostringAll rest

end

end Element

/-! ### The first element with a property -/

/-- The first element with the property is changed. -/
def updateFirst {α : Type*} (p : α → Bool) (f : α → α) : List α → List α
  | [] => []
  | a :: as => if p a then f a :: as else a :: updateFirst p f as

theorem updateFirst_append {α : Type*} {p : α → Bool} (f : α → α) {before : List α} {a : α}
    (after : List α) (hbefore : ∀ b ∈ before, p b = false) (ha : p a = true) :
    updateFirst p f (before ++ a :: after) = before ++ f a :: after := by
  induction before with
  | nil => simp [updateFirst, ha]
  | cons b before ih =>
    rw [List.forall_mem_cons] at hbefore
    rw [List.cons_append, updateFirst, if_neg (by simp [hbefore.1]), ih hbefore.2]
    rfl

end RomCloud.Lib
