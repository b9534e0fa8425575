import Mathlib.Data.List.TakeWhile
import Mathlib.Data.String.Basic

namespace RomCloud.Lib

/-!
# Texts and paths

`strip` is the string method of the same name: it removes white space, in the sense of Unicode,
at both ends.  It works on the list of characters, so the kernel can evaluate it.

* `isSpace` — the characters `str.strip` removes;
* `strip` — the text without white space at its ends;
* `Text` — a text that is not blank;
* `posixParts` — the components of a path;
* `posixParts_intercalate` — a path that is joined from components has these.
-/

/-- The white-space characters of `str.isspace`. -/
def isSpace (c : Char) : Bool :=
  let n := c.toNat
  (9 ≤ n && n ≤ 13) || (28 ≤ n && n ≤ 32) || n = 0x85 || n = 0xA0 || n = 0x1680
    || (0x2000 ≤ n && n ≤ 0x200A) || n = 0x2028 || n = 0x2029 || n = 0x202F || n = 0x205F
    || n = 0x3000

/-- `text.strip()`. -/
def strip (text : String) : String :=
  String.ofList (((text.toList.dropWhile isSpace).reverse.dropWhile isSpace).reverse)

/-- A text with something other than white space in it. -/
abbrev Text := { text : String // strip text ≠ "" }

/-- A text with something that is no white space in it is not blank. -/
theorem strip_ne_empty_of_mem {text : String} {c : Char} (hc : c ∈ text.toList)
    (hspace : isSpace c = false) : strip text ≠ "" := by
  have hkept : c ∈ text.toList.dropWhile isSpace := by
    rw [← List.takeWhile_append_dropWhile (p := isSpace) (l := text.toList), List.mem_append] at hc
    rcases hc with htake | hdrop
    · exact absurd (List.mem_takeWhile_imp htake) (by simp [hspace])
    · exact hdrop
  intro hblank
  unfold strip at hblank
  have hnil : ((text.toList.dropWhile isSpace).reverse.dropWhile isSpace).reverse = [] := by
    rw [← String.ofList_nil] at hblank
    exact String.ofList_inj.mp hblank
  rw [List.reverse_eq_nil_iff, List.dropWhile_eq_nil_iff] at hnil
  have hall := hnil c (List.mem_reverse.mpr hkept)
  simp [hspace] at hall

/-- A text of white space is blank. -/
theorem strip_eq_empty {text : String} (h : ∀ c ∈ text.toList, isSpace c = true) :
    strip text = "" := by
  have hnil : text.toList.dropWhile isSpace = [] := List.dropWhile_eq_nil_iff.mpr h
  unfold strip
  rw [hnil]
  rfl

/-- A text without white space is not changed. -/
theorem strip_eq_self {text : String} (h : ∀ c ∈ text.toList, isSpace c = false) :
    strip text = text := by
  have hkeep : ∀ cs : List Char, (∀ c ∈ cs, isSpace c = false) → cs.dropWhile isSpace = cs := by
    intro cs hcs
    cases cs with
    | nil => rfl
    | cons c rest => simp [hcs c (by simp)]
  unfold strip
  rw [hkeep _ h, hkeep _ fun c hc => h c (List.mem_reverse.mp hc), List.reverse_reverse,
    String.ofList_toList]

example : strip "\t snes \n" = "snes" := by decide

/-- The components of a path, as `PurePosixPath.parts` has them. -/
def posixParts (path : String) : List String :=
  ((path.toList.splitOn '/').map String.ofList).filter (fun part => part ≠ "" && part ≠ ".")

/-- `PurePosixPath.as_posix`, of a relative path. -/
def asPosix (path : String) : String :=
  if posixParts path = [] then "." else "/".intercalate (posixParts path)

/-- The components of two paths, one below the other. -/
theorem posixParts_append (path below : String) :
    posixParts (path ++ "/" ++ below) = posixParts path ++ posixParts below := by
  have htoList : (path ++ "/" ++ below).toList = path.toList ++ '/' :: below.toList := by
    simp [String.toList_append]
  rw [posixParts, htoList, List.splitOn_append_cons_self, List.map_append, List.filter_append]
  rfl

/-- A name is its own only component. -/
theorem posixParts_name {name : String} (hplain : '/' ∉ name.toList) (hempty : name ≠ "")
    (hdot : name ≠ ".") : posixParts name = [name] := by
  rw [posixParts, List.splitOn_eq_singleton hplain, List.map_singleton, String.ofList_toList,
    List.filter_singleton]
  simp [hempty, hdot]

/-- The parts of a list between separators. -/
theorem mem_splitOn {α : Type} [DecidableEq α] {a : α} {xs part : List α}
    (h : part ∈ xs.splitOn a) : a ∉ part ∧ ∀ c ∈ part, c ∈ xs := by
  induction xs generalizing part with
  | nil =>
    obtain rfl : part = [] := by simpa using h
    exact ⟨by simp, by simp⟩
  | cons x rest ih =>
    rw [List.splitOn_cons_eq_if_modifyHead] at h
    by_cases hx : (x == a) = true
    · rw [if_pos hx, List.mem_cons] at h
      rcases h with rfl | h
      · exact ⟨by simp, by simp⟩
      · exact ⟨(ih h).1, fun c hc => List.mem_cons_of_mem x ((ih h).2 c hc)⟩
    · rw [if_neg hx] at h
      cases hrest : rest.splitOn a with
      | nil => exact absurd hrest (List.splitOn_ne_nil a rest)
      | cons first others =>
        rw [hrest, List.modifyHead_cons, List.mem_cons] at h
        rcases h with rfl | h
        · have hfirst := ih (hrest ▸ List.mem_cons_self)
          refine ⟨?_, ?_⟩
          · rw [List.mem_cons, not_or]
            exact ⟨fun heq => hx (by simp [heq]), hfirst.1⟩
          · intro c hc
            rcases List.mem_cons.mp hc with rfl | hc
            · exact List.mem_cons_self
            · exact List.mem_cons_of_mem x (hfirst.2 c hc)
        · have hother := ih (hrest ▸ List.mem_cons_of_mem first h)
          exact ⟨hother.1, fun c hc => List.mem_cons_of_mem x (hother.2 c hc)⟩

/-- A component is not empty and not a dot, and has no slash. -/
theorem mem_posixParts {path part : String} (h : part ∈ posixParts path) :
    part ≠ "" ∧ part ≠ "." ∧ '/' ∉ part.toList ∧ ∀ c ∈ part.toList, c ∈ path.toList := by
  obtain ⟨hin, hkept⟩ := List.mem_filter.mp h
  obtain ⟨cs, hcs, rfl⟩ := List.mem_map.mp hin
  rw [Bool.and_eq_true, decide_eq_true_eq, decide_eq_true_eq] at hkept
  rw [String.toList_ofList]
  exact ⟨hkept.1, hkept.2, mem_splitOn hcs⟩

/-- The components that a path was joined from. -/
theorem posixParts_intercalate {parts : List String}
    (h : ∀ part ∈ parts, part ≠ "" ∧ part ≠ "." ∧ '/' ∉ part.toList) :
    posixParts ("/".intercalate parts) = parts := by
  induction parts with
  | nil => decide
  | cons part rest ih =>
    obtain ⟨hempty, hdot, hslash⟩ := h part List.mem_cons_self
    cases rest with
    | nil => rw [String.intercalate_singleton, posixParts_name hslash hempty hdot]
    | cons next rest =>
      rw [String.intercalate_cons_cons, posixParts_append, posixParts_name hslash hempty hdot,
        ih fun p hp => h p (List.mem_cons_of_mem _ hp)]
      rfl

end RomCloud.Lib
