import RomCloud.Lib.Names
import RomCloud.Lib.Text
import RomCloud.Selection.Registry

namespace RomCloud.Selection

open Lib

/-!
# From a path to its conflict group

`SaveSelectionPolicy.group_for_path` and `group_id_for_rom`, over any layouts.

* `matchLayout` — whether a path is one of a layout's files, and which part of it is the root;
* `rootStem`, `groupKey` — the key that the path gets in its layout;
* `groupForPath`, `groupIdForRom` — the group of a path, and the one a game's own name stands for;
* `groupForPath_spec` — a group comes from one layout, the root and the name of the file.
-/

/-! ### Matching -/

/-- `_segments`. -/
def segments (value : String) : List String :=
  posixParts (String.ofList (value.toList.map fun c => if c = '\\' then '/' else c))

/-- `re.compile(r"[0-9A-Fa-f]{n}").fullmatch`. -/
def isHex (n : ℕ) (value : String) : Bool :=
  value.length = n && value.toList.all fun c =>
    c.isDigit || ('A' ≤ c && c ≤ 'F') || ('a' ≤ c && c ≤ 'f')

/-- `_TOKEN_VALIDATORS`. -/
def tokenValidator : String → Option (String → Bool)
  | "{digits8}" => some fun value => value.length = 8 && value.toList.all Char.isDigit
  | "{hex8}" => some (isHex 8)
  | "{hex32}" => some (isHex 32)
  | "{hex16}" => some (isHex 16)
  | "{sony_title_id}" => some fun value => value.length = 9
      && (value.toList.take 4).all Char.isAlpha && (value.toList.drop 4).all Char.isDigit
  | "{dolphin_gc_region}" => some fun value => ["EUR", "USA", "JAP", "JPN"].contains value
  | "{dolphin_gc_card}" => some fun value => ["Card A", "Card B"].contains value
  | "{host_directory}" => some fun value => value ≠ "" && !([".", ".."].contains value)
      && value.toList.all fun c => !(['/', '\\', '\x00'].contains c)
  | "{dolphin_wii_save_type}" => some fun value =>
      ["00010000", "00010001", "00010004"].contains value
  | _ => none

/-- `_segment_matches`. -/
def segmentMatches (pattern value : String) : Bool :=
  match tokenValidator pattern with
  | some validator => validator value
  | none => pattern = value

/-- `str.replace("**", "*")`. -/
def singleStars : List Char → List Char
  | '*' :: '*' :: rest => '*' :: singleStars rest
  | c :: rest => c :: singleStars rest
  | [] => []

/-- `_match`. -/
def matchPattern (path pattern : String) : Bool :=
  fnmatch path.toList (singleStars pattern.toList)

/-- A relative path that is spelled in the one way `as_posix` spells it, without `.` and `..`. -/
def isCanonical (path : String) : Bool :=
  path ≠ "" && !path.toList.contains '\\' && path.toList.head? ≠ some '/'
    && path.toList.getLast? ≠ some '/' && asPosix path = path
    && (posixParts path).all fun part => !([".", ".."].contains part)

/-- `_match_layout`: the root of the path and the rest below it. -/
def matchLayout (layout : SaveLayout) (relativePath : String) :
    Option (List String × List String) :=
  if !isCanonical relativePath then none
  else
    let parts := posixParts relativePath
    let roots := segments layout.rootPattern
    if parts.length ≤ roots.length then none
    else
      let actualRoot := parts.take roots.length
      let remainder := parts.drop roots.length
      let remainderPath := "/".intercalate remainder
      if (roots.zip actualRoot).any fun pair => !segmentMatches pair.1 pair.2 then none
      else if !layout.recursive && remainder.length ≠ 1 then none
      else if layout.exclusions.any (matchPattern remainderPath) then none
      else if !layout.eligibleFiles.any (matchPattern remainderPath) then none
      else some (actualRoot, remainder)

/-! ### Keys -/

section Keys

variable (C : CaseFolding)

/-- Where `_root_stem` cuts a case-folded name: a marker at the very front does not count. -/
def markerIndex (folded : List Char) : Option ℕ :=
  ((find ".savestat".toList folded).filter (0 < ·)).or
    ((find ".state".toList folded).filter (0 < ·))

/-- `_root_stem`. -/
def rootStem (filename : List Char) : List Char :=
  match markerIndex (C.casefold filename) with
  | some index => C.casefold (filename.take index)
  | none => C.casefold (stem filename)

/-- A reversed text without the slot number that it ends with. -/
def trimReversed (text : List Char) : List Char :=
  match (text.takeWhile C.isDecimal, text.dropWhile C.isDecimal) with
  | (_ :: _, '.' :: front) => front
  | _ => text

/-- `re.sub(r"\.\d+$", "", text)`, where `$` also stands before a newline at the end. -/
def trimSlot (text : List Char) : List Char :=
  match text.reverse with
  | '\n' :: body => (trimReversed C body).reverse ++ ['\n']
  | body => (trimReversed C body).reverse

/-- A reversed text without a Dolphin state slot at its end. -/
def trimStateReversed : List Char → List Char
  | b :: a :: s :: '.' :: front =>
    if C.isDecimal a && C.isDecimal b && (s = 's' || s = 'S' || s = 'ſ') then front
    else b :: a :: s :: '.' :: front
  | text => text

/-- `re.sub(r"\.s\d{2}(?:\.dtm)?$", "", text, flags=re.I)`. -/
def trimState (text : List Char) : List Char :=
  let (body, newline) := match text.reverse with
    | '\n' :: body => (body, ['\n'])
    | body => (body, [])
  match body with
  | m :: t :: d :: '.' :: front =>
    if (d = 'd' || d = 'D') && (t = 't' || t = 'T') && (m = 'm' || m = 'M')
        && trimStateReversed C front ≠ front then
      (trimStateReversed C front).reverse ++ newline
    else (trimStateReversed C body).reverse ++ newline
  | body => (trimStateReversed C body).reverse ++ newline

def folded (text : String) : String := String.ofList (C.casefold text.toList)

/-- `_group_key`. -/
def groupKey (layout : SaveLayout) (root remainder : List String) : String :=
  let filename := (remainder.getLastD "").toList
  match layout.groupBy with
  | .layout => "dataset"
  | .root => if root = [] then "root" else folded C ("/".intercalate root)
  | .firstDescendant =>
    if root = [] then folded C (remainder.headD "")
    else folded C ("/".intercalate root) ++ "/" ++ folded C (remainder.headD "")
  | .rootStem => String.ofList (rootStem C filename)
  | .rootFile => folded C ("/".intercalate (root ++ [String.ofList (stem filename)]))
  | .n64Title => String.ofList (trimSlot C (rootStem C filename))
  | .dolphinState => String.ofList (C.casefold (trimState C filename))

/-! ### Groups -/

structure SaveGroupDescriptor where
  groupId : String
  layoutId : String
  system : String
  shared : Bool
  containerId : String
  containerAdapterId : String
  containerPolicyId : String
  containerKind : ContainerKind
deriving DecidableEq

/-- The number of segments of a root pattern that are tokens. -/
def tokenCount (layout : SaveLayout) : ℕ :=
  (segments layout.rootPattern).countP fun segment => (tokenValidator segment).isSome

/-- The descriptor of a path that a layout matches. -/
def descriptor (layout : SaveLayout) (canonicalPath : String) (root remainder : List String) :
    SaveGroupDescriptor where
  groupId := layout.layoutId ++ "/" ++ groupKey C layout root remainder
  layoutId := layout.layoutId
  system := layout.system
  shared := layout.shared
  containerId := match layout.containerKind with
    | .file => canonicalPath
    | .directory => "/".intercalate (layout.system :: root)
    | .none => ""
  containerAdapterId := layout.containerAdapterId
  containerPolicyId := layout.containerPolicyId
  containerKind := layout.containerKind

/-- `group_for_path`: literal roots are tried before those with tokens. -/
def groupForPath (layouts : List SaveLayout) (canonicalPath : String) :
    Option SaveGroupDescriptor :=
  if !isCanonical canonicalPath then none
  else match canonicalPath.toList.span (· ≠ '/') with
  | (_, []) => none
  | (system, _ :: relative) =>
    (layouts.insertionSort fun a b => tokenCount a ≤ tokenCount b).findSome? fun layout =>
      if layout.system = String.ofList system then
        (matchLayout layout (String.ofList relative)).map fun matched =>
          descriptor C layout canonicalPath matched.1 matched.2
      else none

/-- `group_id_for_rom`. -/
def groupIdForRom (layouts : List SaveLayout) (layoutId romFilename : String) : Option String :=
  match layouts.find? (fun layout => layout.layoutId = layoutId) with
  | none => none
  | some layout =>
    if layout.shared || layout.containerAdapterId ≠ "" then none
    else
      let key := C.casefold (stem ((posixParts romFilename).getLastD "").toList)
      match layout.groupBy with
      | .rootStem => some (layoutId ++ "/" ++ String.ofList key)
      | .n64Title => some (layoutId ++ "/" ++ String.ofList (trimSlot C key))
      | _ => none

end Keys

/-! ### What a group comes from -/

section Spec

variable {C : CaseFolding} {layouts : List SaveLayout} {layout : SaveLayout} {path : String}

/-- A matched path: the root of the layout, and below it at least the name of a file. -/
structure Matched (layout : SaveLayout) (relativePath : String) (root remainder : List String) :
    Prop where
  canonical : isCanonical relativePath = true
  parts : posixParts relativePath = root ++ remainder
  below : remainder ≠ []
  roots : List.Forall₂ (fun pattern value => segmentMatches pattern value = true)
    (segments layout.rootPattern) root

theorem matchLayout_spec {relativePath : String} {root remainder : List String}
    (h : matchLayout layout relativePath = some (root, remainder)) :
    Matched layout relativePath root remainder := by
  rw [matchLayout] at h
  split at h
  · cases h
  next hcanonical =>
  dsimp only at h
  split at h
  · cases h
  next hlength =>
  split at h
  · cases h
  next hroots =>
  split at h
  · cases h
  split at h
  · cases h
  split at h
  · cases h
  obtain ⟨rfl, rfl⟩ := Prod.mk.inj (Option.some.inj h)
  refine ⟨by simpa using hcanonical, (List.take_append_drop _ _).symm, ?_, ?_⟩
  · intro hnil
    rw [List.drop_eq_nil_iff] at hnil
    exact hlength hnil
  · rw [List.forall₂_iff_zip]
    constructor
    · rw [List.length_take]
      omega
    · intro pattern value hpair
      rw [Bool.not_eq_true, List.any_eq_false] at hroots
      simpa using hroots (pattern, value) hpair

/-- A group comes from one layout, which matches the path below the directory of its system. -/
theorem groupForPath_spec {d : SaveGroupDescriptor} (h : groupForPath C layouts path = some d) :
    ∃ layout ∈ layouts, ∃ relativePath root remainder,
      path = layout.system ++ "/" ++ relativePath ∧ isCanonical path = true ∧
      Matched layout relativePath root remainder ∧
      d = descriptor C layout path root remainder := by
  rw [groupForPath] at h
  split at h
  · cases h
  next hcanonical =>
  split at h
  · cases h
  next system slash relative hspan =>
  obtain ⟨layout, hlayout, hfound⟩ := List.exists_of_findSome?_eq_some h
  split at hfound
  · next hsystem =>
    obtain ⟨⟨root, remainder⟩, hmatch, rfl⟩ := Option.map_eq_some_iff.mp hfound
    refine ⟨layout, (List.mem_insertionSort _).mp hlayout, String.ofList relative, root,
      remainder, ?_, by simpa using hcanonical, matchLayout_spec hmatch, rfl⟩
    rw [List.span_eq_takeWhile_dropWhile, Prod.mk.injEq] at hspan
    have hslash : slash = '/' := by
      have hhead := List.head?_dropWhile_not (· ≠ '/') path.toList
      rw [hspan.2] at hhead
      simpa using hhead
    have hsplit : path.toList = system ++ '/' :: relative := by
      rw [← List.takeWhile_append_dropWhile (p := (· ≠ '/')) (l := path.toList), hspan.1, hspan.2,
        hslash]
    rw [hsystem, ← String.toList_inj, hsplit]
    simp [String.toList_append]
  · cases hfound

/-- A canonical path that only one layout of its system matches has the group of that layout. -/
theorem groupForPath_of_only {relativePath : String} {root remainder : List String}
    (hlayout : layout ∈ layouts) (hplain : '/' ∉ layout.system.toList)
    (hcanonical : isCanonical (layout.system ++ "/" ++ relativePath) = true)
    (hmatch : matchLayout layout relativePath = some (root, remainder))
    (honly : ∀ other ∈ layouts, other.system = layout.system → other = layout ∨
      matchLayout other relativePath = none) :
    groupForPath C layouts (layout.system ++ "/" ++ relativePath)
      = some (descriptor C layout (layout.system ++ "/" ++ relativePath) root remainder) := by
  have hsystem : ∀ c ∈ layout.system.toList, decide (c ≠ '/') = true := by
    intro c hc
    apply decide_eq_true
    rintro rfl
    exact hplain hc
  have hsplit : (layout.system ++ "/" ++ relativePath).toList
      = layout.system.toList ++ '/' :: relativePath.toList := by
    simp [String.toList_append]
  have hspan : (layout.system ++ "/" ++ relativePath).toList.span (· ≠ '/')
      = (layout.system.toList, '/' :: relativePath.toList) := by
    rw [List.span_eq_takeWhile_dropWhile, hsplit, List.takeWhile_append_of_pos hsystem,
      List.dropWhile_append_of_pos hsystem]
    simp
  rw [groupForPath, hcanonical, hspan]
  simp only [Bool.not_true, Bool.false_eq_true, if_false, String.ofList_toList]
  set tried : SaveLayout → Option SaveGroupDescriptor := fun candidate =>
    if candidate.system = layout.system then
      (matchLayout candidate relativePath).map fun matched =>
        descriptor C candidate (layout.system ++ "/" ++ relativePath) matched.1 matched.2
    else none with htried
  have hself : tried layout
      = some (descriptor C layout (layout.system ++ "/" ++ relativePath) root remainder) := by
    rw [htried]
    simp only [if_true, hmatch, Option.map_some]
  have hothers : ∀ other ∈ layouts, tried other = none ∨ tried other
      = some (descriptor C layout (layout.system ++ "/" ++ relativePath) root remainder) := by
    intro other hother
    by_cases hsame : other.system = layout.system
    · rcases honly other hother hsame with rfl | hnone
      · exact Or.inr hself
      · left
        rw [htried]
        simp only [hsame, if_true, hnone, Option.map_none]
    · left
      rw [htried]
      simp only [hsame, if_false]
  cases hfound : (layouts.insertionSort fun a b => tokenCount a ≤ tokenCount b).findSome? tried with
  | none =>
    have hnone := List.findSome?_eq_none_iff.mp hfound layout
      ((List.mem_insertionSort _).mpr hlayout)
    rw [hself] at hnone
    cases hnone
  | some d =>
    obtain ⟨other, hother, hd⟩ := List.exists_of_findSome?_eq_some hfound
    rcases hothers other ((List.mem_insertionSort _).mp hother) with hnone | hsome
    · rw [hd] at hnone
      cases hnone
    · rw [← hd, hsome]

end Spec

end RomCloud.Selection
