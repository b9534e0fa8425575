import RomCloud.Cache.DescriptorFormats

namespace RomCloud.Cache

open RomCloud.Lib
open RomCloud.Library (forwardSlashes rootSlashes purePathParts joinParts normpath normStep)

/-!
# The references of a cue sheet

The catalog resolves the references of a cue sheet by a rule of its own.

* `parseCue`, `resolveCueDependencies` — the catalog's reader of cue sheets;
* `climb`, `placeOf` — where the components of a path lead from a directory;
* `posixParts_normpath` — the components of a path in normal form are these;
* `CuePath` — the path of a cue sheet in a system;
* `cueTarget_eq`, `resolveReference_eq` — the catalog's rule and that of the dependency resolver.
-/

/-! ### The reader of the catalog -/

structure CueParseWarning where
  lineNumber : ℕ
  line : String
  reason : String

structure CueParseResult where
  references : List String
  warnings : List CueParseWarning

/-- `parse_cue_references`, over the numbered lines. -/
def parseCue (T : TextTables) : ℕ → List String → CueParseResult
  | _, [] => ⟨[], []⟩
  | number, line :: rest =>
    let parsed := parseCue T (number + 1) rest
    match cueLine T line with
    | .other => parsed
    | .warning reason => { parsed with warnings := ⟨number, line, reason⟩ :: parsed.warnings }
    | .reference name => { parsed with references := name :: parsed.references }

structure CueDependency where
  rawReference : String
  relativePath : String
deriving DecidableEq

structure CueRejection where
  rawReference : String
  reason : String

structure CueDependencyResult where
  dependencies : List CueDependency
  rejected : List CueRejection
  warnings : List CueParseWarning

/-- `text.split("/")`. -/
def slashParts (path : String) : List String := (path.toList.splitOn '/').map String.ofList

/-- The path of a reference, unless it leads out of the system. -/
def cueTarget (system cueDir rawReference : String) : Option String :=
  let candidate := normpath (posixJoin cueDir (forwardSlashes rawReference))
  let parts := (slashParts candidate).filter (fun part => part ≠ "" && part ≠ ".")
  if parts = [] ∨ parts.head? ≠ some system ∨ ".." ∈ parts then none
  else some ("/".intercalate parts)

/-- `resolve_cue_dependencies`. -/
def resolveCueDependencies (T : TextTables) (cueRelativePath text : String) :
    CueDependencyResult :=
  let parsed := parseCue T 1 (splitLines text)
  let cueParts := slashParts (normpath (forwardSlashes cueRelativePath))
  let system := cueParts.headD ""
  if system = "" then
    ⟨[], parsed.references.map (⟨·, "cue path has no system component"⟩), parsed.warnings⟩
  else
    let directory := "/".intercalate cueParts.dropLast
    let cueDir := if directory = "" then system else directory
    ⟨parsed.references.filterMap (fun raw => (cueTarget system cueDir raw).map (⟨raw, ·⟩)),
      (parsed.references.filter (fun raw => (cueTarget system cueDir raw).isNone)).map
        (⟨·, "path traversal outside system source root"⟩),
      parsed.warnings⟩

/-! ### Where components lead -/

/-- Where components lead from a directory, its last component first.  Two dots lead up, and above a
directory that is no root they lead nowhere. -/
def climb (rooted : Bool) : List String → List String → Option (List String)
  | kept, [] => some kept.reverse
  | kept, part :: rest =>
    if part ≠ ".." then climb rooted (part :: kept) rest
    else if kept = [] ∧ rooted = false then none
    else climb rooted kept.tail rest

/-- Where a path leads from a directory. -/
def placeOf (directory : List String) (path : String) : Option (List String) :=
  if path.toList.head? = some '/' then climb true [] (posixParts path)
  else climb false directory.reverse (posixParts path)

theorem climb_append {rooted : Bool} {kept parts : List String} (rest : List String)
    (h : ".." ∉ parts) :
    climb rooted kept (parts ++ rest) = climb rooted (parts.reverse ++ kept) rest := by
  induction parts generalizing kept with
  | nil => rfl
  | cons part parts ih =>
    rw [List.mem_cons, not_or] at h
    rw [List.cons_append, climb, if_pos (Ne.symm h.1), ih h.2, List.reverse_cons, List.append_assoc]
    rfl

/-- What a step keeps: dots that lead nowhere stay. -/
theorem dots_normStep {rooted : Bool} {kept : List String} (part : String) (h : ".." ∈ kept) :
    ".." ∈ normStep rooted kept part := by
  rw [normStep]
  split
  · exact h
  split
  · exact List.mem_cons_of_mem _ h
  · next hpop =>
    push Not at hpop
    cases kept with
    | nil => exact absurd h List.not_mem_nil
    | cons first kept =>
      have hne : ".." ≠ first := fun heq => hpop.2.2 (by rw [heq]; rfl)
      exact (List.mem_cons.mp h).resolve_left hne

theorem dots_foldl {rooted : Bool} (parts : List String) {kept : List String} (h : ".." ∈ kept) :
    ".." ∈ parts.foldl (normStep rooted) kept := by
  induction parts generalizing kept with
  | nil => exact h
  | cons part parts ih => exact ih (dots_normStep part h)

/-- The loop of `normpath` and the place: dots stay exactly if the components lead nowhere. -/
theorem foldl_normStep (rooted : Bool) {parts kept : List String}
    (hparts : ∀ part ∈ parts, part ≠ "" ∧ part ≠ ".") (hkept : ".." ∉ kept) :
    match climb rooted kept parts with
    | some place => (parts.foldl (normStep rooted) kept).reverse = place ∧ ".." ∉ place
    | none => ".." ∈ parts.foldl (normStep rooted) kept := by
  induction parts generalizing kept with
  | nil => exact ⟨rfl, by simpa using hkept⟩
  | cons part parts ih =>
    rw [List.forall_mem_cons] at hparts
    have hskip : ¬ (part = "" ∨ part = ".") := by
      rintro (h | h)
      · exact hparts.1.1 h
      · exact hparts.1.2 h
    have hhead : kept.head? ≠ some ".." := fun h => hkept (List.mem_of_mem_head? h)
    rw [climb, List.foldl_cons]
    by_cases hdots : part = ".."
    · rw [if_neg (not_not.mpr hdots)]
      by_cases hnowhere : kept = [] ∧ rooted = false
      · obtain ⟨rfl, rfl⟩ := hnowhere
        rw [if_pos ⟨rfl, rfl⟩]
        apply dots_foldl
        rw [normStep, if_neg hskip, if_pos (by simp), hdots]
        exact List.mem_cons_self
      · have hstep : normStep rooted kept part = kept.tail := by
          rw [normStep, if_neg hskip, if_neg]
          rintro (h | h | h)
          · exact h hdots
          · exact hnowhere h.symm
          · exact hhead h
        rw [if_neg hnowhere, hstep]
        exact ih hparts.2 fun h => hkept (List.mem_of_mem_tail h)
    · have hstep : normStep rooted kept part = part :: kept := by
        rw [normStep, if_neg hskip, if_pos (Or.inl hdots)]
      rw [if_pos hdots, hstep]
      refine ih hparts.2 fun h => ?_
      rcases List.mem_cons.mp h with h | h
      · exact hdots h.symm
      · exact hkept h

/-- Empty components and dots are skipped. -/
theorem foldl_normStep_filter (rooted : Bool) (parts kept : List String) :
    parts.foldl (normStep rooted) kept
      = (parts.filter (fun part => part ≠ "" && part ≠ ".")).foldl (normStep rooted) kept := by
  induction parts generalizing kept with
  | nil => rfl
  | cons part parts ih =>
    by_cases hskip : part = "" ∨ part = "."
    · have hstep : normStep rooted kept part = kept := by rw [normStep, if_pos hskip]
      rw [List.foldl_cons, hstep, List.filter_cons_of_neg (by rcases hskip with rfl | rfl <;> decide)]
      exact ih kept
    · rw [not_or] at hskip
      rw [List.filter_cons_of_pos (by simp [hskip.1, hskip.2]), List.foldl_cons, List.foldl_cons]
      exact ih _

/-- The components in the loop of `normpath`. -/
def normParts (path : String) : List String :=
  ((posixParts path).foldl (normStep (rootSlashes path ≠ "")) []).reverse

theorem normpath_eq (path : String) : normpath path
    = if rootSlashes path ++ "/".intercalate (normParts path) = "" then "."
      else rootSlashes path ++ "/".intercalate (normParts path) := by
  rw [normpath, foldl_normStep_filter]
  rfl

theorem mem_normStep {rooted : Bool} {kept : List String} {part p : String}
    (h : p ∈ normStep rooted kept part) : p = part ∨ p ∈ kept := by
  rw [normStep] at h
  split at h
  · exact Or.inr h
  split at h
  · exact List.mem_cons.mp h
  · exact Or.inr (List.mem_of_mem_tail h)

theorem mem_normParts {path part : String} (h : part ∈ normParts path) :
    part ∈ posixParts path := by
  have hfold : ∀ (parts kept : List String), ∀ p ∈ parts.foldl (normStep (rootSlashes path ≠ "")) kept,
      p ∈ parts ∨ p ∈ kept := by
    intro parts
    induction parts with
    | nil => exact fun kept p hp => Or.inr hp
    | cons first parts ih =>
      intro kept p hp
      rcases ih _ p hp with hin | hin
      · exact Or.inl (List.mem_cons_of_mem _ hin)
      · rcases mem_normStep hin with rfl | hin
        · exact Or.inl List.mem_cons_self
        · exact Or.inr hin
  exact (hfold _ _ part (List.mem_reverse.mp h)).resolve_right List.not_mem_nil

/-- The slashes of a root are no component. -/
theorem posixParts_root (root rest : String) (h : root = "" ∨ root = "/" ∨ root = "//") :
    posixParts (root ++ rest) = posixParts rest := by
  rcases h with rfl | rfl | rfl
  · rw [String.empty_append]
  · have hsplit : "/" ++ rest = "" ++ "/" ++ rest := by rw [String.empty_append]
    rw [hsplit, posixParts_append]
    rfl
  · have hsplit : "//" ++ rest = "" ++ "/" ++ ("" ++ "/" ++ rest) := by
      rw [String.empty_append, ← String.append_assoc]
      rfl
    rw [hsplit, posixParts_append, posixParts_append]
    rfl

theorem rootSlashes_cases (path : String) :
    rootSlashes path = "" ∨ rootSlashes path = "/" ∨ rootSlashes path = "//" := by
  unfold rootSlashes
  split
  · exact Or.inr (Or.inl rfl)
  · exact Or.inr (Or.inr rfl)
  · exact Or.inr (Or.inl rfl)
  · exact Or.inl rfl

/-- The components of a path in normal form. -/
theorem posixParts_normpath (path : String) : posixParts (normpath path) = normParts path := by
  have hparts : posixParts (rootSlashes path ++ "/".intercalate (normParts path))
      = normParts path := by
    rw [posixParts_root _ _ (rootSlashes_cases path)]
    refine posixParts_intercalate fun part hpart => ?_
    obtain ⟨hempty, hdot, hslash, -⟩ := mem_posixParts (mem_normParts hpart)
    exact ⟨hempty, hdot, hslash⟩
  rw [normpath_eq]
  split
  · next hnil =>
    rw [hnil] at hparts
    rw [← hparts]
    decide
  · exact hparts

/-- A path has a root exactly if it begins with a slash. -/
theorem rootSlashes_ne_empty_iff (path : String) :
    rootSlashes path ≠ "" ↔ path.toList.head? = some '/' := by
  constructor
  · intro h
    by_contra hhead
    exact h (rootSlashes_eq_empty hhead)
  · intro h
    obtain ⟨rest, hrest⟩ := List.head?_eq_some_iff.mp h
    unfold rootSlashes
    rw [hrest]
    split
    · decide
    · decide
    · decide
    · next hno => exact absurd rfl (hno rest)

/-- A path without a root has none in normal form. -/
theorem rootSlashes_normpath {path : String} (h : path.toList.head? ≠ some '/') :
    rootSlashes (normpath path) = "" := by
  apply rootSlashes_eq_empty
  rw [normpath_eq, rootSlashes_eq_empty h, String.empty_append]
  split
  · decide
  · next hne =>
    intro hhead
    cases hparts : normParts path with
    | nil =>
      rw [hparts] at hne
      exact hne rfl
    | cons first rest =>
      obtain ⟨hempty, -, hslash, -⟩ := mem_posixParts (mem_normParts (hparts ▸ List.mem_cons_self))
      obtain ⟨c, cs, hcs⟩ : ∃ c cs, first.toList = c :: cs :=
        List.exists_cons_of_ne_nil fun hnil => hempty (String.toList_eq_nil_iff.mp hnil)
      have hc : c = '/' := by
        rw [hparts] at hhead
        cases rest with
        | nil =>
          rw [String.intercalate_singleton, hcs] at hhead
          exact Option.some.inj hhead
        | cons next rest =>
          rw [String.intercalate_cons_cons, String.toList_append, String.toList_append, hcs] at hhead
          exact Option.some.inj hhead
      exact hslash (by rw [hcs, hc]; exact List.mem_cons_self)

/-- Where the components of a path in normal form lead. -/
theorem normParts_eq (path : String) :
    match climb (path.toList.head? = some '/') [] (posixParts path) with
    | some place => normParts path = place ∧ ".." ∉ place
    | none => ".." ∈ normParts path := by
  have hrooted : decide (rootSlashes path ≠ "") = decide (path.toList.head? = some '/') :=
    decide_eq_decide.mpr (rootSlashes_ne_empty_iff path)
  have hfold := @foldl_normStep (decide (path.toList.head? = some '/')) (posixParts path) []
    (fun part hpart => by
      obtain ⟨hempty, hdot, -⟩ := mem_posixParts hpart
      exact ⟨hempty, hdot⟩) List.not_mem_nil
  rw [normParts, hrooted]
  cases hclimb : climb (decide (path.toList.head? = some '/')) [] (posixParts path) with
  | some place =>
    rw [hclimb] at hfold
    exact hfold
  | none =>
    rw [hclimb] at hfold
    exact List.mem_reverse.mpr hfold

/-! ### The path of a cue sheet -/

/-- A component that is a plain name. -/
def PlainName (part : String) : Prop :=
  part ≠ "" ∧ part ≠ "." ∧ part ≠ ".." ∧ '/' ∉ part.toList ∧ '\\' ∉ part.toList

/-- The path of a cue sheet in a system. -/
structure CuePath (T : TextTables) where
  system : String
  directories : List String
  name : String
  plain : ∀ part ∈ (system :: directories) ++ [name], PlainName part
  isCue : T.lower (pathSuffix ("/".intercalate ((system :: directories) ++ [name]))) = ".cue"

theorem exists_cons_of_plain {part : String} (h : PlainName part) :
    ∃ c cs, part.toList = c :: cs ∧ c ≠ '/' := by
  obtain ⟨c, cs, hcs⟩ : ∃ c cs, part.toList = c :: cs :=
    List.exists_cons_of_ne_nil fun hnil => h.1 (String.toList_eq_nil_iff.mp hnil)
  refine ⟨c, cs, hcs, ?_⟩
  rintro rfl
  exact h.2.2.2.1 (by rw [hcs]; exact List.mem_cons_self)

theorem exists_concat_of_plain {part : String} (h : PlainName part) :
    ∃ cs c, part.toList = cs ++ [c] ∧ c ≠ '/' := by
  have hne : part.toList ≠ [] := fun hnil => h.1 (String.toList_eq_nil_iff.mp hnil)
  refine ⟨_, _, (List.dropLast_append_getLast hne).symm, ?_⟩
  intro heq
  exact h.2.2.2.1 (heq ▸ List.getLast_mem hne)

/-- A path that is joined from plain names does not begin with a slash. -/
theorem joined_begins {parts : List String} (hne : parts ≠ []) (h : ∀ part ∈ parts, PlainName part) :
    ∃ c cs, ("/".intercalate parts).toList = c :: cs ∧ c ≠ '/' := by
  cases parts with
  | nil => exact absurd rfl hne
  | cons first rest =>
    obtain ⟨c, cs, hcs, hc⟩ := exists_cons_of_plain (h first List.mem_cons_self)
    cases rest with
    | nil => exact ⟨c, cs, by rw [String.intercalate_singleton, hcs], hc⟩
    | cons next rest =>
      refine ⟨c, cs ++ ('/' :: ("/".intercalate (next :: rest)).toList), ?_, hc⟩
      rw [String.intercalate_cons_cons, String.toList_append, String.toList_append, hcs]
      simp

/-- Neither does it end with one. -/
theorem joined_ends {parts : List String} (hne : parts ≠ []) (h : ∀ part ∈ parts, PlainName part) :
    ∃ cs c, ("/".intercalate parts).toList = cs ++ [c] ∧ c ≠ '/' := by
  induction parts with
  | nil => exact absurd rfl hne
  | cons first rest ih =>
    cases rest with
    | nil =>
      rw [String.intercalate_singleton]
      exact exists_concat_of_plain (h first List.mem_cons_self)
    | cons next rest =>
      obtain ⟨cs, c, hcs, hc⟩ := ih (List.cons_ne_nil _ _) fun p hp => h p (List.mem_cons_of_mem _ hp)
      refine ⟨first.toList ++ "/".toList ++ cs, c, ?_, hc⟩
      rw [String.intercalate_cons_cons, String.toList_append, String.toList_append, hcs,
        List.append_assoc, List.append_assoc, List.append_assoc]

namespace CuePath

variable {T : TextTables} (cue : CuePath T)

/-- The directory of the cue sheet, as its components. -/
def directory : List String := cue.system :: cue.directories

def parts : List String := cue.directory ++ [cue.name]

def path : String := "/".intercalate cue.parts

theorem plain_directory {part : String} (h : part ∈ cue.directory) : PlainName part :=
  cue.plain part (List.mem_append_left _ h)

theorem dots_not_mem : ".." ∉ cue.directory := fun h => (cue.plain_directory h).2.2.1 rfl

theorem path_eq : cue.path = "/".intercalate cue.directory ++ "/" ++ cue.name := by
  have hdirectory : cue.directory ≠ [] := List.cons_ne_nil _ _
  rw [path, parts, String.intercalate_append_of_ne_nil hdirectory (List.cons_ne_nil _ _),
    String.intercalate_singleton]

theorem normal : Normal cue.system cue.path :=
  ⟨cue.directories ++ [cue.name], rfl, cue.plain⟩

theorem slashParts_path : slashParts cue.path = cue.parts := by
  have hslash : ∀ l ∈ cue.parts.map String.toList, '/' ∉ l := by
    intro l hl
    obtain ⟨part, hpart, rfl⟩ := List.mem_map.mp hl
    exact (cue.plain part hpart).2.2.2.1
  rw [slashParts, path, String.toList_intercalate]
  rw [show "/".toList = ['/'] by decide,
    List.splitOn_intercalate '/' hslash (by simp [parts]), List.map_map]
  exact (List.map_congr_left fun part _ => String.ofList_toList).trans (List.map_id _)

theorem posixParts_path : posixParts cue.path = cue.parts :=
  posixParts_intercalate fun part hpart => by
    obtain ⟨hempty, hdot, -, hslash, -⟩ := cue.plain part hpart
    exact ⟨hempty, hdot, hslash⟩

theorem head?_path : cue.path.toList.head? ≠ some '/' := by
  obtain ⟨c, cs, hcs, hc⟩ := joined_begins (by simp) cue.plain
  rw [path, parts, directory, hcs]
  exact fun h => hc (Option.some.inj h)

theorem forwardSlashes_path : forwardSlashes cue.path = cue.path := by
  apply forwardSlashes_eq_self
  intro hmem
  rcases mem_joined hmem with heq | ⟨part, hpart, hc⟩
  · exact absurd heq (by decide)
  · exact (cue.plain part hpart).2.2.2.2 hc

/-- The path is in normal form. -/
theorem normpath_path : normpath cue.path = cue.path := by
  have hdots : ".." ∉ cue.parts := fun h => (cue.plain _ h).2.2.1 rfl
  have hclimb : climb false [] cue.parts = some cue.parts := by
    have h := @climb_append false [] cue.parts [] hdots
    rw [List.append_nil, List.append_nil] at h
    rw [h, climb, List.reverse_reverse]
  have hparts : normParts cue.path = cue.parts := by
    have h := normParts_eq cue.path
    rw [cue.posixParts_path, show decide (cue.path.toList.head? = some '/') = false from
      decide_eq_false cue.head?_path, hclimb] at h
    exact h.1
  have hne : cue.path ≠ "" := by
    obtain ⟨c, cs, hcs, -⟩ := joined_begins (by simp) cue.plain
    intro hempty
    rw [path, parts, directory] at hempty
    rw [hempty] at hcs
    cases hcs
  rw [normpath_eq, hparts, rootSlashes_eq_empty cue.head?_path, String.empty_append]
  exact if_neg hne

/-- The directory of the path. -/
theorem dirname_path : dirname cue.path = "/".intercalate cue.directory := by
  have hplain : ∀ part ∈ cue.directory, PlainName part := fun _ h => cue.plain_directory h
  have hdirectory : cue.directory ≠ [] := List.cons_ne_nil _ _
  obtain ⟨c, cs, hbegin, hc⟩ := joined_begins hdirectory hplain
  obtain ⟨ds, d, hend, hd⟩ := joined_ends hdirectory hplain
  have hname : ∀ x ∈ cue.name.toList.reverse, decide (x ≠ '/') = true := by
    intro x hx
    have hslash := (cue.plain cue.name (by simp)).2.2.2.1
    refine decide_eq_true ?_
    rintro rfl
    exact hslash (List.mem_reverse.mp hx)
  have hhead : (cue.path.toList.reverse.dropWhile (· ≠ '/')).reverse
      = ("/".intercalate cue.directory).toList ++ ['/'] := by
    rw [path_eq, String.toList_append, String.toList_append, List.reverse_append,
      List.dropWhile_append_of_pos hname, List.reverse_append,
      show "/".toList.reverse = ['/'] by decide, List.singleton_append,
      List.dropWhile_cons_of_neg (by decide), List.reverse_cons, List.reverse_reverse]
  have hall : (("/".intercalate cue.directory).toList ++ ['/']).all (· = '/') = false := by
    rw [hbegin]
    simp [hc]
  rw [dirname, hhead, hall]
  simp only [Bool.false_eq_true, if_false]
  rw [List.reverse_append, show ['/'].reverse = ['/'] by rfl, List.singleton_append,
    List.dropWhile_cons_of_pos (by decide), hend, List.reverse_append, List.reverse_singleton,
    List.singleton_append, List.dropWhile_cons_of_neg (by simp [hd]), List.reverse_cons,
    List.reverse_reverse, ← hend, String.ofList_toList]

/-- Where a reference leads from the directory of the cue sheet, if this is in its system. -/
def leads (reference : String) : Option String :=
  ((placeOf cue.directory (forwardSlashes reference)).filter
    (fun place => place.head? = some cue.system)).map ("/".intercalate ·)

/-- The normal form of a path that is joined to the directory. -/
theorem normParts_join (path : String) :
    match placeOf cue.directory path with
    | some place => normParts (posixJoin ("/".intercalate cue.directory) path) = place ∧ ".." ∉ place
    | none => ".." ∈ normParts (posixJoin ("/".intercalate cue.directory) path) := by
  have hdirectory : cue.directory ≠ [] := List.cons_ne_nil _ _
  have hplain : ∀ part ∈ cue.directory, PlainName part := fun _ h => cue.plain_directory h
  obtain ⟨c, cs, hbegin, hc⟩ := joined_begins hdirectory hplain
  obtain ⟨ds, d, hend, hd⟩ := joined_ends hdirectory hplain
  by_cases hroot : path.toList.head? = some '/'
  · have h := normParts_eq path
    rw [decide_eq_true hroot] at h
    rw [placeOf, if_pos hroot, posixJoin, if_pos hroot]
    exact h
  · have hjoin : posixJoin ("/".intercalate cue.directory) path
        = "/".intercalate cue.directory ++ "/" ++ path := by
      rw [posixJoin, if_neg hroot, if_neg]
      rintro (h | h)
      · rw [h] at hbegin
        cases hbegin
      · rw [hend, List.getLast?_concat] at h
        exact hd (Option.some.inj h)
    have hhead : (posixJoin ("/".intercalate cue.directory) path).toList.head? ≠ some '/' := by
      rw [hjoin, String.toList_append, String.toList_append, hbegin]
      exact fun h => hc (Option.some.inj h)
    have hparts : posixParts (posixJoin ("/".intercalate cue.directory) path)
        = cue.directory ++ posixParts path := by
      rw [hjoin, posixParts_append, posixParts_intercalate fun part hpart => by
        obtain ⟨hempty, hdot, -, hslash, -⟩ := hplain part hpart
        exact ⟨hempty, hdot, hslash⟩]
    have h := normParts_eq (posixJoin ("/".intercalate cue.directory) path)
    rw [hparts, decide_eq_false hhead, climb_append _ cue.dots_not_mem, List.append_nil] at h
    rw [placeOf, if_neg hroot]
    exact h

/-- **The catalog's rule.** A reference is accepted if it leads into the system. -/
theorem cueTarget_eq (reference : String) :
    cueTarget cue.system ("/".intercalate cue.directory) reference = cue.leads reference := by
  have hparts : ∀ path, (slashParts path).filter (fun part => part ≠ "" && part ≠ ".")
      = posixParts path := fun _ => rfl
  have h := cue.normParts_join (forwardSlashes reference)
  rw [cueTarget, leads]
  simp only [hparts, posixParts_normpath]
  cases hplace : placeOf cue.directory (forwardSlashes reference) with
  | none =>
    rw [hplace] at h
    rw [if_pos (Or.inr (Or.inr h))]
    rfl
  | some place =>
    rw [hplace] at h
    rw [h.1]
    by_cases hhead : place.head? = some cue.system
    · have hne : place ≠ [] := by
        rintro rfl
        cases hhead
      rw [if_neg, Option.filter_some, if_pos (decide_eq_true hhead)]
      · rfl
      · rintro (hnil | hother | hdots)
        · exact hne hnil
        · exact hother hhead
        · exact h.2 hdots
    · rw [if_pos (Or.inr (Or.inl hhead)), Option.filter_some,
        if_neg (by rw [decide_eq_true_eq]; exact hhead)]
      rfl

/-- The dependencies that the catalog finds. -/
theorem dependencies_eq (text : String) : (resolveCueDependencies T cue.path text).dependencies
    = (parseCue T 1 (splitLines text)).references.filterMap fun reference =>
        (cue.leads reference).map (⟨reference, ·⟩) := by
  have hdirectory : cue.directory ≠ [] := List.cons_ne_nil _ _
  have hparts : slashParts (normpath (forwardSlashes cue.path)) = cue.parts := by
    rw [cue.forwardSlashes_path, cue.normpath_path, cue.slashParts_path]
  have hsystem : cue.parts.headD "" = cue.system := rfl
  have hdrop : cue.parts.dropLast = cue.directory := List.dropLast_concat
  have hne : "/".intercalate cue.directory ≠ "" := by
    obtain ⟨c, cs, hcs, -⟩ := joined_begins hdirectory fun _ h => cue.plain_directory h
    intro hempty
    rw [hempty] at hcs
    cases hcs
  rw [resolveCueDependencies]
  simp only [hparts, hsystem, hdrop]
  rw [if_neg (cue.plain_directory List.mem_cons_self).1, if_neg hne]
  refine congrArg (fun f => List.filterMap f _) (funext fun reference => ?_)
  rw [cue.cueTarget_eq]

/-- A reference that the dependency resolver refuses as absolute: with a slash or a tilde at its
head, a drive, or the mark of a URL, after the blanks around it are dropped; or a blank one. -/
def Marked (reference : String) : Prop :=
  let raw := forwardSlashes (strip reference)
  raw = "" ∨ raw.toList.head? = some '/' ∨ raw.toList.head? = some '~'
    ∨ hasDrive (strip reference) ∨ "://".toList <:+: raw.toList

/-- **The rule of the dependency resolver.** It accepts what is not marked and leads into the system
without the blanks around it. -/
theorem resolveReference_eq_ok_iff (reference path : String) :
    resolveReference cue.path reference cue.system = .ok path ↔
      ¬ Marked reference ∧ cue.leads (strip reference) = some path := by
  have hplain : ∀ part ∈ cue.directory, PlainName part := fun _ h => cue.plain_directory h
  have hdirectory : cue.directory ≠ [] := List.cons_ne_nil _ _
  obtain ⟨c, cs, hbegin, hc⟩ := joined_begins hdirectory hplain
  by_cases hmarked : Marked reference
  · refine iff_of_false ?_ fun h => h.1 hmarked
    unfold Marked at hmarked
    rw [resolveReference]
    dsimp only at hmarked ⊢
    rw [if_pos hmarked]
    exact fun h => by cases h
  · have hroot : (forwardSlashes (strip reference)).toList.head? ≠ some '/' :=
      fun h => hmarked (Or.inr (Or.inl h))
    have hjoined : (posixJoin ("/".intercalate cue.directory)
        (forwardSlashes (strip reference))).toList.head? ≠ some '/' := by
      rw [posixJoin, if_neg hroot]
      split
      · rw [String.toList_append, hbegin]
        exact fun h => hc (Option.some.inj h)
      · rw [String.toList_append, String.toList_append, hbegin]
        exact fun h => hc (Option.some.inj h)
    have hguard := hmarked
    unfold Marked at hguard
    rw [resolveReference, cue.dirname_path]
    dsimp only at hguard ⊢
    rw [if_neg hguard, ← cue.cueTarget_eq, cueTarget, purePathParts, rootSlashes_normpath hjoined,
      if_pos rfl, List.nil_append]
    have hparts : (slashParts (normpath (posixJoin ("/".intercalate cue.directory)
        (forwardSlashes (strip reference))))).filter (fun part => part ≠ "" && part ≠ ".")
          = posixParts (normpath (posixJoin ("/".intercalate cue.directory)
              (forwardSlashes (strip reference)))) := rfl
    simp only [hparts, hmarked, not_false_eq_true, true_and]
    split
    · exact iff_of_false (fun h => by cases h) (fun h => by cases h)
    · next hinside =>
      push Not at hinside
      obtain ⟨below, hbelow⟩ := List.head?_eq_some_iff.mp hinside.2.1
      rw [hbelow, joinParts_cons below (hplain _ List.mem_cons_self).2.2.2.1]
      exact ⟨fun h => congrArg some (Except.ok.inj h), fun h => congrArg Except.ok (Option.some.inj h)⟩

end CuePath

/-! ### The two readers of the text -/

/-- The dependency resolver raises the first warning. -/
theorem parseCueReferences_eq (T : TextTables) (number : ℕ) (lines : List String) :
    parseCueReferences T number lines =
      match (parseCue T number lines).warnings with
      | [] => .ok (parseCue T number lines).references
      | warning :: _ => .error (warning.lineNumber, warning.reason) := by
  induction lines generalizing number with
  | nil => rfl
  | cons line rest ih =>
    rw [parseCueReferences, parseCue]
    cases cueLine T line with
    | other => exact ih (number + 1)
    | warning reason => rfl
    | reference name =>
      dsimp only
      rw [ih]
      cases (parseCue T (number + 1) rest).warnings with
      | nil => rfl
      | cons warning others => rfl

/-- A cue sheet is read for the cache if it has references and no warnings. -/
theorem resolveCue_eq_ok_iff {T : TextTables} {path text : String}
    {references : List DependencyReference} : resolveCue T path text = .ok references ↔
      (parseCue T 1 (splitLines text)).warnings = [] ∧
      (parseCue T 1 (splitLines text)).references ≠ [] ∧
      references = (parseCue T 1 (splitLines text)).references.map (⟨·, true⟩) := by
  rw [resolveCue, parseCueReferences_eq]
  cases (parseCue T 1 (splitLines text)).warnings with
  | cons warning others => exact iff_of_false nofun nofun
  | nil =>
    dsimp only
    by_cases hnil : (parseCue T 1 (splitLines text)).references = []
    · rw [if_pos hnil]
      exact iff_of_false nofun fun h => h.2.1 hnil
    · rw [if_neg hnil]
      constructor
      · intro h
        exact ⟨rfl, hnil, (Except.ok.inj h).symm⟩
      · rintro ⟨-, -, rfl⟩
        rfl

end RomCloud.Cache
