import Mathlib.Data.List.TakeWhile
import Mathlib.Data.List.Infix
import Mathlib.Tactic.Common

namespace RomCloud.Lib

/-!
# File names

What Python does to the name of a file, as a list of characters.

* `CaseFolding` — `str.casefold` and the decimal digits of `\d`, with what the Unicode tables say of
  the ASCII characters; the tables themselves are a parameter;
* `find`, `find_append` — `str.find`, and where a marker is found in a name with an ending;
* `stem`, `stem_append` — `PurePosixPath.stem`;
* `fnmatch` — the shell patterns of the module of that name.
-/

/-! ### Case folding -/

/-- `str.casefold`, which maps each character by itself, and the characters of `\d`. -/
structure CaseFolding where
  fold : Char → List Char
  isDecimal : Char → Bool
  nonempty : ∀ c, fold c ≠ []
  ascii : ∀ c, c.toNat < 128 → fold c = [c.toLower]
  foreign : ∀ c, 128 ≤ c.toNat → ∀ d ∈ fold c, d.toNat < 128 → 'a' ≤ d ∧ d ≤ 'z'
  isDecimal_ascii : ∀ c, c.toNat < 128 → isDecimal c = c.isDigit

namespace CaseFolding

variable (C : CaseFolding)

def casefold (text : List Char) : List Char := text.flatMap C.fold

@[simp] theorem casefold_nil : C.casefold [] = [] := rfl

@[simp] theorem casefold_append (text more : List Char) :
    C.casefold (text ++ more) = C.casefold text ++ C.casefold more := List.flatMap_append

@[simp] theorem casefold_cons (c : Char) (text : List Char) :
    C.casefold (c :: text) = C.fold c ++ C.casefold text := rfl

/-- Folding drops no character. -/
theorem length_le_casefold (text : List Char) : text.length ≤ (C.casefold text).length := by
  induction text with
  | nil => exact Nat.zero_le _
  | cons c text ih =>
    have hpos : 0 < (C.fold c).length := List.length_pos_iff.mpr (C.nonempty c)
    rw [casefold_cons, List.length_append, List.length_cons]
    omega

theorem casefold_ne_nil {text : List Char} (h : text ≠ []) : C.casefold text ≠ [] := by
  have hlength := C.length_le_casefold text
  have hpos : 0 < text.length := List.length_pos_iff.mpr h
  apply List.length_pos_iff.mp
  omega

/-- ASCII text is folded to lower case. -/
theorem casefold_ascii {text : List Char} (h : ∀ c ∈ text, c.toNat < 128) :
    C.casefold text = text.map Char.toLower := by
  induction text with
  | nil => rfl
  | cons c text ih =>
    rw [casefold_cons, C.ascii c (h c List.mem_cons_self),
      ih fun d hd => h d (List.mem_cons_of_mem _ hd)]
    rfl

/-- The folding of ASCII and of `ß`, to run a model with. -/
def german : CaseFolding where
  fold c := if c = 'ß' then ['s', 's'] else if c.toNat < 128 then [c.toLower] else [c]
  isDecimal := Char.isDigit
  nonempty c := by
    split
    · exact List.cons_ne_nil _ _
    · split <;> exact List.cons_ne_nil _ _
  ascii c hc := by
    have hne : c ≠ 'ß' := by
      rintro rfl
      exact absurd hc (by decide)
    rw [if_neg hne, if_pos hc]
  foreign c hc d hd hascii := by
    split at hd
    · have hd : d = 's' := by simpa using hd
      rw [hd]
      decide
    · rw [if_neg (by omega)] at hd
      rw [List.mem_singleton.mp hd] at hascii
      omega
  isDecimal_ascii _ _ := rfl

end CaseFolding

/-! ### Searching -/

/-- `text.find(part)`. -/
def find (part : List Char) : List Char → Option ℕ
  | [] => if part = [] then some 0 else none
  | c :: rest => if part.isPrefixOf (c :: rest) then some 0 else (find part rest).map (· + 1)

/-- Nothing that starts with a dot is found without one. -/
theorem find_eq_none_of_notMem {word text : List Char} (h : '.' ∉ text) :
    find ('.' :: word) text = none := by
  induction text with
  | nil => rfl
  | cons c text ih =>
    have hc : '.' ≠ c := fun heq => h (heq ▸ List.mem_cons_self)
    rw [find, ih fun hmem => h (List.mem_cons_of_mem _ hmem)]
    simp [List.isPrefixOf, hc]

/-- A marker with one dot, at its front, lies in a name or in its ending and not across. -/
theorem find_append {word rest : List Char} (hword : '.' ∉ word) (name : List Char) :
    find ('.' :: word) (name ++ '.' :: rest)
      = (find ('.' :: word) name).or
          ((find ('.' :: word) ('.' :: rest)).map (· + name.length)) := by
  induction name with
  | nil => simp [find]
  | cons c name ih =>
    have hbegins : ('.' :: word).isPrefixOf (c :: (name ++ '.' :: rest))
        = ('.' :: word).isPrefixOf (c :: name) := by
      rw [Bool.eq_iff_iff, List.isPrefixOf_iff_prefix, List.isPrefixOf_iff_prefix,
        List.cons_prefix_cons, List.cons_prefix_cons]
      refine and_congr_right fun _ => ⟨fun h => ?_, fun h => h.trans (List.prefix_append _ _)⟩
      rcases List.prefix_or_prefix_of_prefix h (List.prefix_append name _) with hin | ⟨back, rfl⟩
      · exact hin
      -- a word that reached into the ending would hold its dot
      · rw [List.prefix_append_right_inj] at h
        cases back with
        | nil => rw [List.append_nil]
        | cons d back =>
          obtain ⟨rfl, -⟩ := List.cons_prefix_cons.mp h
          exact absurd (List.mem_append_right _ List.mem_cons_self) hword
    rw [List.cons_append, find, hbegins, find, ih]
    split
    · rfl
    · cases find ('.' :: word) name with
      | some k => rfl
      | none =>
        rw [Option.none_or, Option.map_map, Option.map_none, Option.none_or, List.length_cons]
        rfl

/-- A marker is found no later than where it stands. -/
theorem find_self_append (part rest : List Char) : find part (part ++ rest) = some 0 := by
  have hbegins : part.isPrefixOf (part ++ rest) = true :=
    List.isPrefixOf_iff_prefix.mpr (List.prefix_append _ _)
  cases h : part ++ rest with
  | nil =>
    obtain ⟨rfl, -⟩ := List.append_eq_nil_iff.mp h
    rfl
  | cons c text => rw [find, ← h, if_pos hbegins]

theorem find_eq_zero_iff {part text : List Char} : find part text = some 0 ↔ part <+: text := by
  constructor
  · intro h
    cases text with
    | nil =>
      by_cases hpart : part = []
      · rw [hpart]
      · rw [find, if_neg hpart] at h
        cases h
    | cons c text =>
      by_cases hpart : part.isPrefixOf (c :: text) = true
      · exact List.isPrefixOf_iff_prefix.mp hpart
      · rw [find, if_neg hpart] at h
        obtain ⟨n, -, hn⟩ := Option.map_eq_some_iff.mp h
        exact absurd hn (Nat.succ_ne_zero n)
  · rintro ⟨rest, rfl⟩
    exact find_self_append part rest

/-! ### The stem of a name -/

/-- `PurePosixPath.stem` of a path with one component. -/
def stem (name : List Char) : List Char :=
  match (name.reverse.takeWhile (· ≠ '.'), name.reverse.dropWhile (· ≠ '.')) with
  | (_ :: _, _ :: c :: front) => (c :: front).reverse
  | _ => name

theorem stem_append {name ending : List Char} (hname : name ≠ []) (hending : ending ≠ [])
    (hplain : '.' ∉ ending) : stem (name ++ '.' :: ending) = name := by
  have hall : ∀ c ∈ ending.reverse, decide (c ≠ '.') = true := by
    intro c hc
    apply decide_eq_true
    rintro rfl
    exact hplain (List.mem_reverse.mp hc)
  have hreverse : (name ++ '.' :: ending).reverse = ending.reverse ++ '.' :: name.reverse := by
    simp
  have htake : (name ++ '.' :: ending).reverse.takeWhile (· ≠ '.') = ending.reverse := by
    rw [hreverse, List.takeWhile_append_of_pos hall]
    simp
  have hdrop : (name ++ '.' :: ending).reverse.dropWhile (· ≠ '.') = '.' :: name.reverse := by
    rw [hreverse, List.dropWhile_append_of_pos hall]
    simp
  rw [stem, htake, hdrop]
  obtain ⟨e, es, he⟩ := List.exists_cons_of_ne_nil (List.reverse_ne_nil_iff.mpr hending)
  obtain ⟨c, front, hfront⟩ := List.exists_cons_of_ne_nil (List.reverse_ne_nil_iff.mpr hname)
  rw [he, hfront]
  show (c :: front).reverse = name
  rw [← hfront, List.reverse_reverse]

example : stem ".srm".toList = ".srm".toList := by decide
example : stem "a.b.srm".toList = "a.b".toList := by decide

/-! ### Shell patterns -/

/-- The parts of a shell pattern. -/
inductive Glob
  | star
  | one
  | among (negated : Bool) (ranges : List (Char × Char))
  | char (c : Char)
deriving DecidableEq

/-- What stands in the brackets of a pattern: characters and ranges. -/
def globRanges : List Char → List (Char × Char)
  | a :: '-' :: b :: rest => (a, b) :: globRanges rest
  | a :: rest => (a, a) :: globRanges rest
  | [] => []

/-- A pattern up to its bracket: `!` negates, and a bracket that closes at once is a character. -/
def globSet (inside : List Char) : Glob :=
  match inside with
  | '!' :: rest => .among true (globRanges rest)
  | rest => .among false (globRanges rest)

/-- What stands between brackets, if they are closed, and the rest of the pattern. -/
def bracket (pattern : List Char) : Option (List Char × List Char) :=
  let skip := match pattern with
    | '!' :: ']' :: _ => 2
    | '!' :: _ => 1
    | ']' :: _ => 1
    | _ => 0
  let inside := pattern.take skip ++ (pattern.drop skip).takeWhile (· ≠ ']')
  match pattern.drop inside.length with
  | [] => none
  | _ :: rest => some (inside, rest)

/-- The parts of a pattern; every part takes at least one character. -/
def globs : ℕ → List Char → List Glob
  | 0, _ => []
  | _, [] => []
  | fuel + 1, '*' :: rest => .star :: globs fuel rest
  | fuel + 1, '?' :: rest => .one :: globs fuel rest
  | fuel + 1, '[' :: rest =>
    match bracket rest with
    | none => .char '[' :: globs fuel rest
    | some (inside, rest) => globSet inside :: globs fuel rest
  | fuel + 1, c :: rest => .char c :: globs fuel rest

def Glob.holds : Glob → Char → Bool
  | .star, _ => true
  | .one, _ => true
  | .among negated ranges, c => ranges.any (fun range => range.1 ≤ c && c ≤ range.2) != negated
  | .char d, c => c = d

def globMatch : List Glob → List Char → Bool
  | [], name => name.isEmpty
  | .star :: rest, name => name.tails.any (globMatch rest)
  | _ :: _, [] => false
  | part :: rest, c :: name => part.holds c && globMatch rest name

/-- `fnmatch.fnmatch`, where file names are case sensitive. -/
def fnmatch (name pattern : List Char) : Bool := globMatch (globs pattern.length pattern) name

example : fnmatch "GALE01.s03.dtm".toList "*.s[0-9][0-9].dtm".toList = true := by decide
example : fnmatch "game.s0x".toList "*.s[0-9][0-9]".toList = false := by decide

end RomCloud.Lib
