import Mathlib.Data.Rat.Defs
import Mathlib.Data.String.Basic
import RomCloud.Lib.Check

namespace RomCloud.Lib

/-!
# JSON values and the exceptions of their readers

A text is a list of code points here, since `json.loads` and file names make texts with lone
surrogates, which no encoding takes.

* `PyText` — a text, what `strip` leaves of it, and how it is encoded;
* `PyError` — the exceptions, as far as handlers tell them apart;
* `handled` — a `try` statement with a handler for some exceptions;
* `PyJson` — what `json.loads` returns, and the operations on it that may fail.
-/

/-- The code points of a text. -/
abbrev PyText := List ℕ

namespace PyText

def ofString (text : String) : PyText := text.toList.map Char.toNat

def isSurrogate (c : ℕ) : Bool := 0xD800 ≤ c && c ≤ 0xDFFF

/-- `text.encode("utf-8")` succeeds. -/
def encodable (text : PyText) : Bool := !text.any isSurrogate

end PyText

inductive PyError
  | osError
  | keyError
  | typeError
  /-- Invalid UTF-8 and invalid JSON are value errors too. -/
  | valueError
  | attributeError
  | overflowError
  | recursionError
  | other
deriving DecidableEq

namespace PyText

def isSpace (c : ℕ) : Bool :=
  (9 ≤ c && c ≤ 13) || (28 ≤ c && c ≤ 32) || c == 0x85 || c == 0xA0 || c == 0x1680
    || (0x2000 ≤ c && c ≤ 0x200A) || c == 0x2028 || c == 0x2029 || c == 0x202F || c == 0x205F
    || c == 0x3000

/-- `text.strip()`. -/
def strip (text : PyText) : PyText :=
  ((text.dropWhile isSpace).reverse.dropWhile isSpace).reverse

/-- `not text.strip()`. -/
def blank (text : PyText) : Bool := text.all isSpace

/-- Texts are ordered by their code points. -/
def notAfter : PyText → PyText → Bool
  | [], _ => true
  | _ :: _, [] => false
  | c :: cs, d :: ds => c < d || (c == d && notAfter cs ds)

/-- The bytes of a code point. -/
def utf8Bytes (c : ℕ) : List ℕ :=
  if c < 0x80 then [c]
  else if c < 0x800 then [0xC0 + c / 64, 0x80 + c % 64]
  else if c < 0x10000 then [0xE0 + c / 4096, 0x80 + c / 64 % 64, 0x80 + c % 64]
  else [0xF0 + c / 262144, 0x80 + c / 4096 % 64, 0x80 + c / 64 % 64, 0x80 + c % 64]

/-- `text.encode("utf-8")`: a surrogate is a `UnicodeEncodeError`. -/
def encodeUtf8 (text : PyText) : Except PyError (List ℕ) :=
  if text.encodable then .ok (text.flatMap utf8Bytes) else .error .valueError

/-- `text.encode("ascii")`. -/
def encodeAscii (text : PyText) : Except PyError (List ℕ) :=
  if text.all (· < 128) then .ok text else .error .valueError

/-- `os.fsencode`: the surrogates that stand for single bytes are taken, and no name has a
    null character. -/
def isFileName (text : PyText) : Bool :=
  !text.any fun c => c == 0 || (isSurrogate c && !(0xDC80 ≤ c && c ≤ 0xDCFF))

end PyText

section Handled

variable {α : Type}

/-- A `try` statement: the exceptions in the handler give its result, others are raised. -/
def handled (caught : PyError → Bool) (result : α) : Except PyError α → Except PyError α
  | .ok a => .ok a
  | .error e => if caught e then .ok result else .error e

/-- A statement with a handler raises what the statement raises and the handler does not take. -/
theorem handled_eq_error_iff {caught : PyError → Bool} {result : α} {x : Except PyError α}
    {e : PyError} : handled caught result x = .error e ↔ x = .error e ∧ caught e = false := by
  cases x with
  | ok a => simp [handled]
  | error d =>
    rw [handled]
    by_cases hcaught : caught d = true
    · rw [if_pos hcaught]
      refine iff_of_false nofun ?_
      rintro ⟨h, hnot⟩
      rw [← Except.error.inj h, hcaught] at hnot
      cases hnot
    · rw [if_neg hcaught]
      constructor
      · intro h
        rw [← Except.error.inj h]
        exact ⟨rfl, Bool.eq_false_iff.mpr hcaught⟩
      · exact fun h => h.1

/-- A handler for all exceptions lets none through. -/
theorem handled_all (result : α) (x : Except PyError α) :
    handled (fun _ => true) result x = .ok result ∨ ∃ a, x = .ok a ∧
      handled (fun _ => true) result x = .ok a := by
  cases x with
  | ok a => exact Or.inr ⟨a, rfl, rfl⟩
  | error e => exact Or.inl rfl

end Handled

/-- A floating-point number. -/
inductive PyFloat
  | finite (value : ℚ)
  | infinity (negative : Bool)
  | nan
deriving DecidableEq

/-- What `json.loads` returns. A dictionary has each key once. -/
inductive PyJson
  | null
  | bool (value : Bool)
  | int (value : ℤ)
  | float (value : PyFloat)
  | str (value : PyText)
  | list (items : List PyJson)
  | dict (fields : List (PyText × PyJson))

namespace PyJson

/-- The value of a key. -/
def find? (fields : List (PyText × PyJson)) (key : String) : Option PyJson :=
  (fields.find? (fun field => field.1 = PyText.ofString key)).map (·.2)

/-- `payload[key]`. -/
def item (fields : List (PyText × PyJson)) (key : String) : Except PyError PyJson :=
  match find? fields key with
  | some value => .ok value
  | none => .error .keyError

/-- `payload.get(key, default)`. -/
def getOr (fields : List (PyText × PyJson)) (key : String) (default : PyJson) : PyJson :=
  (find? fields key).getD default

/-- `str(value)`: what is no text is written without surrogates. -/
def toText (repr : PyJson → String) : PyJson → PyText
  | .str value => value
  | value => PyText.ofString (repr value)

/-- From here on integers have no floating-point number beside them. -/
def floatBound : ℕ := 2 ^ 1024 - 2 ^ 970

/-- `float(value)`. The rounding of large integers is left out. -/
def toFloat (parse : PyText → Option PyFloat) : PyJson → Except PyError PyFloat
  | .float value => .ok value
  | .int value => if floatBound ≤ value.natAbs then .error .overflowError else .ok (.finite value)
  | .bool value => .ok (.finite (if value then 1 else 0))
  | .str value =>
    match parse value with
    | some number => .ok number
    | none => .error .valueError
  | _ => .error .typeError

/-- `for item in value`. -/
def iterate : PyJson → Except PyError (List PyJson)
  | .list items => .ok items
  | .str value => .ok (value.map fun c => .str [c])
  | .dict fields => .ok (fields.map fun field => .str field.1)
  | _ => .error .typeError

mutual

/-- How deep lists and dictionaries are nested in a value. -/
def depth : PyJson → ℕ
  | .null => 0
  | .bool _ => 0
  | .int _ => 0
  | .float _ => 0
  | .str _ => 0
  | .list items => depthItems items + 1
  | .dict fields => depthFields fields + 1

def depthItems : List PyJson → ℕ
  | [] => 0
  | value :: rest => max (depth value) (depthItems rest)

def depthFields : List (PyText × PyJson) → ℕ
  | [] => 0
  | (_, value) :: rest => max (depth value) (depthFields rest)

end

/-- `value == 1`, which `True` and `1.0` are too. -/
def isOne : PyJson → Bool
  | .bool b => b
  | .int n => n == 1
  | .float (.finite q) => q == 1
  | _ => false

/-- `bool(value)`. -/
def truthy : PyJson → Bool
  | .null => false
  | .bool b => b
  | .int n => n != 0
  | .float (.finite q) => q != 0
  | .float _ => true
  | .str t => !t.isEmpty
  | .list items => !items.isEmpty
  | .dict fields => !fields.isEmpty

/-- Lists and dictionaries have no hash. -/
def unhashable : PyJson → Bool
  | .list _ => true
  | .dict _ => true
  | _ => false

theorem item_eq_ok_iff {fields : List (PyText × PyJson)} {key : String} {value : PyJson} :
    item fields key = .ok value ↔ find? fields key = some value := by
  rw [item]
  cases find? fields key with
  | some found => exact ⟨fun h => congrArg some (Except.ok.inj h), fun h => by rw [Option.some.inj h]⟩
  | none => exact iff_of_false nofun nofun

theorem item_error {fields : List (PyText × PyJson)} {key : String} {e : PyError}
    (h : item fields key = .error e) : e = .keyError := by
  rw [item] at h
  cases hfind : find? fields key with
  | some found => rw [hfind] at h; cases h
  | none => rw [hfind] at h; exact (Except.error.inj h).symm

theorem iterate_error {value : PyJson} {e : PyError} (h : iterate value = .error e) :
    e = .typeError := by
  cases value with
  | list items => cases h
  | str text => cases h
  | dict fields => cases h
  | null => exact (Except.error.inj h).symm
  | bool b => exact (Except.error.inj h).symm
  | int n => exact (Except.error.inj h).symm
  | float x => exact (Except.error.inj h).symm

/-- A value is no number, or an integer that is too large. -/
theorem toFloat_error {parse : PyText → Option PyFloat} {value : PyJson} {e : PyError}
    (h : toFloat parse value = .error e) : e = .typeError ∨ e = .valueError ∨
      (e = .overflowError ∧ ∃ n : ℤ, value = .int n ∧ floatBound ≤ n.natAbs) := by
  cases value with
  | int n =>
    by_cases hbound : floatBound ≤ n.natAbs
    · rw [toFloat, if_pos hbound] at h
      exact Or.inr (Or.inr ⟨(Except.error.inj h).symm, n, rfl, hbound⟩)
    · rw [toFloat, if_neg hbound] at h
      cases h
  | str text =>
    rw [toFloat] at h
    cases hparse : parse text with
    | some number => rw [hparse] at h; cases h
    | none => rw [hparse] at h; exact Or.inr (Or.inl (Except.error.inj h).symm)
  | bool b => cases h
  | float x => cases h
  | null => exact Or.inl (Except.error.inj h).symm
  | list items => exact Or.inl (Except.error.inj h).symm
  | dict fields => exact Or.inl (Except.error.inj h).symm

end PyJson

end RomCloud.Lib
