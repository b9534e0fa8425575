import Mathlib.Data.List.Sort
import Mathlib.Data.String.Basic
import RomCloud.Lib.Check

namespace RomCloud.Lib

/-!
# JSON values, and reading them back

The values `json.loads` makes, as far as a program that reads documents tells them apart.

* `Json` — the values; of a number with a fraction only whether it is zero;
* `Json.get`, `Json.getOr` — the fields of an object;
* `Json.readEach` — the items of an array, each under a label of its own;
* `Reads` — what a writer and a reader are to each other: what is written reads back in normal
  form, and what is read is good and in normal form.

`sortOn` puts a list in the order of a key, which is how normal forms come about.
-/

universe u v

/-! ### Sorting by a key -/

section SortOn

variable {α : Type u} {κ : Type v} [LinearOrder κ] (key : α → κ)

/-- `sorted(items, key=...)`. -/
def sortOn (items : List α) : List α := items.insertionSort (fun a b => key a ≤ key b)

theorem sortOn_perm (items : List α) : (sortOn key items).Perm items :=
  List.perm_insertionSort _ _

@[simp] theorem mem_sortOn (items : List α) (a : α) : a ∈ sortOn key items ↔ a ∈ items :=
  (sortOn_perm key items).mem_iff

theorem sortOn_pairwise (items : List α) :
    (sortOn key items).Pairwise (fun a b => key a ≤ key b) :=
  List.pairwise_insertionSort _ _

theorem sortOn_of_pairwise {items : List α} (h : items.Pairwise (fun a b => key a ≤ key b)) :
    sortOn key items = items :=
  h.insertionSort_eq

@[simp] theorem sortOn_sortOn (items : List α) : sortOn key (sortOn key items) = sortOn key items :=
  sortOn_of_pairwise key (sortOn_pairwise key items)

/-- Sorting, and changing the items without their keys. -/
theorem map_sortOn {f : α → α} (hkey : ∀ a, key (f a) = key a) (items : List α) :
    (sortOn key items).map f = sortOn key (items.map f) := by
  unfold sortOn
  refine List.map_insertionSort _ _ f items ?_
  intro a _ b _
  rw [hkey, hkey]

/-- Items that are left alone when sorted are in order. -/
theorem pairwise_of_sortOn_eq {items : List α} (h : sortOn key items = items) :
    items.Pairwise (fun a b => key a ≤ key b) :=
  h ▸ sortOn_pairwise key items

/-- Items with different ids have different ids in order. -/
theorem nodup_sortOn_map {ι : Type*} (id : α → ι) (f : α → α) (hid : ∀ a, id (f a) = id a)
    {items : List α} (h : (items.map id).Nodup) :
    ((sortOn key (items.map f)).map id).Nodup := by
  rw [((sortOn_perm key _).map id).nodup_iff, List.map_map]
  have hsame : id ∘ f = id := funext hid
  rw [hsame]
  exact h

end SortOn

/-! ### JSON -/

inductive Json
  | null
  | bool (value : Bool)
  | int (value : ℤ)
  | float (isZero : Bool)
  | str (value : String)
  | arr (items : List Json)
  | obj (fields : List (String × Json))

namespace Json

/-- The value of a key, if the object has it. -/
def lookup (key : String) : List (String × Json) → Option Json
  | [] => none
  | (name, value) :: rest => if name = key then some value else lookup key rest

/-- `data.get(key, default)`. -/
def getOr (fields : List (String × Json)) (key : String) (default : Json) : Json :=
  (lookup key fields).getD default

/-- `data.get(key)`. -/
def get (fields : List (String × Json)) (key : String) : Json := getOr fields key .null

/-- `bool(value)`. -/
def truthy : Json → Bool
  | .null => false
  | .bool value => value
  | .int value => value ≠ 0
  | .float isZero => !isZero
  | .str value => value ≠ ""
  | .arr items => !items.isEmpty
  | .obj fields => !fields.isEmpty

@[simp] theorem truthy_bool (value : Bool) : truthy (.bool value) = value := rfl

variable {ε α : Type}

/-- The items of an array, read one after the other under `label[index]`. -/
def readEach (read : Json → String → Except ε α) (label : String) (index : ℕ) :
    List Json → Except ε (List α)
  | [] => .ok []
  | item :: rest => do
    let value ← read item (label ++ "[" ++ toString index ++ "]")
    let values ← readEach read label (index + 1) rest
    .ok (value :: values)

/-- An array is read only if each of its items is. -/
theorem exists_of_readEach {read : Json → String → Except ε α} {label : String}
    {values : List Json} {items : List α} {index : ℕ}
    (h : readEach read label index values = .ok items) {value : Json} (hvalue : value ∈ values) :
    ∃ itemLabel item, read value itemLabel = .ok item := by
  induction values generalizing index items with
  | nil => exact absurd hvalue (by simp)
  | cons first rest ih =>
    unfold readEach at h
    obtain ⟨a, hfirst, h⟩ := bind_eq_ok h
    obtain ⟨others, hrest, -⟩ := bind_eq_ok h
    rcases List.mem_cons.mp hvalue with rfl | hin
    · exact ⟨_, a, hfirst⟩
    · exact ih hrest hin

end Json

/-! ### Writers and readers -/

section Reads

variable {ε α : Type}

/-- A writer and a reader: good values are read back in normal form, and what is read is good and
    in normal form. -/
structure Reads (write : α → Json) (read : Json → String → Except ε α) (normal : α → α)
    (Good : α → Prop) : Prop where
  back : ∀ a, Good a → ∀ label, read (write a) label = .ok (normal a)
  sound : ∀ value label a, read value label = .ok a → Good a ∧ normal a = a

variable {write : α → Json} {read : Json → String → Except ε α} {normal : α → α} {Good : α → Prop}

/-- Items that were written are read back. -/
theorem Reads.each (h : Reads write read normal Good) (label : String) {items : List α}
    (hgood : ∀ a ∈ items, Good a) (index : ℕ) :
    Json.readEach read label index (items.map write) = .ok (items.map normal) := by
  induction items generalizing index with
  | nil => rfl
  | cons a rest ih =>
    rw [List.map_cons, Json.readEach, h.back a (hgood a List.mem_cons_self),
      ih (fun b hb => hgood b (List.mem_cons_of_mem _ hb))]
    rfl

/-- Items that are read are good, and in normal form. -/
theorem Reads.sound_each (h : Reads write read normal Good) {label : String} {values : List Json}
    {items : List α} {index : ℕ} (hread : Json.readEach read label index values = .ok items) :
    (∀ a ∈ items, Good a) ∧ items.map normal = items := by
  induction values generalizing index items with
  | nil =>
    rw [← Except.ok.inj hread]
    simp
  | cons value rest ih =>
    unfold Json.readEach at hread
    obtain ⟨a, hfirst, hread⟩ := bind_eq_ok hread
    obtain ⟨others, hrest, hread⟩ := bind_eq_ok hread
    rw [← Except.ok.inj hread]
    obtain ⟨hgood, hnormal⟩ := h.sound _ _ _ hfirst
    obtain ⟨hothers, hsame⟩ := ih hrest
    exact ⟨List.forall_mem_cons.mpr ⟨hgood, hothers⟩, by rw [List.map_cons, hnormal, hsame]⟩

end Reads

end RomCloud.Lib
