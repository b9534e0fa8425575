import RomCloud.Lib.Dict

namespace RomCloud.Lib

/-!
# Tables

A **table** is a dictionary of rows filed under a key that the row itself carries, so that no row
stands under a foreign key.

* `get?`, `put`, `keep`, `override`, `collect` — lookup, one new row, the rows that satisfy a
  predicate, the rows of a second table over those of a first, and a table by its keys;
* `mapRows`, `putAll` — every row changed in its place, several new rows.
-/

universe u v

variable {κ : Type u} {α : Type v} [LinearOrder κ] {key : α → κ}

/-- Rows filed under the key they carry. -/
structure Table (α : Type v) {κ : Type u} [LinearOrder κ] (key : α → κ) where
  rows : Dict κ α
  keyed : ∀ k a, rows.get? k = some a → key a = k

namespace Table

/-- The row of a key. -/
def get? (t : Table α key) (k : κ) : Option α := t.rows.get? k

/-- The keys of a table, sorted. -/
def keys (t : Table α key) : List κ := t.rows.keys

/-- The rows of a table, in the order of their keys. -/
def toList (t : Table α key) : List α := t.rows.values

instance : EmptyCollection (Table α key) := ⟨⟨∅, fun k a h => absurd h (by simp)⟩⟩

instance : Inhabited (Table α key) := ⟨∅⟩

instance [DecidableEq α] : DecidableEq (Table α key) := fun s t =>
  if h : s.rows = t.rows then
    isTrue (by cases s; cases t; cases h; rfl)
  else isFalse fun heq => h (heq ▸ rfl)

@[simp] theorem get?_empty (k : κ) : (∅ : Table α key).get? k = none := rfl

theorem key_of_get? {t : Table α key} {k : κ} {a : α} (h : t.get? k = some a) : key a = k :=
  t.keyed k a h

theorem mem_toList_iff (t : Table α key) (a : α) : a ∈ t.toList ↔ t.get? (key a) = some a := by
  constructor
  · intro h
    obtain ⟨⟨k, b⟩, hmem, rfl⟩ := List.mem_map.mp h
    have hget : t.get? k = some b := (t.rows.get?_eq_some_iff k b).mpr hmem
    rwa [← key_of_get? hget] at hget
  · intro h
    exact List.mem_map.mpr ⟨(key a, a), (t.rows.get?_eq_some_iff _ a).mp h, rfl⟩

theorem mem_keys_iff (t : Table α key) (k : κ) : k ∈ t.keys ↔ ∃ a, t.get? k = some a :=
  t.rows.mem_keys_iff k

/-- The table of the rows that `f` has for the keys of `ks`. -/
def collect (ks : List κ) (f : κ → Option α) (hf : ∀ k a, f k = some a → key a = k) :
    Table α key where
  rows := Dict.ofKeys ks f
  keyed := by
    intro k a h
    rw [Dict.get?_ofKeys] at h
    split at h
    · exact hf k a h
    · exact absurd h (by simp)

@[simp] theorem get?_collect (ks : List κ) (f : κ → Option α)
    (hf : ∀ k a, f k = some a → key a = k) (k : κ) :
    (collect ks f hf).get? k = if k ∈ ks then f k else none :=
  Dict.get?_ofKeys ..

/-- File a row, in the place of one of its key. -/
def put (t : Table α key) (a : α) : Table α key where
  rows := t.rows.insert (key a) a
  keyed := by
    intro k b h
    rw [Dict.get?_insert] at h
    split at h
    · next hk =>
      cases h
      exact hk.symm
    · exact t.keyed k b h

@[simp] theorem get?_put (t : Table α key) (a : α) (k : κ) :
    (t.put a).get? k = if k = key a then some a else t.get? k :=
  Dict.get?_insert ..

/-- The rows whose key satisfies `p`. -/
def keep (t : Table α key) (p : κ → Bool) : Table α key where
  rows := t.rows.restrict p
  keyed := by
    intro k a h
    rw [Dict.get?_restrict] at h
    split at h
    · exact t.keyed k a h
    · exact absurd h (by simp)

@[simp] theorem get?_keep (t : Table α key) (p : κ → Bool) (k : κ) :
    (t.keep p).get? k = if p k then t.get? k else none :=
  Dict.get?_restrict ..

/-- The rows of `s` over those of `t`. -/
def override (t s : Table α key) : Table α key where
  rows := t.rows.update s.rows
  keyed := by
    intro k a h
    rw [Dict.get?_update, Option.or_eq_some_iff] at h
    rcases h with h | ⟨-, h⟩
    · exact s.keyed k a h
    · exact t.keyed k a h

@[simp] theorem get?_override (t s : Table α key) (k : κ) :
    (t.override s).get? k = (s.get? k).or (t.get? k) :=
  Dict.get?_update ..

/-- Every row changed by `f`, which keeps the key. -/
def mapRows (t : Table α key) (f : α → α) (hf : ∀ a, key (f a) = key a) : Table α key :=
  collect t.keys (fun k => (t.get? k).map f) (by
    intro k a h
    obtain ⟨b, hb, rfl⟩ := Option.map_eq_some_iff.mp h
    rw [hf, key_of_get? hb])

@[simp] theorem get?_mapRows (t : Table α key) (f : α → α) (hf : ∀ a, key (f a) = key a) (k : κ) :
    (t.mapRows f hf).get? k = (t.get? k).map f := by
  rw [mapRows, get?_collect]
  by_cases hk : k ∈ t.keys
  · rw [if_pos hk]
  · have hnone : t.get? k = none := (t.rows.get?_eq_none_iff k).mpr hk
    rw [if_neg hk, hnone]
    rfl

/-- File rows one after the other. -/
def putAll (t : Table α key) (rows : List α) : Table α key := rows.foldl put t

theorem putAll_append_singleton (t : Table α key) (rows : List α) (a : α) :
    t.putAll (rows ++ [a]) = (t.putAll rows).put a := by
  rw [putAll, List.foldl_append]
  rfl

/-- A row filed by `putAll` is the old one, when no new row has its key, or a new one. -/
theorem get?_putAll_cases (t : Table α key) (rows : List α) (k : κ) :
    ((∀ a ∈ rows, key a ≠ k) ∧ (t.putAll rows).get? k = t.get? k)
      ∨ ∃ a ∈ rows, key a = k ∧ (t.putAll rows).get? k = some a := by
  induction rows using List.reverseRecOn with
  | nil => exact Or.inl ⟨by simp, rfl⟩
  | append_singleton rows b ih =>
    rw [putAll_append_singleton, get?_put]
    by_cases hb : k = key b
    · exact Or.inr ⟨b, by simp, hb.symm, if_pos hb⟩
    · rw [if_neg hb]
      rcases ih with ⟨hnone, hget⟩ | ⟨a, ha, hk, hget⟩
      · refine Or.inl ⟨?_, hget⟩
        intro a ha
        rcases List.mem_append.mp ha with ha | ha
        · exact hnone a ha
        · rw [List.mem_singleton.mp ha]
          exact fun h => hb h.symm
      · exact Or.inr ⟨a, List.mem_append_left _ ha, hk, hget⟩

end Table

end RomCloud.Lib
