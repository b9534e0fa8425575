import Mathlib.Data.List.Sort
import Mathlib.Data.List.Dedup
import Mathlib.Data.List.Induction
import Mathlib.Order.Basic

namespace RomCloud.Lib

/-!
# Finite dictionaries as sorted association lists

`Dict κ α` is a finite map with keys in a linear order, kept as the list of its entries in
strictly increasing key order.  The order is a field of the structure, so two dictionaries with
the same lookups are equal (`Dict.ext_get?`) and equality is decidable by comparing the lists:
a test can run on a concrete dictionary, and a proof only ever speaks about `get?`.

* `Dict.get?` — lookup;
* `Dict.ofKeys` — the comprehension `{k: v for k in keys if f k is v}`;
* `Dict.assign` — set a key to a value, or remove it when there is none;
* `Dict.restrict`, `Dict.update` — filtering, and overriding one dictionary by another;
* `Dict.groupBy` — the `setdefault(key, []).append(x)` loop;
* `Dict.look_foldl_of_nodup` — a loop over elements with distinct keys, looked up;
* `Dict.updateEach` — a loop over the entries of another dictionary.
-/

universe u v w

variable {κ : Type u} {α : Type v} [LinearOrder κ]

/-! ### Sorted sets of keys -/

/-- `sorted(set(ks))`: the distinct members of `ks`, in increasing order. -/
def sortedSet (ks : List κ) : List κ := ks.dedup.insertionSort (· ≤ ·)

@[simp] theorem mem_sortedSet (ks : List κ) (k : κ) : k ∈ sortedSet ks ↔ k ∈ ks := by
  rw [sortedSet, List.mem_insertionSort, List.mem_dedup]

theorem sortedSet_nodup (ks : List κ) : (sortedSet ks).Nodup :=
  (List.perm_insertionSort (· ≤ ·) _).nodup_iff.mpr (List.nodup_dedup ks)

theorem sortedSet_pairwise (ks : List κ) : (sortedSet ks).Pairwise (· < ·) := by
  have hle : (sortedSet ks).Pairwise (· ≤ ·) := List.pairwise_insertionSort (· ≤ ·) _
  exact (hle.and (sortedSet_nodup ks)).imp (fun h => lt_of_le_of_ne h.1 h.2)

/-- Strictly increasing lists with the same members are equal. -/
theorem eq_of_pairwise_lt {ks js : List κ} (hk : ks.Pairwise (· < ·)) (hj : js.Pairwise (· < ·))
    (h : ∀ k, k ∈ ks ↔ k ∈ js) : ks = js := by
  have hperm : ks.Perm js := (List.perm_ext_iff_of_nodup (hk.imp ne_of_lt) (hj.imp ne_of_lt)).mpr h
  exact hperm.eq_of_pairwise (fun _ _ _ _ h1 h2 => absurd (lt_trans h1 h2) (lt_irrefl _)) hk hj

/-- A finite map: its entries, in strictly increasing order of their keys. -/
structure Dict (κ : Type u) (α : Type v) [LinearOrder κ] where
  entries : List (κ × α)
  sorted : (entries.map Prod.fst).Pairwise (· < ·)
deriving DecidableEq

namespace Dict

/-- The keys, in increasing order. -/
def keys (d : Dict κ α) : List κ := d.entries.map Prod.fst

/-- The values, in the order of their keys. -/
def values (d : Dict κ α) : List α := d.entries.map Prod.snd

/-- Lookup. -/
def get? (d : Dict κ α) (k : κ) : Option α :=
  (d.entries.find? (fun e => e.1 = k)).map Prod.snd

/-- The dictionary without entries. -/
def empty : Dict κ α := ⟨[], List.Pairwise.nil⟩

instance : EmptyCollection (Dict κ α) := ⟨empty⟩

instance : Inhabited (Dict κ α) := ⟨empty⟩

theorem keys_pairwise (d : Dict κ α) : d.keys.Pairwise (· < ·) := d.sorted

theorem keys_nodup (d : Dict κ α) : d.keys.Nodup :=
  d.keys_pairwise.imp (fun h => ne_of_lt h)

/-! ### Lookup and membership -/

/-- Lookup finds exactly the entries: the keys are distinct. -/
theorem get?_eq_some_iff (d : Dict κ α) (k : κ) (a : α) :
    d.get? k = some a ↔ (k, a) ∈ d.entries := by
  obtain ⟨l, hl⟩ := d
  show (l.find? (fun e => e.1 = k)).map Prod.snd = some a ↔ (k, a) ∈ l
  induction l with
  | nil => simp
  | cons e t ih =>
    rw [List.map_cons, List.pairwise_cons] at hl
    by_cases he : e.1 = k
    · subst he
      have hnot : ∀ b, (e.1, b) ∉ t := fun b hb =>
        absurd (hl.1 e.1 (List.mem_map.mpr ⟨_, hb, rfl⟩)) (lt_irrefl _)
      simp only [List.find?_cons, decide_true, Option.map_some, Option.some.injEq,
        List.mem_cons]
      constructor
      · rintro rfl
        exact Or.inl rfl
      · rintro (h | h)
        · rw [← h]
        · exact absurd h (hnot a)
    · have hne : (k, a) ≠ e := fun h => he (by rw [← h])
      simp only [List.find?_cons, he, decide_false, List.mem_cons, hne, false_or]
      exact ih hl.2

theorem mem_keys_iff (d : Dict κ α) (k : κ) : k ∈ d.keys ↔ ∃ a, d.get? k = some a := by
  simp only [keys, List.mem_map, Prod.exists, exists_and_right, exists_eq_right,
    get?_eq_some_iff]

theorem get?_eq_none_iff (d : Dict κ α) (k : κ) : d.get? k = none ↔ k ∉ d.keys := by
  rw [mem_keys_iff]
  cases h : d.get? k with
  | none => simp
  | some a => simp

/-- **Extensionality.** A dictionary is determined by its lookups, since its entries are in key
    order. -/
theorem ext_get? {d e : Dict κ α} (h : ∀ k, d.get? k = e.get? k) : d = e := by
  have hmem : ∀ x, x ∈ d.entries ↔ x ∈ e.entries := by
    rintro ⟨k, a⟩
    rw [← get?_eq_some_iff, ← get?_eq_some_iff, h]
  have hd : d.entries.Pairwise (fun x y => x.1 < y.1) := List.pairwise_map.mp d.sorted
  have he : e.entries.Pairwise (fun x y => x.1 < y.1) := List.pairwise_map.mp e.sorted
  have hdn : d.entries.Nodup := hd.imp (fun hlt heq => absurd (heq ▸ hlt) (lt_irrefl _))
  have hen : e.entries.Nodup := he.imp (fun hlt heq => absurd (heq ▸ hlt) (lt_irrefl _))
  have hperm : d.entries.Perm e.entries := (List.perm_ext_iff_of_nodup hdn hen).mpr hmem
  have hlist : d.entries = e.entries :=
    hperm.eq_of_pairwise (fun _ _ _ _ h1 h2 => absurd (lt_trans h1 h2) (lt_irrefl _)) hd he
  obtain ⟨l, hl⟩ := d
  obtain ⟨m, hm⟩ := e
  cases hlist
  rfl

@[simp] theorem get?_empty (k : κ) : (∅ : Dict κ α).get? k = none := rfl

@[simp] theorem keys_empty : (∅ : Dict κ α).keys = [] := rfl

/-! ### Comprehensions -/

/-- The dictionary of the keys of `ks` at which `f` has a value. -/
def ofKeys (ks : List κ) (f : κ → Option α) : Dict κ α where
  entries := (sortedSet ks).filterMap (fun k => (f k).map (fun a => (k, a)))
  sorted := by
    rw [List.pairwise_map, List.pairwise_filterMap]
    refine (sortedSet_pairwise ks).imp ?_
    intro a b hab x hx y hy
    rw [Option.map_eq_some_iff] at hx hy
    obtain ⟨_, _, rfl⟩ := hx
    obtain ⟨_, _, rfl⟩ := hy
    exact hab

@[simp] theorem get?_ofKeys (ks : List κ) (f : κ → Option α) (k : κ) :
    (ofKeys ks f).get? k = if k ∈ ks then f k else none := by
  have hiff : ∀ a, (ofKeys ks f).get? k = some a ↔ k ∈ ks ∧ f k = some a := by
    intro a
    rw [get?_eq_some_iff]
    simp only [ofKeys, List.mem_filterMap, mem_sortedSet, Option.map_eq_some_iff,
      Prod.mk.injEq]
    constructor
    · rintro ⟨j, hj, b, hb, rfl, rfl⟩
      exact ⟨hj, hb⟩
    · rintro ⟨hk, hf⟩
      exact ⟨k, hk, a, hf, rfl, rfl⟩
  apply Option.ext
  intro a
  rw [hiff a]
  by_cases hk : k ∈ ks <;> simp [hk]

/-! ### Updates -/

/-- Set `k` to the given value, or remove `k` when there is none. -/
def assign (d : Dict κ α) (k : κ) (o : Option α) : Dict κ α :=
  ofKeys (k :: d.keys) (fun j => if j = k then o else d.get? j)

@[simp] theorem get?_assign (d : Dict κ α) (k : κ) (o : Option α) (j : κ) :
    (d.assign k o).get? j = if j = k then o else d.get? j := by
  rw [assign, get?_ofKeys]
  by_cases hj : j = k
  · simp [hj]
  · simp only [List.mem_cons, hj, false_or, if_false]
    split
    · rfl
    · next h => exact ((d.get?_eq_none_iff j).mpr h).symm

/-- Set `k` to `a`. -/
def insert (d : Dict κ α) (k : κ) (a : α) : Dict κ α := d.assign k (some a)

/-- Remove `k`. -/
def erase (d : Dict κ α) (k : κ) : Dict κ α := d.assign k none

@[simp] theorem get?_insert (d : Dict κ α) (k : κ) (a : α) (j : κ) :
    (d.insert k a).get? j = if j = k then some a else d.get? j := get?_assign ..

@[simp] theorem get?_erase (d : Dict κ α) (k j : κ) :
    (d.erase k).get? j = if j = k then none else d.get? j := get?_assign ..

/-- The entries whose key satisfies `p`. -/
def restrict (d : Dict κ α) (p : κ → Bool) : Dict κ α := ofKeys (d.keys.filter p) d.get?

@[simp] theorem get?_restrict (d : Dict κ α) (p : κ → Bool) (k : κ) :
    (d.restrict p).get? k = if p k then d.get? k else none := by
  simp only [restrict, get?_ofKeys, List.mem_filter]
  by_cases hp : p k = true
  · by_cases hk : k ∈ d.keys
    · simp [hp, hk]
    · simp [hp, hk, (d.get?_eq_none_iff k).mpr hk]
  · simp [hp]

/-- `d` overridden by the entries of `e`. -/
def update (d e : Dict κ α) : Dict κ α :=
  ofKeys (d.keys ++ e.keys) (fun k => (e.get? k).or (d.get? k))

@[simp] theorem get?_update (d e : Dict κ α) (k : κ) :
    (d.update e).get? k = (e.get? k).or (d.get? k) := by
  rw [update, get?_ofKeys]
  split
  · rfl
  · next h =>
    rw [List.mem_append, not_or] at h
    rw [(d.get?_eq_none_iff k).mpr h.1, (e.get?_eq_none_iff k).mpr h.2]
    rfl

/-! ### Loops over distinct keys -/

/-- **A loop over distinct keys.** A step that only touches what is looked up at the key of its
    element acts, in a loop over elements with distinct keys, at each key just once; a key no
    element has is left alone.  `look` is any lookup of the state the loop updates. -/
theorem look_foldl_of_nodup {σ : Type*} {ε β : Type*} (look : σ → κ → β) (key : ε → κ)
    (step : σ → ε → σ) (new : ε → β → β)
    (hstep : ∀ s e k, look (step s e) k = if key e = k then new e (look s k) else look s k)
    (l : List ε) (hnd : (l.map key).Nodup) (s : σ) (k : κ) :
    look (l.foldl step s) k
      = match l.find? (fun e => key e = k) with
        | some e => new e (look s k)
        | none => look s k := by
  induction l generalizing s with
  | nil => rfl
  | cons e t ih =>
    rw [List.map_cons, List.nodup_cons] at hnd
    rw [List.foldl_cons, ih hnd.2, List.find?_cons]
    by_cases hk : key e = k
    · have hnone : t.find? (fun e => key e = k) = none := by
        rw [List.find?_eq_none]
        intro x hx
        have hne : key x ≠ k := fun h => hnd.1 (List.mem_map.mpr ⟨x, hx, h.trans hk.symm⟩)
        simpa using hne
      simp [hnone, hk, hstep]
    · simp [hk, hstep]

/-- **A loop that looks away.** Where only one element of a loop touches what is looked at, and the
    elements are distinct, the loop acts on it just once. -/
theorem look_foldl_of_mem {σ : Type*} {ε β : Type*} (look : σ → β) (step : σ → ε → σ)
    (new : β → β) {l : List ε} {e : ε} (hmem : e ∈ l) (hnd : l.Nodup)
    (hself : ∀ s, look (step s e) = new (look s))
    (hother : ∀ s, ∀ x ∈ l, x ≠ e → look (step s x) = look s) (s : σ) :
    look (l.foldl step s) = new (look s) := by
  obtain ⟨before, after, rfl⟩ := List.append_of_mem hmem
  rw [List.nodup_append, List.nodup_cons] at hnd
  have hkeep : ∀ (part : List ε), (∀ x ∈ part, x ∈ before ++ e :: after ∧ x ≠ e) →
      ∀ s, look (part.foldl step s) = look s := by
    intro part hpart s
    exact List.foldlRecOn (motive := fun t => look t = look s) part step rfl fun t ht x hx =>
      (hother t x (hpart x hx).1 (hpart x hx).2).trans ht
  rw [List.foldl_append, List.foldl_cons, hkeep after, hself, hkeep before]
  · intro x hx
    exact ⟨List.mem_append_left _ hx, fun heq => hnd.2.2 x hx e (by simp) heq⟩
  · intro x hx
    exact ⟨by simp [hx], fun heq => hnd.2.1.1 (heq ▸ hx)⟩

/-- **A loop that fills in.** Where only one element of a loop touches what is looked at, and fills
    in what it wants there, the loop does so, however often it comes to the element. -/
theorem look_foldl_or_of_mem {σ : Type*} {ε β : Type*} (look : σ → Option β) (step : σ → ε → σ)
    (want : Option β) {e : ε} (hself : ∀ s, look (step s e) = want.or (look s)) {l : List ε}
    (hother : ∀ s, ∀ x ∈ l, x ≠ e → look (step s x) = look s) (hmem : e ∈ l) (s : σ) :
    look (l.foldl step s) = want.or (look s) := by
  induction l generalizing s with
  | nil => exact absurd hmem List.not_mem_nil
  | cons x rest ih =>
    have hrest := ih fun t y hy => hother t y (List.mem_cons_of_mem x hy)
    rw [List.foldl_cons]
    by_cases hin : e ∈ rest
    · rw [hrest hin]
      by_cases hx : x = e
      · rw [hx, hself]
        cases want <;> rfl
      · rw [hother s x List.mem_cons_self hx]
    · obtain rfl := (List.mem_cons.mp hmem).resolve_right hin
      rw [← hself s]
      exact List.foldlRecOn (motive := fun t => look t = look (step s e)) rest step rfl
        fun t ht y hy => (hother t y (List.mem_cons_of_mem e hy) fun heq => hin (heq ▸ hy)).trans ht

/-! ### Loops over another dictionary -/

section UpdateEach

variable {β : Type w}

/-- The loop `for key, value in e.items(): d[key] = f(d.get(key), value)`. -/
def updateEach (d : Dict κ α) (e : Dict κ β) (f : Option α → β → Option α) : Dict κ α :=
  e.entries.foldl (fun d p => d.assign p.1 (f (d.get? p.1) p.2)) d

theorem get?_updateEach (d : Dict κ α) (e : Dict κ β) (f : Option α → β → Option α) (k : κ) :
    (d.updateEach e f).get? k = (e.get? k).elim (d.get? k) (f (d.get? k)) := by
  have hfold := look_foldl_of_nodup (fun (d : Dict κ α) => d.get?) Prod.fst
    (fun d (p : κ × β) => d.assign p.1 (f (d.get? p.1) p.2)) (fun p o => f o p.2) ?_ e.entries
    e.keys_nodup d k
  · have hget : e.get? k = (e.entries.find? fun p => p.1 = k).map Prod.snd := rfl
    rw [updateEach, hfold, hget]
    cases e.entries.find? (fun p => p.1 = k) <;> rfl
  · intro d p j
    rw [get?_assign]
    by_cases hj : j = p.1
    · rw [if_pos hj, if_pos hj.symm, hj]
    · rw [if_neg hj, if_neg (Ne.symm hj)]

/-- A loop whose turns do nothing more the second time. -/
theorem updateEach_again {d : Dict κ α} {e : Dict κ β} {f : Option α → β → Option α}
    (h : ∀ o b, f (f o b) b = f o b) : (d.updateEach e f).updateEach e f = d.updateEach e f := by
  apply ext_get?
  intro k
  rw [get?_updateEach (d.updateEach e f), get?_updateEach d]
  cases e.get? k with
  | none => rfl
  | some b => exact h _ b

theorem updateEach_self {d : Dict κ α} {f : Option α → α → Option α}
    (h : ∀ a, f (some a) a = some a) : d.updateEach d f = d := by
  apply ext_get?
  intro k
  rw [get?_updateEach]
  cases d.get? k with
  | none => rfl
  | some a => exact h a

/-- The dictionary with other values. -/
def map (d : Dict κ α) (f : α → β) : Dict κ β := ofKeys d.keys fun k => (d.get? k).map f

@[simp] theorem get?_map (d : Dict κ α) (f : α → β) (k : κ) :
    (d.map f).get? k = (d.get? k).map f := by
  rw [map, get?_ofKeys]
  split
  · rfl
  · next h => rw [(d.get?_eq_none_iff k).mpr h, Option.map_none]

end UpdateEach

/-! ### Grouping -/

/-- The loop `groups.setdefault(key(x), []).append(x)` over `xs`. -/
def groupBy {ε : Type w} (key : ε → κ) (xs : List ε) : Dict κ (List ε) :=
  xs.foldl (fun groups x => groups.insert (key x) (((groups.get? (key x)).getD []) ++ [x])) ∅

/-- **Grouping.** A group holds the members of `xs` with its key, in their order, and there is
    a group only for a key that occurs. -/
theorem get?_groupBy {ε : Type w} (key : ε → κ) (xs : List ε) (k : κ) :
    (groupBy key xs).get? k
      = if xs.filter (fun x => key x = k) = [] then none
        else some (xs.filter (fun x => key x = k)) := by
  -- the loop appends on the right, so the induction takes the last element off
  induction xs using List.reverseRecOn with
  | nil => rfl
  | append_singleton xs x ih =>
    have hstep : groupBy key (xs ++ [x])
        = (groupBy key xs).insert (key x)
            ((((groupBy key xs).get? (key x)).getD []) ++ [x]) := by
      simp only [groupBy, List.foldl_append, List.foldl_cons, List.foldl_nil]
    rw [hstep, get?_insert, List.filter_append]
    by_cases hk : k = key x
    · subst hk
      rw [ih]
      by_cases hnil : xs.filter (fun y => key y = key x) = []
      · simp [hnil]
      · simp [hnil]
    · have hx : [x].filter (fun y => key y = k) = [] := by simp [Ne.symm hk]
      rw [if_neg hk, ih, hx, List.append_nil]

theorem mem_groupBy_entries {ε : Type w} (key : ε → κ) (xs : List ε) (k : κ) (ys : List ε) :
    (k, ys) ∈ (groupBy key xs).entries ↔ ys = xs.filter (fun x => key x = k) ∧ ys ≠ [] := by
  rw [← get?_eq_some_iff, get?_groupBy]
  split
  · next h => exact ⟨fun h' => absurd h' (by simp), fun h' => absurd (h'.1.trans h) h'.2⟩
  · next h =>
    rw [Option.some.injEq]
    exact ⟨fun h' => ⟨h'.symm, h' ▸ h⟩, fun h' => h'.1.symm⟩

/-- Insert what `f` yields for the members of a list, the later over the earlier. -/
def insertAll {ε : Type w} (d : Dict κ α) (xs : List ε) (f : ε → Option (κ × α)) : Dict κ α :=
  xs.foldl (fun d x =>
    match f x with
    | none => d
    | some (k, a) => d.insert k a) d

theorem mem_keys_insertAll {ε : Type w} (d : Dict κ α) (xs : List ε) (f : ε → Option (κ × α))
    (k : κ) : k ∈ (d.insertAll xs f).keys ↔ k ∈ d.keys ∨ ∃ x ∈ xs, ∃ a, f x = some (k, a) := by
  induction xs using List.reverseRecOn with
  | nil => simp [insertAll]
  | append_singleton xs y ih =>
    rw [insertAll] at ih ⊢
    rw [List.foldl_append, List.foldl_cons, List.foldl_nil]
    cases hy : f y with
    | none => simp [ih, hy, or_and_right, exists_or]
    | some row =>
      obtain ⟨j, a⟩ := row
      have hkeys : ∀ e : Dict κ α, k ∈ (e.insert j a).keys ↔ k ∈ e.keys ∨ j = k := by
        intro e
        rw [mem_keys_iff, mem_keys_iff]
        by_cases hk : k = j
        · simp [hk]
        · simp [hk, Ne.symm hk]
      rw [hkeys, ih]
      simp [hy, or_and_right, exists_or, or_assoc]

/-- A value comes from the dictionary or from one of the members. -/
theorem of_get?_insertAll {ε : Type w} {d : Dict κ α} {xs : List ε} {f : ε → Option (κ × α)}
    {k : κ} {a : α} (h : (d.insertAll xs f).get? k = some a) :
    d.get? k = some a ∨ ∃ x ∈ xs, f x = some (k, a) := by
  induction xs using List.reverseRecOn with
  | nil => exact Or.inl h
  | append_singleton xs y ih =>
    rw [insertAll] at ih h
    rw [List.foldl_append, List.foldl_cons, List.foldl_nil] at h
    have hlater : (xs.foldl (fun d x =>
        match f x with
        | none => d
        | some (k, a) => d.insert k a) d).get? k = some a →
        d.get? k = some a ∨ ∃ x ∈ xs ++ [y], f x = some (k, a) := by
      intro hget
      refine (ih hget).imp_right ?_
      intro hex
      obtain ⟨x, hx, heq⟩ := hex
      exact ⟨x, List.mem_append_left _ hx, heq⟩
    cases hy : f y with
    | none =>
      rw [hy] at h
      exact hlater h
    | some row =>
      rw [hy] at h
      dsimp only at h
      rw [get?_insert] at h
      split at h
      · next hkey =>
        refine Or.inr ⟨y, by simp, ?_⟩
        rw [hy, hkey, ← Option.some.inj h]
      · exact hlater h

/-- Filing the entries of a dictionary again makes the same dictionary. -/
theorem get?_insertAll_entries (d : Dict κ α) (k : κ) :
    ((∅ : Dict κ α).insertAll d.entries some).get? k = d.get? k := by
  have hfold := look_foldl_of_nodup (fun (e : Dict κ α) => e.get?) Prod.fst
    (fun e (x : κ × α) => e.insert x.1 x.2) (fun x _ => some x.2)
    (fun e x j => by rw [get?_insert]; exact if_congr eq_comm rfl rfl) d.entries d.keys_nodup ∅ k
  refine (show _ = _ from hfold).trans ?_
  unfold get?
  cases d.entries.find? (fun e => e.1 = k) with
  | none => rfl
  | some e => rfl

/-- The loop `d[key(x)] = value(x)` over `xs`. -/
def insertEach {ε : Type w} (d : Dict κ α) (key : ε → κ) (value : ε → α) (xs : List ε) :
    Dict κ α :=
  xs.foldl (fun d x => d.insert (key x) (value x)) d

section InsertEach

variable {ε : Type w} (d : Dict κ α) (key : ε → κ) (value : ε → α)

@[simp] theorem insertEach_nil : d.insertEach key value [] = d := rfl

theorem insertEach_append_singleton (xs : List ε) (x : ε) :
    d.insertEach key value (xs ++ [x]) = (d.insertEach key value xs).insert (key x) (value x) := by
  rw [insertEach, List.foldl_append]
  rfl

/-- A key of no element is left alone. -/
theorem get?_insertEach_of_ne {xs : List ε} {k : κ} (h : ∀ x ∈ xs, key x ≠ k) :
    (d.insertEach key value xs).get? k = d.get? k := by
  induction xs using List.reverseRecOn with
  | nil => rfl
  | append_singleton xs y ih =>
    rw [insertEach_append_singleton, get?_insert,
      if_neg (fun hk => h y (by simp) hk.symm)]
    exact ih fun x hx => h x (List.mem_append_left _ hx)

/-- With distinct keys every element is found under its own. -/
theorem get?_insertEach_of_mem {xs : List ε} (hnd : (xs.map key).Nodup) {x : ε} (hx : x ∈ xs) :
    (d.insertEach key value xs).get? (key x) = some (value x) := by
  induction xs using List.reverseRecOn with
  | nil => exact absurd hx (by simp)
  | append_singleton xs y ih =>
    rw [List.map_append, List.nodup_append] at hnd
    rw [insertEach_append_singleton, get?_insert]
    rcases List.mem_append.mp hx with hin | hlast
    · have hne : key x ≠ key y := hnd.2.2 _ (List.mem_map_of_mem hin) _ (by simp)
      rw [if_neg hne]
      exact ih hnd.1 hin
    · rw [List.mem_singleton.mp hlast, if_pos rfl]

end InsertEach

end Dict

example : ((Dict.ofKeys [3, 1, 2, 1] (fun n : ℕ => if n = 2 then none else some (n * n))).assign 5
    (some 0)).entries = [(1, 1), (3, 9), (5, 0)] := by decide

end RomCloud.Lib
