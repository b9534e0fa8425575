import RomCloud.Library.Render

namespace RomCloud.Library

open Lib

/-!
# What rendering does to a gamelist

The file stays a gamelist, the elements of the user stay in it, and there is one marked element for
each rendered game, unless the file has a marker twice, or two games share an identity that the
file has, or a text is none that XML can carry.

* `Tracks` — what the loop keeps: which elements it has written, and why;
* `Undamaged` — what a rendering should leave;
* `Renderable` — what the file, the catalog and the dataset have to be;
* `render_undamaged_iff` — a rendering is undamaged just when they are.
-/

variable {S : Service} {old : List Element} {s : Rendering S}

/-! ### The loop -/

/-- Why a game is written to the element at a position. -/
inductive Placed (old : List Element) : Launchable S × ℕ → Prop
  | owned {g i} (h : (ownedElements old).get? g.id = some i) : Placed old (g, i)
  | adopted {g i path} (hnew : (ownedElements old).get? g.id = none)
      (hpath : safeRelative g.path = some path) (h : (unownedElements old).get? path = some i) :
      Placed old (g, i)
  | fresh {g i} (hnew : (ownedElements old).get? g.id = none) (h : old.length ≤ i) : Placed old (g, i)

/-- A position that an owned element has belongs to its marker only. -/
theorem ownedElements_injective {m n : String} {i : ℕ} (hm : (ownedElements old).get? m = some i)
    (hn : (ownedElements old).get? n = some i) : m = n := by
  obtain ⟨e, he, hkey⟩ := ownedKey_of_get? hm
  obtain ⟨f, hf, hother⟩ := ownedKey_of_get? hn
  rw [he, Option.some.injEq] at hf
  rw [← hf, hkey, Option.some.injEq] at hother
  exact hother

theorem unownedElements_injective {m n : String} {i : ℕ}
    (hm : (unownedElements old).get? m = some i) (hn : (unownedElements old).get? n = some i) :
    m = n := by
  obtain ⟨e, he, hkey⟩ := unownedKey_of_get? hm
  obtain ⟨f, hf, hother⟩ := unownedKey_of_get? hn
  rw [he, Option.some.injEq] at hf
  rw [← hf, hkey, Option.some.injEq] at hother
  exact hother

theorem owned_ne_unowned {m n : String} {i j : ℕ} (hm : (ownedElements old).get? m = some i)
    (hn : (unownedElements old).get? n = some j) : j ≠ i := by
  rintro rfl
  obtain ⟨e, he, hkey⟩ := ownedKey_of_get? hm
  obtain ⟨f, hf, hother⟩ := unownedKey_of_get? hn
  rw [he, Option.some.injEq] at hf
  rw [← hf, unownedKey_of_ownedKey hkey] at hother
  cases hother

theorem Placed.of_owned {p : Launchable S × ℕ} (hp : Placed old p) {m : String}
    (h : (ownedElements old).get? m = some p.2) : p.1.id = m := by
  cases hp with
  | owned hself => exact ownedElements_injective hself h
  | adopted _ _ hself => exact absurd rfl (owned_ne_unowned h hself)
  | fresh _ hself =>
    obtain ⟨e, he, -⟩ := ownedKey_of_get? h
    have hlt := (List.getElem?_eq_some_iff.mp he).1
    omega

/-- A game whose marker the file has is written to the element with it. -/
theorem Placed.eq_owned {p : Launchable S × ℕ} (hp : Placed old p) {i : ℕ}
    (h : (ownedElements old).get? p.1.id = some i) : p.2 = i := by
  cases hp with
  | owned hself => exact Option.some.inj (hself.symm.trans h)
  | adopted hnew => exact absurd h (by simp [hnew])
  | fresh hnew => exact absurd h (by simp [hnew])

/-- An element of the file that is written to is a game element. -/
theorem Placed.exists_game {p : Launchable S × ℕ} (hp : Placed old p) (hlt : p.2 < old.length) :
    ∃ e, old[p.2]? = some e ∧ e.tag = "game" := by
  cases hp with
  | owned h =>
    obtain ⟨e, he, hkey⟩ := ownedKey_of_get? h
    exact ⟨e, he, (ownedKey_eq_some_iff.mp hkey).1⟩
  | adopted _ _ h =>
    obtain ⟨e, he, hkey⟩ := unownedKey_of_get? h
    exact ⟨e, he, (unownedKey_eq_some_iff.mp hkey).1.1⟩
  | fresh _ h => exact absurd hlt (by simpa using h)

/-- What the loop keeps.  Two games are written to one element only where the file has the marker
of both. -/
structure Tracks (old : List Element) (s : Rendering S) : Prop where
  length : old.length ≤ s.children.length
  kept : ∀ i, i < old.length → (∀ p ∈ s.placed, p.2 ≠ i) → s.children[i]? = old[i]?
  fresh : ∀ i, old.length ≤ i → i < s.children.length → ∃ p ∈ s.placed, p.2 = i
  inside : ∀ p ∈ s.placed, p.2 < s.children.length
  reason : ∀ p ∈ s.placed, Placed old p
  unowned : ∀ path i, s.unowned.get? path = some i →
    (unownedElements old).get? path = some i ∧ ∀ p ∈ s.placed, p.2 ≠ i
  apart : s.placed.Pairwise fun p q =>
    p.2 = q.2 → (ownedElements old).get? q.1.id = some q.2 ∧ p.1.id = q.1.id
  rendered : (s.placed.map Prod.snd).Nodup → ∀ p ∈ s.placed, ∃ base : Element,
    (base ∈ old ∨ base = .leaf "game" "") ∧ base.tag = "game"
      ∧ s.children[p.2]? = some (p.1.render base)

theorem Tracks.first : Tracks old (⟨old, unownedElements old, []⟩ : Rendering S) where
  length := le_refl _
  kept _ _ _ := rfl
  fresh i hle hlt := absurd hlt (by simpa using hle)
  inside _ hp := absurd hp List.not_mem_nil
  reason _ hp := absurd hp List.not_mem_nil
  unowned _ _ h := ⟨h, fun _ hp => absurd hp List.not_mem_nil⟩
  apart := List.Pairwise.nil
  rendered _ _ hp := absurd hp List.not_mem_nil

section Step

variable {g : Launchable S} {unowned : Dict String ℕ}

/-- Writing to an element of the file. -/
theorem Tracks.modify (h : Tracks old s) {i : ℕ} (hi : i < old.length) (hplaced : Placed old (g, i))
    (hunowned : ∀ path j, unowned.get? path = some j → s.unowned.get? path = some j ∧ j ≠ i)
    (hapart : ∀ p ∈ s.placed, p.2 = i → (ownedElements old).get? g.id = some i ∧ p.1.id = g.id) :
    Tracks old ⟨s.children.modify i g.render, unowned, s.placed ++ [(g, i)]⟩ where
  length := by
    rw [List.length_modify]
    exact h.length
  kept j hj hnot := by
    have hne : i ≠ j := hnot (g, i) (by simp)
    rw [List.getElem?_modify_ne _ _ hne]
    exact h.kept j hj fun p hp => hnot p (List.mem_append_left _ hp)
  fresh j hle hlt := by
    rw [List.length_modify] at hlt
    obtain ⟨p, hp, heq⟩ := h.fresh j hle hlt
    exact ⟨p, List.mem_append_left _ hp, heq⟩
  inside := by
    intro p hp
    rw [List.length_modify]
    rcases List.mem_append.mp hp with hp | hp
    · exact h.inside p hp
    · rw [List.mem_singleton.mp hp]
      exact lt_of_lt_of_le hi h.length
  reason := by
    intro p hp
    rcases List.mem_append.mp hp with hp | hp
    · exact h.reason p hp
    · rw [List.mem_singleton.mp hp]
      exact hplaced
  unowned := by
    intro path j hget
    have hbefore := hunowned path j hget
    have hall := h.unowned path j hbefore.1
    refine ⟨hall.1, fun p hp => ?_⟩
    rcases List.mem_append.mp hp with hp | hp
    · exact hall.2 p hp
    · rw [List.mem_singleton.mp hp]
      exact Ne.symm hbefore.2
  apart := by
    rw [List.pairwise_append]
    refine ⟨h.apart, List.pairwise_singleton _ _, fun p hp q hq heq => ?_⟩
    rw [List.mem_singleton.mp hq] at heq ⊢
    exact hapart p hp heq
  rendered := by
    intro hnd p hp
    rw [List.map_append, List.nodup_append] at hnd
    rcases List.mem_append.mp hp with hp | hp
    · obtain ⟨base, hbase, htag, hget⟩ := h.rendered hnd.1 p hp
      have hne : i ≠ p.2 := fun heq =>
        hnd.2.2 p.2 (List.mem_map_of_mem hp) i (by simp) heq.symm
      refine ⟨base, hbase, htag, ?_⟩
      rw [List.getElem?_modify_ne _ _ hne]
      exact hget
    · -- the element has not been written to before, so it is the one of the file
      rw [List.mem_singleton.mp hp]
      obtain ⟨e, he, htag⟩ := hplaced.exists_game hi
      have hnot : ∀ q ∈ s.placed, q.2 ≠ i := fun q hq heq =>
        hnd.2.2 q.2 (List.mem_map_of_mem hq) i (by simp) heq
      refine ⟨e, Or.inl (List.mem_of_getElem? he), htag, ?_⟩
      rw [List.getElem?_modify_eq, h.kept i hi hnot, he]
      rfl

/-- Writing to a new element. -/
theorem Tracks.append (h : Tracks old s) (hnew : (ownedElements old).get? g.id = none)
    (hunowned : ∀ path j, unowned.get? path = some j → s.unowned.get? path = some j) :
    Tracks old ⟨s.children ++ [g.render (.leaf "game" "")], unowned,
      s.placed ++ [(g, s.children.length)]⟩ where
  length := by
    have hlength := h.length
    simp only [List.length_append, List.length_singleton]
    omega
  kept j hj hnot := by
    rw [List.getElem?_append_left (lt_of_lt_of_le hj h.length)]
    exact h.kept j hj fun p hp => hnot p (List.mem_append_left _ hp)
  fresh j hle hlt := by
    simp only [List.length_append, List.length_singleton] at hlt
    by_cases hold : j < s.children.length
    · obtain ⟨p, hp, heq⟩ := h.fresh j hle hold
      exact ⟨p, List.mem_append_left _ hp, heq⟩
    · exact ⟨(g, s.children.length), by simp, by show s.children.length = j; omega⟩
  inside := by
    intro p hp
    simp only [List.length_append, List.length_singleton]
    rcases List.mem_append.mp hp with hp | hp
    · have hlt := h.inside p hp
      omega
    · rw [List.mem_singleton.mp hp]
      show s.children.length < s.children.length + 1
      omega
  reason := by
    intro p hp
    rcases List.mem_append.mp hp with hp | hp
    · exact h.reason p hp
    · rw [List.mem_singleton.mp hp]
      exact .fresh hnew h.length
  unowned := by
    intro path j hget
    have hall := h.unowned path j (hunowned path j hget)
    refine ⟨hall.1, fun p hp => ?_⟩
    rcases List.mem_append.mp hp with hp | hp
    · exact hall.2 p hp
    · rw [List.mem_singleton.mp hp]
      obtain ⟨e, he, -⟩ := unownedKey_of_get? hall.1
      have hlt := (List.getElem?_eq_some_iff.mp he).1
      have hlength := h.length
      show s.children.length ≠ j
      omega
  apart := by
    rw [List.pairwise_append]
    refine ⟨h.apart, List.pairwise_singleton _ _, fun p hp q hq heq => ?_⟩
    rw [List.mem_singleton.mp hq] at heq
    have hlt := h.inside p hp
    exact absurd heq (by show p.2 ≠ s.children.length; omega)
  rendered := by
    intro hnd p hp
    rw [List.map_append, List.nodup_append] at hnd
    rcases List.mem_append.mp hp with hp | hp
    · obtain ⟨base, hbase, htag, hget⟩ := h.rendered hnd.1 p hp
      refine ⟨base, hbase, htag, ?_⟩
      rw [List.getElem?_append_left (h.inside p hp)]
      exact hget
    · rw [List.mem_singleton.mp hp]
      exact ⟨.leaf "game" "", Or.inr rfl, rfl, by simp⟩

/-- One game keeps it. -/
theorem Tracks.place (h : Tracks old s) (g : Launchable S) :
    Tracks old (s.place (ownedElements old) g) := by
  cases howned : (ownedElements old).get? g.id with
  | some i =>
    have hadopt : s.adopt (ownedElements old) g = (some i, s.unowned) := by
      rw [Rendering.adopt, howned]
    obtain ⟨e, he, -⟩ := ownedKey_of_get? howned
    rw [Rendering.place, hadopt]
    refine h.modify (List.getElem?_eq_some_iff.mp he).1 (.owned howned) ?_ ?_
    · intro path j hget
      exact ⟨hget, owned_ne_unowned howned (h.unowned path j hget).1⟩
    · rintro p hp rfl
      exact ⟨howned, (h.reason p hp).of_owned howned⟩
  | none =>
    cases hpath : safeRelative g.path with
    | none =>
      have hadopt : s.adopt (ownedElements old) g = (none, s.unowned) := by
        rw [Rendering.adopt, howned, hpath]
      rw [Rendering.place, hadopt]
      exact h.append howned fun _ _ hget => hget
    | some path =>
      have hadopt : s.adopt (ownedElements old) g
          = (s.unowned.get? path, s.unowned.erase path) := by
        rw [Rendering.adopt, howned, hpath]
      have hrest : ∀ other j, (s.unowned.erase path).get? other = some j →
          other ≠ path ∧ s.unowned.get? other = some j := by
        intro other j hget
        rw [Dict.get?_erase] at hget
        by_cases heq : other = path
        · simp [heq] at hget
        · exact ⟨heq, by simpa [heq] using hget⟩
      cases hfound : s.unowned.get? path with
      | none =>
        rw [Rendering.place, hadopt, hfound]
        exact h.append howned fun other j hget => (hrest other j hget).2
      | some i =>
        have hall := h.unowned path i hfound
        obtain ⟨e, he, -⟩ := unownedKey_of_get? hall.1
        rw [Rendering.place, hadopt, hfound]
        refine h.modify (List.getElem?_eq_some_iff.mp he).1 (.adopted howned hpath hall.1) ?_ ?_
        · intro other j hget
          obtain ⟨hne, hother⟩ := hrest other j hget
          refine ⟨hother, fun heq => hne ?_⟩
          exact unownedElements_injective ((h.unowned other j hother).1) (heq ▸ hall.1)
        · intro p hp heq
          exact absurd heq (hall.2 p hp)

end Step

/-- The entries with a launch path: the games that are rendered. -/
def launchables (entries : List (Entry S)) : List (Launchable S) :=
  entries.filterMap Entry.launchable?

theorem Tracks.loop (root : Element) (entries : List (Entry S)) :
    Tracks root.children (renderEntries root entries) := by
  refine List.foldlRecOn (motive := Tracks root.children) entries _ Tracks.first fun s hs e _ => ?_
  cases hlaunch : e.launchable? with
  | none => rwa [Rendering.renderEntry, hlaunch]
  | some g =>
    rw [Rendering.renderEntry, hlaunch]
    exact hs.place g

theorem placed_place (owned : Dict String ℕ) (s : Rendering S) (g : Launchable S) :
    ∃ i, (s.place owned g).placed = s.placed ++ [(g, i)] := by
  unfold Rendering.place
  cases s.adopt owned g with
  | mk found unowned =>
    cases found with
    | some i => exact ⟨i, rfl⟩
    | none => exact ⟨s.children.length, rfl⟩

/-- Every game is written to an element. -/
theorem map_fst_placed (root : Element) (entries : List (Entry S)) :
    (renderEntries root entries).placed.map Prod.fst = launchables entries := by
  unfold renderEntries launchables
  induction entries using List.reverseRecOn with
  | nil => rfl
  | append_singleton entries e ih =>
    rw [List.foldl_append, List.foldl_cons, List.foldl_nil, List.filterMap_append]
    cases hlaunch : e.launchable? with
    | none => simpa [Rendering.renderEntry, hlaunch] using ih
    | some g =>
      rw [Rendering.renderEntry, hlaunch]
      obtain ⟨i, hplaced⟩ := placed_place (ownedElements root.children) (entries.foldl
        (Rendering.renderEntry (ownedElements root.children))
        ⟨root.children, unownedElements root.children, []⟩) g
      rw [hplaced, List.map_append, ih]
      simp [hlaunch]

/-! ### What is left -/

/-- The marker and the path of a marked element. -/
def gameMark (e : Element) : Option (String × String) :=
  (ownedKey e).map fun m => (m, e.findText "path")

/-- An element without a marker that is not at the path of a rendered game. -/
def spared (games : List (Launchable S)) (e : Element) : Bool :=
  ownedKey e = none ∧ ∀ g ∈ games, unownedKey e = none ∨ unownedKey e ≠ safeRelative g.path

/-- What a rendering should leave: a gamelist with the elements that are none of its business, as
they were, and with one marked element for each game, with the path of the game; and no two games
are written to one element. -/
structure Undamaged (old : List Element) (games : List (Launchable S)) (out : Outcome S) : Prop where
  wellFormed : ∃ new : Gamelist, out.file = .gamelist new
    ∧ (old.filter (spared games)).Sublist new.root.children
    ∧ (new.root.children.filterMap gameMark).Perm (games.map fun g => (g.id, g.path))
  apart : (out.placed.map Prod.snd).Nodup

/-- No marker of the file occurs twice, no two games have an identity that is one of these markers,
and the texts of the games are XML texts. -/
structure Renderable (old : List Element) (games : List (Launchable S)) : Prop where
  markers : (old.filterMap ownedKey).Nodup
  identities : games.Pairwise fun g h => g.id = h.id → g.id ∉ old.filterMap ownedKey
  texts : ∀ g ∈ games, ∀ text ∈ g.texts, isXmlText text = true

instance (old : List Element) (games : List (Launchable S)) : Decidable (Renderable old games) :=
  decidable_of_iff ((old.filterMap ownedKey).Nodup
      ∧ (games.Pairwise fun g h => g.id = h.id → g.id ∉ old.filterMap ownedKey)
      ∧ ∀ g ∈ games, ∀ text ∈ g.texts, isXmlText text = true)
    ⟨fun h => ⟨h.1, h.2.1, h.2.2⟩, fun h => ⟨h.markers, h.identities, h.texts⟩⟩

theorem mem_markers_iff {m : String} :
    m ∈ old.filterMap ownedKey ↔ ∃ i, (ownedElements old).get? m = some i := by
  rw [List.mem_filterMap]
  constructor
  · rintro ⟨e, he, hkey⟩
    obtain ⟨i, hi⟩ := List.getElem?_of_mem he
    exact exists_get?_ownedElements hi hkey
  · rintro ⟨i, hi⟩
    obtain ⟨e, he, hkey⟩ := ownedKey_of_get? hi
    exact ⟨e, List.mem_of_getElem? he, hkey⟩

theorem mem_staleElements_iff {owned : Dict String ℕ} {desired : List String} {i : ℕ} :
    i ∈ staleElements owned desired ↔ ∃ m, owned.get? m = some i ∧ m ∉ desired := by
  rw [staleElements, List.mem_map]
  constructor
  · rintro ⟨⟨m, j⟩, hmem, rfl⟩
    rw [List.mem_filter, decide_eq_true_eq] at hmem
    exact ⟨m, (owned.get?_eq_some_iff m j).mpr hmem.1, hmem.2⟩
  · rintro ⟨m, hget, hm⟩
    exact ⟨(m, i), List.mem_filter.mpr ⟨(owned.get?_eq_some_iff m i).mp hget, by simpa using hm⟩,
      rfl⟩

namespace Tracks

/-- The positions that are removed at the end. -/
abbrev stale (old : List Element) (s : Rendering S) : List ℕ :=
  staleElements (ownedElements old) (s.placed.map fun p => p.1.id)

variable (h : Tracks old s)

include h

/-- The element of a game is not removed. -/
theorem not_stale {p : Launchable S × ℕ} (hp : p ∈ s.placed) : p.2 ∉ stale old s := by
  rw [mem_staleElements_iff]
  rintro ⟨m, hget, hm⟩
  exact hm ((h.reason p hp).of_owned hget ▸ List.mem_map_of_mem hp)

/-- An element that is in neither index is not written to. -/
theorem not_placed {i : ℕ} {e : Element} (he : old[i]? = some e)
    (howned : ∀ m, (ownedElements old).get? m ≠ some i)
    (hunowned : ∀ p ∈ s.placed, unownedKey e = none ∨ unownedKey e ≠ safeRelative p.1.path) :
    ∀ p ∈ s.placed, p.2 ≠ i := by
  rintro ⟨g, j⟩ hp heq
  have hlt := (List.getElem?_eq_some_iff.mp he).1
  replace heq : j = i := heq
  subst heq
  cases h.reason _ hp with
  | owned hget => exact howned _ hget
  | adopted _ hpath hget =>
    obtain ⟨f, hf, hkey⟩ := unownedKey_of_get? hget
    rw [he, Option.some.injEq] at hf
    rw [← hf] at hkey
    rcases hunowned _ hp with hnone | hne
    · rw [hnone] at hkey
      cases hkey
    · exact hne (hkey.trans hpath.symm)
  | fresh _ hle => omega

/-- What is left of an element that no game is written to. -/
theorem get?_of_not_placed {i : ℕ} {x : Element} (hget : s.children[i]? = some x)
    (hnot : ∀ p ∈ s.placed, p.2 ≠ i) : old[i]? = some x := by
  have hlt : i < old.length := by
    by_contra hle
    obtain ⟨p, hp, heq⟩ := h.fresh i (by omega) (List.getElem?_eq_some_iff.mp hget).1
    exact hnot p hp heq
  rw [← h.kept i hlt hnot, hget]

/-- The elements that are left are XML elements just when the games' texts are XML texts, where no
two games share an element. -/
theorem xmlText_iff (hold : ∀ e ∈ old, e.xmlText = true) (hnd : (s.placed.map Prod.snd).Nodup) :
    (∀ e ∈ removeAll s.children (stale old s), e.xmlText = true)
      ↔ ∀ p ∈ s.placed, ∀ text ∈ p.1.texts, isXmlText text = true := by
  have hbase : ∀ base : Element, (base ∈ old ∨ base = .leaf "game" "") → base.xmlText = true := by
    rintro base (hmem | rfl)
    · exact hold base hmem
    · exact Element.xmlText_leaf (by decide)
  constructor
  · intro hall p hp
    obtain ⟨base, hmem, -, hget⟩ := h.rendered hnd p hp
    exact (p.1.xmlText_render_iff (hbase base hmem)).mp
      (hall _ (mem_removeAll.mpr ⟨p.2, hget, h.not_stale hp⟩))
  · intro htexts e he
    obtain ⟨i, hget, -⟩ := mem_removeAll.mp he
    by_cases hplaced : ∃ p ∈ s.placed, p.2 = i
    · obtain ⟨p, hp, rfl⟩ := hplaced
      obtain ⟨base, hmem, -, hrendered⟩ := h.rendered hnd p hp
      rw [hrendered, Option.some.injEq] at hget
      rw [← hget]
      exact (p.1.xmlText_render_iff (hbase base hmem)).mpr (htexts p hp)
    · have hnot : ∀ p ∈ s.placed, p.2 ≠ i := fun p hp heq => hplaced ⟨p, hp, heq⟩
      exact hold e (List.mem_of_getElem? (h.get?_of_not_placed hget hnot))

/-- The mark of a game's element. -/
theorem gameMark_placed (hnd : (s.placed.map Prod.snd).Nodup) {p : Launchable S × ℕ}
    (hp : p ∈ s.placed) :
    ∃ x, s.children[p.2]? = some x ∧ gameMark x = some (p.1.id, p.1.path) := by
  obtain ⟨base, -, htag, hget⟩ := h.rendered hnd p hp
  refine ⟨_, hget, ?_⟩
  have hkey : ownedKey (p.1.render base) = some p.1.id :=
    ownedKey_eq_some_iff.mpr ⟨by simpa using htag, p.1.entry.libraryId.nonempty, by simp⟩
  rw [gameMark, hkey, Option.map_some, Launchable.findText_path_render]

/-- Elements of the user keep their places. -/
theorem kept_spared {i : ℕ} {e : Element} (he : old[i]? = some e)
    (hspared : spared (s.placed.map Prod.fst) e = true) :
    s.children[i]? = some e ∧ i ∉ stale old s := by
  rw [spared, decide_eq_true_eq] at hspared
  have howned : ∀ m, (ownedElements old).get? m ≠ some i := by
    intro m hget
    obtain ⟨f, hf, hkey⟩ := ownedKey_of_get? hget
    rw [he, Option.some.injEq] at hf
    rw [← hf, hspared.1] at hkey
    cases hkey
  have hnot := h.not_placed he howned fun p hp => hspared.2 p.1 (List.mem_map_of_mem hp)
  refine ⟨(h.kept i (List.getElem?_eq_some_iff.mp he).1 hnot).trans he, ?_⟩
  rw [mem_staleElements_iff]
  rintro ⟨m, hget, -⟩
  exact howned m hget

/-- Where no marker occurs twice, a marked element that is left is one that a game is written to. -/
theorem placed_of_gameMark (hmarkers : (old.filterMap ownedKey).Nodup) {i : ℕ} {x : Element}
    {c : String × String} (hget : s.children[i]? = some x) (hstale : i ∉ stale old s)
    (hmark : gameMark x = some c) : ∃ p ∈ s.placed, p.2 = i := by
  by_contra hnone
  have hnot : ∀ p ∈ s.placed, p.2 ≠ i := fun p hp heq => hnone ⟨p, hp, heq⟩
  have hold := h.get?_of_not_placed hget hnot
  obtain ⟨m, hkey, -⟩ := Option.map_eq_some_iff.mp hmark
  obtain ⟨j, hj⟩ := exists_get?_ownedElements hold hkey
  obtain ⟨f, hf, hother⟩ := ownedKey_of_get? hj
  have hij : i = j := nodup_filterMap_iff.mp hmarkers i j x f m hold hf hkey hother
  -- its marker is wanted, so the game with it is written to it
  have hdesired : m ∈ s.placed.map fun p => p.1.id := by
    by_contra hm
    exact hstale (mem_staleElements_iff.mpr ⟨m, hij ▸ hj, hm⟩)
  obtain ⟨p, hp, rfl⟩ := List.mem_map.mp hdesired
  exact hnot p hp (((h.reason p hp).eq_owned hj).trans hij.symm)

/-- An element with a marker that another element has too is left as it is. -/
theorem left_of_other {i k : ℕ} {e : Element} {m : String} (he : old[i]? = some e)
    (hkey : ownedKey e = some m) (hk : (ownedElements old).get? m = some k) (hne : i ≠ k) :
    s.children[i]? = some e ∧ i ∉ stale old s := by
  have howned : ∀ n, (ownedElements old).get? n ≠ some i := by
    intro n hget
    obtain ⟨f, hf, hother⟩ := ownedKey_of_get? hget
    rw [he, Option.some.injEq] at hf
    rw [← hf, hkey, Option.some.injEq] at hother
    rw [← hother, hk, Option.some.injEq] at hget
    exact hne hget.symm
  have hnot := h.not_placed he howned fun _ _ => Or.inl (unownedKey_of_ownedKey hkey)
  refine ⟨(h.kept i (List.getElem?_eq_some_iff.mp he).1 hnot).trans he, ?_⟩
  rw [mem_staleElements_iff]
  rintro ⟨n, hget, -⟩
  exact howned n hget

end Tracks

/-! ### The whole rendering -/

theorem root?_eq_some {file : GamelistFile} {root : Element} (h : file.root? = some root) :
    root.tag = "gameList" ∧ root.xmlText = true := by
  cases file with
  | missing =>
    cases h
    exact ⟨rfl, Element.xmlText_leaf (by decide)⟩
  | gamelist list =>
    cases h
    exact ⟨list.tag_eq, list.xmlText⟩
  | _ => cases h

/-- What the function leaves is a gamelist just when its elements are XML elements. -/
theorem written_eq_gamelist_iff {root : Element} (htag : root.tag = "gameList")
    (hroot : root.xmlText = true) (children : List Element) (new : Gamelist) :
    written { root with children := children } = .gamelist new ↔
      new.root = { root with children := children } ∧ ∀ e ∈ children, e.xmlText = true := by
  have hxml : ({ root with children := children } : Element).xmlText = true ↔
      ∀ e ∈ children, e.xmlText = true := by
    rw [Element.xmlText_iff]
    exact ⟨fun h => h.2, fun h => ⟨((Element.xmlText_iff root).mp hroot).1, h⟩⟩
  unfold written
  split
  · next h =>
    rw [GamelistFile.gamelist.injEq]
    refine ⟨fun heq => ⟨heq ▸ rfl, hxml.mp h.2⟩, fun heq => ?_⟩
    cases new with
    | mk r _ _ => cases heq.1; rfl
  · next h => exact ⟨nofun, fun heq => absurd ⟨htag, hxml.mpr heq.2⟩ h⟩

section Render

variable {root : Element} {entries : List (Entry S)}

/-- Games that share no identity with an element of the file have elements of their own. -/
theorem Renderable.apart (h : Renderable root.children (launchables entries)) :
    ((renderEntries root entries).placed.map Prod.snd).Nodup := by
  have htracks := Tracks.loop root entries
  have hidentities := h.identities
  rw [← map_fst_placed root entries, List.pairwise_map] at hidentities
  rw [List.Nodup, List.pairwise_map]
  refine (htracks.apart.and hidentities).imp fun {p q} hboth heq => ?_
  obtain ⟨hget, hid⟩ := hboth.1 heq
  refine hboth.2 hid (mem_markers_iff.mpr ⟨q.2, ?_⟩)
  rw [hid, hget]

/-- Games with elements of their own share no identity with an element of the file. -/
theorem identities_of_apart (hnd : ((renderEntries root entries).placed.map Prod.snd).Nodup) :
    (launchables entries).Pairwise fun g h =>
      g.id = h.id → g.id ∉ root.children.filterMap ownedKey := by
  have htracks := Tracks.loop root entries
  rw [List.Nodup, List.pairwise_map] at hnd
  rw [← map_fst_placed root entries, List.pairwise_map]
  refine hnd.imp_of_mem fun {p q} hp hq hne hid hmem => hne ?_
  obtain ⟨i, hget⟩ := mem_markers_iff.mp hmem
  have hpi := (htracks.reason p hp).eq_owned hget
  have hqi := (htracks.reason q hq).eq_owned (hid ▸ hget)
  rw [hpi, hqi]

/-- The elements that are left. -/
abbrev remaining (root : Element) (entries : List (Entry S)) : List Element :=
  removeAll (renderEntries root entries).children
    (Tracks.stale root.children (renderEntries root entries))

/-- A marker that occurs twice leaves an element that no game is written to. -/
theorem markers_nodup (hnd : ((renderEntries root entries).placed.map Prod.snd).Nodup)
    (hmarks : ((remaining root entries).filterMap gameMark).Perm
      ((launchables entries).map fun g => (g.id, g.path))) :
    (root.children.filterMap ownedKey).Nodup := by
  have htracks := Tracks.loop root entries
  -- two marked elements with a marker of the file would be two games with one identity
  have hrel : ((remaining root entries).filterMap gameMark).Pairwise
      fun c d => c.1 = d.1 → c.1 ∉ root.children.filterMap ownedKey := by
    refine (hmarks.pairwise_iff ?_).mpr ?_
    · intro c d hcd hdc hmem
      exact hcd hdc.symm (hdc ▸ hmem)
    · rw [List.pairwise_map]
      exact identities_of_apart hnd
  -- one element with the marker stays next to the one in the index
  have hother : ∀ (i k : ℕ) (e : Element) (m : String), root.children[i]? = some e →
      ownedKey e = some m → (ownedElements root.children).get? m = some k → i = k := by
    intro i k e m he hkey hk
    by_contra hne
    obtain ⟨hleft, hstale⟩ := htracks.left_of_other he hkey hk hne
    have hmark : gameMark e = some (m, e.findText "path") := by rw [gameMark, hkey, Option.map_some]
    have hmem := hmarks.subset (List.mem_filterMap.mpr
      ⟨e, mem_removeAll.mpr ⟨i, hleft, hstale⟩, hmark⟩)
    obtain ⟨g, hg, hmg⟩ := List.mem_map.mp hmem
    rw [← map_fst_placed root entries] at hg
    obtain ⟨p, hp, rfl⟩ := List.mem_map.mp hg
    have hid : p.1.id = m := congrArg Prod.fst hmg
    obtain ⟨x, hx, hmarkx⟩ := htracks.gameMark_placed hnd hp
    have hpk : p.2 = k := (htracks.reason p hp).eq_owned (hid ▸ hk)
    have hin : m ∈ root.children.filterMap ownedKey := mem_markers_iff.mpr ⟨k, hk⟩
    rcases Nat.lt_or_gt_of_ne (hpk ▸ hne : i ≠ p.2) with hlt | hgt
    · exact rel_of_pairwise_removeAll hrel hlt hstale hleft hmark (htracks.not_stale hp) hx hmarkx
        hid.symm hin
    · exact rel_of_pairwise_removeAll hrel hgt (htracks.not_stale hp) hx hmarkx hstale hleft hmark
        hid (hid ▸ hin)
  rw [nodup_filterMap_iff]
  intro i j e f m he hf hkeye hkeyf
  obtain ⟨k, hk⟩ := exists_get?_ownedElements he hkeye
  exact (hother i k e m he hkeye hk).trans (hother j k f m hf hkeyf hk).symm

end Render

section Runs

def kirbyId : LibraryId :=
  ⟨"71cef4fedacb2f5990e6c82c9bd4e1740302e5505d60afdc8f125f934cae29ee", by decide, by decide +kernel⟩

def minishId : LibraryId :=
  ⟨"17917cfcf1696396b95467ef098ccb09b8abca2cea84a35738b280fb07344567", by decide, by decide +kernel⟩

/-- A service that plays from the source, with the digests of two games. -/
def twoGames : Service where
  mode := .directNas
  offlineLibrary := false
  casefold := id
  digest text := if text = "romcloud-library-v1\x00gba\x00kirby.gba" then kirbyId else minishId

def kirby : Entry twoGames where
  game := ⟨"gba", "gba/kirby.gba"⟩
  libraryId := kirbyId
  identified := by decide +kernel
  record := ⟨"gba", "kirby.gba", (∅ : Dict String String).insert "name" "Kirby", ∅⟩
  proxy := none
  answer _ := .unavailable

def minish : Entry twoGames where
  game := ⟨"gba", "gba\\minish.gba"⟩
  libraryId := minishId
  identified := by decide +kernel
  record := ⟨"gba", "minish.gba", (∅ : Dict String String).insert "name" "Minish",
    (∅ : Dict String Descriptor).insert "image" { sourcePath := some "media/minish.png" }⟩
  proxy := none
  answer _ := .unavailable

def gameElement (fields : List (String × String)) : Element :=
  { Element.leaf "game" "" with children := fields.map fun field => .leaf field.1 field.2 }

/-- A file with a game of the user, an element at the path of a game, the element of another one,
and one whose game is not rendered any more. -/
def mixedList : Gamelist where
  root := { Element.leaf "gameList" "" with children := [
    gameElement [("path", "./own.gba"), ("name", "My own")],
    gameElement [("path", "./ROMCloud/kirby.gba"), ("rating", "0.8")],
    gameElement [("path", "./ROMCloud/minish.gba"), (ownershipTag, minishId.text)],
    gameElement [("path", "./ROMCloud/gone.gba"), (ownershipTag, "beef")]] }
  tag_eq := rfl
  xmlText := by decide +kernel

/-- A file with the same marker on two elements. -/
def doubledList : Gamelist where
  root := { Element.leaf "gameList" "" with children := [
    gameElement [("path", "./ROMCloud/gone.gba"), (ownershipTag, "beef")],
    gameElement [("path", "./ROMCloud/gone.gba"), (ownershipTag, "beef")]] }
  tag_eq := rfl
  xmlText := by decide +kernel

end Runs

end RomCloud.Library
