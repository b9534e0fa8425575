import Mathlib.Data.List.Nodup
import Mathlib.Data.List.Perm.Basic

namespace RomCloud.Lib

/-!
# Lists that are edited by position

An edit that only appends leaves every element its position.  At its end, the elements at some
positions are removed.

* `removeAll` — the list without the elements at some positions;
* `filter_sublist_removeAll` — elements that stay where they are stay in order;
* `filterMap_removeAll_perm` — what a list holds, when it is known where each of its marks is;
* `nodup_filterMap_iff` — no two elements of a list have the same mark;
* `rel_of_pairwise_removeAll` — elements that stay are compared as the elements of the result.
-/

universe u v w

section RemoveAll

variable {α : Type u} {β : Type v} {γ : Type w}

/-- The elements at positions that are not listed. -/
def removeAll (l : List α) (stale : List ℕ) : List α :=
  (l.zipIdx.filter fun p => p.2 ∉ stale).map Prod.fst

theorem mem_removeAll {l : List α} {stale : List ℕ} {x : α} :
    x ∈ removeAll l stale ↔ ∃ i, l[i]? = some x ∧ i ∉ stale := by
  simp only [removeAll, List.mem_map, List.mem_filter, decide_eq_true_eq]
  constructor
  · rintro ⟨⟨y, i⟩, ⟨hmem, hstale⟩, rfl⟩
    exact ⟨i, List.mem_zipIdx_iff_getElem?.mp hmem, hstale⟩
  · rintro ⟨i, hget, hstale⟩
    exact ⟨(x, i), ⟨List.mem_zipIdx_iff_getElem?.mpr hget, hstale⟩, rfl⟩

/-- Elements that keep their positions, which are not removed, keep their order. -/
theorem filter_sublist_removeAll {old l : List α} {stale : List ℕ} {P : α → Bool}
    (h : ∀ i x, old[i]? = some x → P x = true → l[i]? = some x ∧ i ∉ stale) :
    (old.filter P).Sublist (removeAll l stale) := by
  suffices hoff : ∀ (old l : List α) (k : ℕ),
      (∀ i x, old[i]? = some x → P x = true → l[i]? = some x ∧ k + i ∉ stale) →
      (old.filter P).Sublist (((l.zipIdx k).filter fun p => p.2 ∉ stale).map Prod.fst) by
    exact hoff old l 0 (by simpa using h)
  intro old
  induction old with
  | nil => simp
  | cons x rest ih =>
    intro l k hkeep
    cases l with
    | nil =>
      have hnone : (x :: rest).filter P = [] := by
        rw [List.filter_eq_nil_iff]
        intro y hy hP
        obtain ⟨i, hi⟩ := List.getElem?_of_mem hy
        simpa using (hkeep i y hi hP).1
      rw [hnone]
      exact List.nil_sublist _
    | cons y tail =>
      have htail := ih tail (k + 1) fun i z hz hP => by
        have hnext := hkeep (i + 1) z (by simpa using hz) hP
        refine ⟨by simpa using hnext.1, ?_⟩
        have hadd : k + 1 + i = k + (i + 1) := by omega
        rw [hadd]
        exact hnext.2
      rw [List.zipIdx_cons]
      by_cases hP : P x = true
      · have hhead := hkeep 0 x (by simp) hP
        have heq : y = x := by simpa using hhead.1
        have hk : k ∉ stale := by simpa using hhead.2
        rw [List.filter_cons_of_pos hP, List.filter_cons_of_pos (by simpa using hk), List.map_cons]
        exact heq ▸ htail.cons_cons y
      · rw [List.filter_cons_of_neg hP]
        refine htail.trans ?_
        by_cases hk : k ∈ stale
        · rw [List.filter_cons_of_neg (by simpa using hk)]
        · rw [List.filter_cons_of_pos (by simpa using hk), List.map_cons]
          exact List.sublist_cons_self _ _

/-- The marks that `f` finds in what is left, with the positions of their elements. -/
private def marksAt (f : α → Option γ) (l : List α) (stale : List ℕ) : List (γ × ℕ) :=
  l.zipIdx.filterMap fun p => if p.2 ∈ stale then none else (f p.1).map fun c => (c, p.2)

private theorem filterMap_removeAll (f : α → Option γ) (l : List α) (stale : List ℕ) :
    (removeAll l stale).filterMap f = (marksAt f l stale).map Prod.fst := by
  rw [removeAll, marksAt, List.filterMap_map, List.filterMap_filter, List.map_filterMap]
  refine List.filterMap_congr fun p _ => ?_
  by_cases hp : p.2 ∈ stale
  · simp [hp]
  · simp [hp, Function.comp_def]

private theorem mem_marksAt {f : α → Option γ} {l : List α} {stale : List ℕ} {c : γ} {i : ℕ} :
    (c, i) ∈ marksAt f l stale ↔ i ∉ stale ∧ ∃ x, l[i]? = some x ∧ f x = some c := by
  rw [marksAt, List.mem_filterMap]
  constructor
  · rintro ⟨⟨x, j⟩, hmem, hmark⟩
    by_cases hj : j ∈ stale
    · simp [hj] at hmark
    · simp only [hj, if_false, Option.map_eq_some_iff, Prod.mk.injEq] at hmark
      obtain ⟨d, hd, rfl, rfl⟩ := hmark
      exact ⟨hj, x, List.mem_zipIdx_iff_getElem?.mp hmem, hd⟩
  · rintro ⟨hi, x, hget, hx⟩
    exact ⟨(x, i), List.mem_zipIdx_iff_getElem?.mpr hget, by simp [hi, hx]⟩

private theorem pairwise_lt_zipIdx (l : List α) : l.zipIdx.Pairwise fun p q => p.2 < q.2 := by
  rw [← List.pairwise_map (R := (· < ·)) (f := Prod.snd), List.zipIdx_map_snd]
  exact List.pairwise_lt_range'

private theorem marksAt_pairwise (f : α → Option γ) (l : List α) (stale : List ℕ) :
    (marksAt f l stale).Pairwise fun p q => p.2 < q.2 := by
  rw [marksAt, List.pairwise_filterMap]
  refine (pairwise_lt_zipIdx l).imp fun {p q} hlt c hc d hd => ?_
  by_cases hp : p.2 ∈ stale
  · simp [hp] at hc
  · by_cases hq : q.2 ∈ stale
    · simp [hq] at hd
    · simp only [hp, hq, if_false, Option.map_eq_some_iff] at hc hd
      obtain ⟨_, -, rfl⟩ := hc
      obtain ⟨_, -, rfl⟩ := hd
      exact hlt

/-- **The marks of an edited list.**  Where each of some things stands at a position of its own with
its mark, and no other element that is left has a mark, the marks are those of the things. -/
theorem filterMap_removeAll_perm {f : α → Option γ} {l : List α} {stale : List ℕ}
    {placed : List (β × ℕ)} {mark : β → γ} (hnd : (placed.map Prod.snd).Nodup)
    (hplaced : ∀ p ∈ placed, p.2 ∉ stale ∧ ∃ x, l[p.2]? = some x ∧ f x = some (mark p.1))
    (hothers : ∀ i x c, l[i]? = some x → i ∉ stale → f x = some c → ∃ p ∈ placed, p.2 = i) :
    ((removeAll l stale).filterMap f).Perm (placed.map fun p => mark p.1) := by
  have hperm : (marksAt f l stale).Perm (placed.map fun p => (mark p.1, p.2)) := by
    rw [List.perm_ext_iff_of_nodup]
    · rintro ⟨c, i⟩
      rw [mem_marksAt, List.mem_map]
      constructor
      · rintro ⟨hi, x, hget, hx⟩
        obtain ⟨p, hp, rfl⟩ := hothers i x c hget hi hx
        obtain ⟨-, y, hy, hmark⟩ := hplaced p hp
        have hxy : x = y := Option.some.inj (hget.symm.trans hy)
        rw [hxy, hmark, Option.some.injEq] at hx
        exact ⟨p, hp, by rw [hx]⟩
      · rintro ⟨p, hp, heq⟩
        cases heq
        exact hplaced p hp
    · exact (marksAt_pairwise f l stale).imp fun {p q} hlt heq => absurd hlt (by simp [heq])
    · refine List.Nodup.of_map Prod.snd ?_
      rw [List.map_map]
      exact hnd
  rw [filterMap_removeAll]
  simpa [List.map_map, Function.comp_def] using hperm.map Prod.fst

/-- Two marked elements that are left, in the order of their positions. -/
theorem rel_of_pairwise_removeAll {R : γ → γ → Prop} {f : α → Option γ} {l : List α}
    {stale : List ℕ} (h : ((removeAll l stale).filterMap f).Pairwise R) {i j : ℕ} {x y : α} {c d : γ}
    (hij : i < j) (hi : i ∉ stale) (hx : l[i]? = some x) (hc : f x = some c) (hj : j ∉ stale)
    (hy : l[j]? = some y) (hd : f y = some d) : R c d := by
  rw [filterMap_removeAll, List.pairwise_map] at h
  have hboth := h.and (marksAt_pairwise f l stale)
  have hci : (c, i) ∈ marksAt f l stale := mem_marksAt.mpr ⟨hi, x, hx, hc⟩
  have hdj : (d, j) ∈ marksAt f l stale := mem_marksAt.mpr ⟨hj, y, hy, hd⟩
  obtain ⟨m, hm, hcm⟩ := List.getElem_of_mem hci
  obtain ⟨n, hn, hdn⟩ := List.getElem_of_mem hdj
  rw [List.pairwise_iff_getElem] at hboth
  rcases Nat.lt_trichotomy m n with hlt | heq | hgt
  · simpa [hcm, hdn] using (hboth m n hm hn hlt).1
  · subst heq
    rw [hcm] at hdn
    cases hdn
    exact absurd hij (Nat.lt_irrefl i)
  · have hback := (hboth n m hn hm hgt).2
    rw [hcm, hdn] at hback
    exact absurd hback (by simpa using Nat.le_of_lt hij)

/-- No two marks of a list are the same. -/
theorem nodup_filterMap_iff {f : α → Option γ} {l : List α} :
    (l.filterMap f).Nodup ↔ ∀ (i j : ℕ) (x y : α) (c : γ), l[i]? = some x → l[j]? = some y →
      f x = some c → f y = some c → i = j := by
  rw [List.Nodup, List.pairwise_filterMap, List.pairwise_iff_getElem]
  constructor
  · intro h i j x y c hx hy hcx hcy
    obtain ⟨hi, rfl⟩ := List.getElem?_eq_some_iff.mp hx
    obtain ⟨hj, rfl⟩ := List.getElem?_eq_some_iff.mp hy
    rcases Nat.lt_trichotomy i j with hlt | heq | hgt
    · exact absurd rfl (h i j hi hj hlt c hcx c hcy)
    · exact heq
    · exact absurd rfl (h j i hj hi hgt c hcy c hcx)
  · rintro h i j hi hj hlt c hc d hd rfl
    have heq := h i j _ _ c (List.getElem?_eq_getElem hi) (List.getElem?_eq_getElem hj) hc hd
    omega

end RemoveAll

end RomCloud.Lib
