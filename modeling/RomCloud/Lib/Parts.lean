import Mathlib.Logic.Function.Basic
import RomCloud.Lib.Fault

namespace RomCloud.Lib

/-!
# Programs on the parts of a product

A state that is a family of parts, and programs that each work on one of them.

* `Within` — a triple with one assertion for every way a run can be cut short;
* `Prog.part` — a program on one part, in the whole;
* `Within.collect_parts`, `Within.forEach_parts` — loops over different parts: what each turn makes
  of its own part it makes of that part of the whole, and the other parts stay as they are.
-/

section Within

variable {S ξ ω σ α β : Type} {env : Env S ξ} {P P' : σ → Prop} {Q Q' : α → σ → Prop}
variable {X X' : σ → Prop} {R : β → σ → Prop} {m : Prog S ξ ω σ α}

/-- From `P` a program returns with `Q`; however else it ends, `X` holds then. -/
abbrev Within (env : Env S ξ) (X P : σ → Prop) (m : Prog S ξ ω σ α) (Q : α → σ → Prop) : Prop :=
  Triple env P m Q (fun _ => X) X

namespace Within

theorem pure (a : α) (h : ∀ s, P s → Q a s) :
    Within env X P (Pure.pure a : Prog S ξ ω σ α) Q := Triple.pure a h

theorem throw (e : Exn ξ ω) (h : ∀ s, P s → X s) :
    Within env X P (Prog.throw e : Prog S ξ ω σ α) Q := Triple.throw e h

theorem weaken (h : Within env X P m Q) (hP : ∀ s, P' s → P s) (hQ : ∀ a s, Q a s → Q' a s)
    (hX : ∀ s, X s → X' s) : Within env X' P' m Q' :=
  Triple.weaken h hP hQ (fun _ => hX) hX

theorem bind {f : α → Prog S ξ ω σ β} (hm : Within env X P m Q)
    (hf : ∀ a, Within env X (Q a) (f a) R) : Within env X P (m >>= f) R := Triple.bind hm hf

/-- One step, from states that may also be ends of the run. -/
theorem step {site : S} {act : σ → Except ω (α × σ)} (hX : ∀ s, P s → X s)
    (hact : ∀ s a t, P s → act s = .ok (a, t) → Q a t) :
    Within env X P (Prog.step site act) Q := by
  refine Triple.step (fun s hs _ => hX s hs) (fun s _ hs _ => hX s hs) fun s hs => ?_
  cases h : act s with
  | ok r => exact hact s r.1 r.2 hs h
  | error w => exact hX s hs

/-- One step that is not disturbed: only the program itself can refuse it. -/
theorem stepFree {site : S} {act : σ → Except ω (α × σ)} (hfree : ∀ n, env n site = none)
    (hact : ∀ s, P s → ∃ a t, act s = .ok (a, t) ∧ Q a t) :
    Within env X P (Prog.step site act) Q := by
  refine Triple.step ?_ ?_ fun s hs => ?_
  · rintro s hs ⟨n, hn⟩
    rw [hfree n] at hn
    exact absurd hn (by simp)
  · rintro s x hs ⟨n, hn⟩
    rw [hfree n] at hn
    exact absurd hn (by simp)
  · obtain ⟨a, t, hok, hq⟩ := hact s hs
    rw [hok]
    exact hq

/-- It is enough to consider each state of the precondition by itself. -/
theorem ofState (h : ∀ s₀, P s₀ → Within env X (fun s => s = s₀) m Q) : Within env X P m Q :=
  Triple.ofState h

theorem tryCatch {handler : Exn ξ ω → Prog S ξ ω σ α} (hm : Within env X P m Q)
    (hh : ∀ e, Within env X X (handler e) Q) : Within env X P (Prog.tryCatch m handler) Q :=
  Triple.tryCatch hm hh

end Within

end Within

/-- What a relation says of its first argument alone, it says of every member of a list. -/
theorem forall_of_forall₂ {ι β : Type} {p : ι → Prop} {xs : List ι} {ys : List β}
    (h : List.Forall₂ (fun i _ => p i) xs ys) : ∀ i ∈ xs, p i := by
  induction h with
  | nil => simp
  | cons h _ ih => exact List.forall_mem_cons.mpr ⟨h, ih⟩

/-- A loop collects nothing. -/
theorem Prog.forEach_eq_collect {S ξ ω σ ι : Type} (body : ι → Prog S ξ ω σ Unit) (xs : List ι) :
    Prog.forEach body xs = (Prog.collect body xs >>= fun _ => pure ()) := by
  induction xs with
  | nil => rfl
  | cons x rest ih =>
    funext env n s
    have hrest : ∀ n s, Prog.forEach body rest env n s
        = (Prog.collect body rest >>= fun _ => pure ()) env n s := fun n s => by rw [ih]
    simp only [Prog.forEach, Prog.collect, bind, Prog.bind] at hrest ⊢
    generalize body x env n s = r
    obtain ⟨o, n', t⟩ := r
    cases o with
    | done a =>
      simp only [hrest]
      generalize Prog.collect body rest env n' t = r
      obtain ⟨o, n'', u⟩ := r
      cases o <;> rfl
    | raised e => rfl
    | crashed => rfl

/-! ### Parts -/

section Parts

variable {S ξ ω τ α β ι κ : Type} [DecidableEq κ] {env : Env S ξ}

/-- A program on the part at a key. -/
def Prog.part (k : κ) (m : Prog S ξ ω τ α) : Prog S ξ ω (κ → τ) α :=
  Prog.zoom id (fun s => s k) (fun t s => Function.update s k t) m

namespace Within

/-- A program on one part, in the whole. -/
theorem part {m : Prog S ξ ω τ α} {k : κ} {X : τ → Prop} {Q : α → τ → Prop} {s₀ : κ → τ}
    (h : Within env X (fun t => t = s₀ k) m Q) :
    Within env (fun s => X (s k) ∧ ∀ l, l ≠ k → s l = s₀ l) (fun s => s = s₀) (Prog.part k m)
      (fun a s => Q a (s k) ∧ ∀ l, l ≠ k → s l = s₀ l) := by
  have hothers : ∀ (t : τ) (l : κ), l ≠ k → Function.update s₀ k t l = s₀ l :=
    fun t l hl => Function.update_of_ne hl t s₀
  refine Triple.zoom fun s hs => ?_
  rw [hs]
  refine Triple.weaken h (fun _ ht => ht) ?_ ?_ ?_
  · intro a t ht
    rw [Function.update_self]
    exact ⟨ht, hothers t⟩
  · intro _ t ht
    rw [Function.update_self]
    exact ⟨ht, hothers t⟩
  · intro t ht
    rw [Function.update_self]
    exact ⟨ht, hothers t⟩

variable {key : ι → κ} {xs : List ι} {s₀ : κ → τ} {X : ι → τ → Prop}

/-- How a loop over different parts can be cut short. -/
def Cut (key : ι → κ) (X : ι → τ → Prop) (s₀ : κ → τ) (xs : List ι) (s : κ → τ) : Prop :=
  (∀ i ∈ xs, X i (s (key i))) ∧ ∀ k, k ∉ xs.map key → s k = s₀ k

omit [DecidableEq κ] in
/-- The first turn has been taken, and the rest was cut short. -/
private theorem cut_cons {x : ι} {s₁ s : κ → τ} (hx : key x ∉ xs.map key) (hX : X x (s₁ (key x)))
    (hothers : ∀ l, l ≠ key x → s₁ l = s₀ l) (h : Cut key X s₁ xs s) :
    Cut key X s₀ (x :: xs) s := by
  refine ⟨?_, ?_⟩
  · intro i hi
    rcases List.mem_cons.mp hi with rfl | hi
    · rw [h.2 _ hx]
      exact hX
    · exact h.1 i hi
  · intro k hk
    rw [List.map_cons, List.mem_cons, not_or] at hk
    rw [h.2 k hk.2, hothers k hk.1]

/-- **A loop over different parts**, which collects results. -/
theorem collect_parts {body : ι → Prog S ξ ω τ β} {R : ι → β → τ → Prop}
    (hnodup : (xs.map key).Nodup)
    (hbody : ∀ i ∈ xs, Within env (X i) (fun t => t = s₀ (key i)) (body i) (R i))
    (hdone : ∀ i ∈ xs, ∀ b t, R i b t → X i t) (hstart : ∀ i ∈ xs, X i (s₀ (key i))) :
    Within env (Cut key X s₀ xs) (fun s => s = s₀)
      (Prog.collect (fun i => Prog.part (key i) (body i)) xs)
      (fun bs s => List.Forall₂ (fun i b => R i b (s (key i))) xs bs
        ∧ ∀ k, k ∉ xs.map key → s k = s₀ k) := by
  induction xs generalizing s₀ with
  | nil =>
    refine Within.pure [] fun s hs => ?_
    rw [hs]
    exact ⟨.nil, fun _ _ => rfl⟩
  | cons x rest ih =>
    rw [List.map_cons, List.nodup_cons] at hnodup
    -- the parts of the later turns are not touched by the first one
    have hlater : ∀ s₁ : κ → τ, (∀ l, l ≠ key x → s₁ l = s₀ l) → ∀ i ∈ rest,
        s₁ (key i) = s₀ (key i) := by
      intro s₁ hothers i hi
      refine hothers _ fun heq => hnodup.1 ?_
      rw [← heq]
      exact List.mem_map_of_mem hi
    have hfirst := Within.part (hbody x List.mem_cons_self)
    refine Within.bind (hfirst.weaken (fun _ h => h) (fun _ _ h => h) ?_) fun b => ?_
    · intro s hs
      refine ⟨?_, ?_⟩
      · intro i hi
        rcases List.mem_cons.mp hi with rfl | hi
        · exact hs.1
        · rw [hlater s hs.2 i hi]
          exact hstart i (List.mem_cons_of_mem _ hi)
      · intro k hk
        rw [List.map_cons, List.mem_cons, not_or] at hk
        exact hs.2 k hk.1
    · refine Within.ofState fun s₁ hs₁ => ?_
      have hX : X x (s₁ (key x)) := hdone x List.mem_cons_self b _ hs₁.1
      refine Within.bind (Q := fun bs s => List.Forall₂ (fun i b => R i b (s (key i))) rest bs
        ∧ ∀ k, k ∉ rest.map key → s k = s₁ k) ?_ fun bs => ?_
      · refine (@ih s₁ hnodup.2 ?_ ?_ ?_).weaken (fun _ h => h) (fun _ _ h => h) ?_
        · intro i hi
          rw [hlater s₁ hs₁.2 i hi]
          exact hbody i (List.mem_cons_of_mem _ hi)
        · exact fun i hi => hdone i (List.mem_cons_of_mem _ hi)
        · intro i hi
          rw [hlater s₁ hs₁.2 i hi]
          exact hstart i (List.mem_cons_of_mem _ hi)
        · exact fun s hs => cut_cons hnodup.1 hX hs₁.2 hs
      · refine Within.pure _ fun s hs => ⟨.cons ?_ hs.1, ?_⟩
        · rw [hs.2 _ hnodup.1]
          exact hs₁.1
        · intro k hk
          rw [List.map_cons, List.mem_cons, not_or] at hk
          rw [hs.2 k hk.2, hs₁.2 k hk.1]

/-- The same, without results. -/
theorem forEach_parts {body : ι → Prog S ξ ω τ Unit} {R : ι → τ → Prop}
    (hnodup : (xs.map key).Nodup)
    (hbody : ∀ i ∈ xs, Within env (X i) (fun t => t = s₀ (key i)) (body i) (fun _ => R i))
    (hdone : ∀ i ∈ xs, ∀ t, R i t → X i t) (hstart : ∀ i ∈ xs, X i (s₀ (key i))) :
    Within env (Cut key X s₀ xs) (fun s => s = s₀)
      (Prog.forEach (fun i => Prog.part (key i) (body i)) xs)
      (fun _ s => (∀ i ∈ xs, R i (s (key i))) ∧ ∀ k, k ∉ xs.map key → s k = s₀ k) := by
  rw [Prog.forEach_eq_collect]
  refine Within.bind (collect_parts (R := fun i _ => R i) hnodup hbody
    (fun i hi _ => hdone i hi) hstart) fun bs => ?_
  refine Within.pure () fun s hs => ⟨?_, hs.2⟩
  intro i hi
  exact forall_of_forall₂ (p := fun i => R i (s (key i))) hs.1 i hi

end Within

end Parts

end RomCloud.Lib
