import Mathlib.Logic.Basic
import Mathlib.Data.Option.Basic
import Mathlib.Data.List.Basic

namespace RomCloud.Lib

/-!
# Machines

A **machine** has states it may start in and a partial step function: an action that is not
possible in a state has no result there.

* `Machine.Reach` — the states of the runs whose steps all meet a condition;
* `Reach.invariant` — what holds at the start and is kept by every allowed step holds in every
  state reached;
* `Machine.After` — the states after given actions, each of them allowed;
* `Machine.drive`, `reach_of_drive` — a run as a computation, from a list of actions;
* `Machine.watch` — the machine with a history that the actions write and no step reads.
-/

universe u v w

/-- A machine with states `σ` and actions `α`. -/
structure Machine (σ : Type u) (α : Type v) where
  init : σ → Prop
  step : σ → α → Option σ

namespace Machine

variable {σ : Type u} {α : Type v} {M : Machine σ α} {allowed wider : σ → α → Prop} {s t : σ}

/-- The states of the runs whose steps are all allowed. -/
inductive Reach (M : Machine σ α) (allowed : σ → α → Prop) : σ → Prop
  | init {s : σ} : M.init s → Reach M allowed s
  | step {s t : σ} {a : α} : Reach M allowed s → allowed s a → M.step s a = some t →
      Reach M allowed t

/-- Every step is allowed. -/
def anyStep (_ : σ) (_ : α) : Prop := True

instance (s : σ) (a : α) : Decidable (anyStep s a) := .isTrue trivial

/-- **Invariants.** What every start has and every allowed step keeps, every state reached has. -/
theorem Reach.invariant {I : σ → Prop} (hinit : ∀ s, M.init s → I s)
    (hstep : ∀ s a t, Reach M allowed s → I s → allowed s a → M.step s a = some t → I t)
    (h : Reach M allowed s) : I s := by
  induction h with
  | init h => exact hinit _ h
  | step hs hallowed hst ih => exact hstep _ _ _ hs ih hallowed hst

/-- A wider condition allows more runs. -/
theorem Reach.mono (hwide : ∀ s a, allowed s a → wider s a) (h : Reach M allowed s) :
    Reach M wider s := by
  induction h with
  | init h => exact .init h
  | step _ hallowed hst ih => exact .step ih (hwide _ _ hallowed) hst

theorem Reach.any (h : Reach M allowed s) : Reach M anyStep s := h.mono fun _ _ _ => trivial

/-- From the first state, the given actions lead to the second one, and all of them are allowed. -/
def After (M : Machine σ α) (allowed : σ → α → Prop) : List α → σ → σ → Prop
  | [], s, t => t = s
  | a :: rest, s, t => allowed s a ∧ ∃ mid, M.step s a = some mid ∧ After M allowed rest mid t

theorem Reach.after {actions : List α} (h : Reach M allowed s)
    (hafter : M.After allowed actions s t) : Reach M allowed t := by
  induction actions generalizing s with
  | nil =>
    cases hafter
    exact h
  | cons a rest ih =>
    obtain ⟨hallowed, mid, hmid, hrest⟩ := hafter
    exact ih (h.step hallowed hmid) hrest

/-! ### Runs as computations -/

/-- The state after a list of actions, as long as each is possible and allowed. -/
def drive (M : Machine σ α) (allowed : σ → α → Prop) [∀ s a, Decidable (allowed s a)] (s : σ) :
    List α → Option σ
  | [] => some s
  | a :: rest => if allowed s a then (M.step s a).bind (M.drive allowed · rest) else none

theorem reach_of_drive [∀ s a, Decidable (allowed s a)] {actions : List α}
    (h : Reach M allowed s) (hdrive : M.drive allowed s actions = some t) :
    Reach M allowed t := by
  induction actions generalizing s with
  | nil =>
    cases hdrive
    exact h
  | cons a rest ih =>
    simp only [drive] at hdrive
    split at hdrive
    · next hallowed =>
      obtain ⟨mid, hmid, hrest⟩ := Option.bind_eq_some_iff.mp hdrive
      exact ih (h.step hallowed hmid) hrest
    · exact absurd hdrive (by simp)

/-- A run that ends in a state with a property. -/
theorem exists_reach_of_drive [∀ s a, Decidable (allowed s a)] {actions : List α}
    {check : σ → Bool} (h : Reach M allowed s)
    (hdrive : (M.drive allowed s actions).any check = true) :
    ∃ t, Reach M allowed t ∧ check t = true := by
  obtain ⟨t, ht, hcheck⟩ := (Option.any_eq_true _ _).mp hdrive
  exact ⟨t, reach_of_drive h ht, hcheck⟩

/-! ### Histories -/

section Watch

variable {η : Type w} (M : Machine σ α) (first : η) (after : η → σ → α → η)

/-- The machine with a history: each action adds to it what it did in its state. -/
def watch : Machine (σ × η) α where
  init p := M.init p.1 ∧ p.2 = first
  step p a := (M.step p.1 a).map (·, after p.2 p.1 a)

theorem watch_step_eq_some_iff {p q : σ × η} {a : α} :
    (M.watch first after).step p a = some q
      ↔ M.step p.1 a = some q.1 ∧ q.2 = after p.2 p.1 a := by
  obtain ⟨t, k⟩ := q
  show (M.step p.1 a).map (·, after p.2 p.1 a) = some (t, k) ↔ _
  rw [Option.map_eq_some_iff]
  constructor
  · rintro ⟨_, hstep, heq⟩
    cases heq
    exact ⟨hstep, rfl⟩
  · rintro ⟨hstep, rfl⟩
    exact ⟨t, hstep, rfl⟩

/-- A run of the watched machine is a run of the machine. -/
theorem Reach.unwatch {M : Machine σ α} {first : η} {after : η → σ → α → η}
    {allowed : σ × η → α → Prop} {allowed' : σ → α → Prop}
    (hallowed : ∀ p a, allowed p a → allowed' p.1 a) {p : σ × η}
    (h : Reach (M.watch first after) allowed p) : Reach M allowed' p.1 := by
  induction h with
  | init h => exact .init h.1
  | step _ ha hst ih =>
    exact ih.step (hallowed _ _ ha) ((M.watch_step_eq_some_iff first after).mp hst).1

end Watch

end Machine

end RomCloud.Lib
