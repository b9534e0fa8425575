import Mathlib.Logic.Basic
import Mathlib.Data.Option.Basic
import Mathlib.Data.List.Basic

namespace RomCloud.Lib

/-!
# Effects that are cut short

A **call** does a list of effects, one after the other.  It may stop before any of them, an effect
may raise, and the one it stops at may be left half done.

* `Effects` — what an effect does to the state, and what it leaves when it is torn;
* `exec`, `whole` — a call up to where it stops, and a call that does all of its effects;
* `trace` — the effects that a call has begun, each with the state it began in;
* `Chain` — a guard of every effect, in the state that the effects before it leave;
* `exec_invariant`, `chain_append` — the rule of invariants, and the guard of two calls in a row.
-/

universe u v

/-- The effects `ε` of a program on the states `σ`: an effect that raises has no result. -/
structure Effects (σ : Type u) (ε : Type v) where
  run : ε → σ → Option σ
  tear : ε → σ → σ

namespace Effects

variable {σ : Type u} {ε : Type v} (E : Effects σ ε)

/-- The state after the first `n` effects; the next one is left half done where it is `torn`. -/
def exec : List ε → ℕ → Bool → σ → σ
  | [], _, _, s => s
  | e :: _, 0, torn, s => if torn then E.tear e s else s
  | e :: rest, n + 1, torn, s =>
    match E.run e s with
    | none => s
    | some t => exec rest n torn t

/-- The state after all of the effects, if none of them raises. -/
def whole : List ε → σ → Option σ
  | [], s => some s
  | e :: rest, s => (E.run e s).bind (whole rest)

@[simp] theorem whole_nil (s : σ) : E.whole [] s = some s := rfl

@[simp] theorem whole_cons (e : ε) (rest : List ε) (s : σ) :
    E.whole (e :: rest) s = (E.run e s).bind (E.whole rest) := rfl

/-- The effects that are begun, each with the state it is begun in. -/
def trace : List ε → ℕ → Bool → σ → List (ε × σ)
  | [], _, _, _ => []
  | e :: _, 0, torn, s => if torn then [(e, s)] else []
  | e :: rest, n + 1, torn, s =>
    (e, s) :: match E.run e s with
      | none => []
      | some t => trace rest n torn t

/-- Every effect meets its guard, in the state that the effects before it leave. -/
def Chain (guard : ε → σ → Prop) : List ε → σ → Prop
  | [], _ => True
  | e :: rest, s => guard e s ∧ ∀ t, E.run e s = some t → Chain guard rest t

@[simp] theorem exec_zero (effects : List ε) (s : σ) : E.exec effects 0 false s = s := by
  cases effects <;> rfl

variable {E} {guard : ε → σ → Prop} {effects more : List ε} {n : ℕ} {torn : Bool} {s t : σ}

/-- **Invariants.** What every guarded effect keeps, done or torn, a call keeps wherever it
    stops. -/
theorem exec_invariant {I : σ → Prop}
    (hrun : ∀ e s t, guard e s → I s → E.run e s = some t → I t)
    (htear : torn = true → ∀ e s, guard e s → I s → I (E.tear e s))
    (hchain : E.Chain guard effects s) (hs : I s) : I (E.exec effects n torn s) := by
  induction effects generalizing n s with
  | nil => exact hs
  | cons e rest ih =>
    obtain ⟨hguard, hrest⟩ := hchain
    match n with
    | 0 =>
      rw [exec]
      split
      · next h => exact htear h e s hguard hs
      · exact hs
    | n + 1 =>
      rw [exec]
      split
      · exact hs
      · next t ht => exact ih (hrest t ht) (hrun e s t hguard hs ht)

/-- Every effect that a guarded call begins meets its guard. -/
theorem guard_of_mem_trace (hchain : E.Chain guard effects s) {begun : ε × σ}
    (h : begun ∈ E.trace effects n torn s) : guard begun.1 begun.2 := by
  induction effects generalizing n s with
  | nil => exact absurd h (by simp [trace])
  | cons e rest ih =>
    obtain ⟨hguard, hrest⟩ := hchain
    match n with
    | 0 =>
      rw [trace] at h
      split at h
      · cases List.mem_singleton.mp h
        exact hguard
      · exact absurd h (by simp)
    | n + 1 =>
      rw [trace] at h
      rcases List.mem_cons.mp h with heq | hlater
      · cases heq
        exact hguard
      · split at hlater
        · exact absurd hlater (by simp)
        · next t ht => exact ih (hrest t ht) hlater

theorem whole_append : E.whole (effects ++ more) s = (E.whole effects s).bind (E.whole more) := by
  induction effects generalizing s with
  | nil => rfl
  | cons e rest ih =>
    show (E.run e s).bind _ = ((E.run e s).bind _).bind _
    rw [Option.bind_assoc]
    exact Option.bind_congr fun t _ => ih

/-- The guards of two calls in a row. -/
theorem chain_append : E.Chain guard (effects ++ more) s
    ↔ E.Chain guard effects s ∧ ∀ t, E.whole effects s = some t → E.Chain guard more t := by
  induction effects generalizing s with
  | nil => simp [Chain, whole]
  | cons e rest ih =>
    constructor
    · rintro ⟨hguard, hrest⟩
      refine ⟨⟨hguard, fun t ht => (ih.mp (hrest t ht)).1⟩, fun t ht => ?_⟩
      obtain ⟨mid, hmid, ht⟩ := Option.bind_eq_some_iff.mp ht
      exact (ih.mp (hrest mid hmid)).2 t ht
    · rintro ⟨⟨hguard, hrest⟩, hmore⟩
      refine ⟨hguard, fun mid hmid => ih.mpr ⟨hrest mid hmid, fun t ht => hmore t ?_⟩⟩
      exact Option.bind_eq_some_iff.mpr ⟨mid, hmid, ht⟩

/-- Guards that follow from what the effects keep. -/
theorem chain_of_forall {I : σ → Prop} (hs : I s)
    (hkeep : ∀ e ∈ effects, ∀ s t, I s → E.run e s = some t → I t)
    (hguard : ∀ e ∈ effects, ∀ s, I s → guard e s) : E.Chain guard effects s := by
  induction effects generalizing s with
  | nil => exact trivial
  | cons e rest ih =>
    refine ⟨hguard e List.mem_cons_self s hs, fun t ht => ?_⟩
    exact ih (hkeep e List.mem_cons_self s t hs ht)
      (fun f hf => hkeep f (List.mem_cons_of_mem _ hf))
      (fun f hf => hguard f (List.mem_cons_of_mem _ hf))

theorem whole_invariant {I : σ → Prop} (hs : I s)
    (hkeep : ∀ e ∈ effects, ∀ s t, I s → E.run e s = some t → I t)
    (h : E.whole effects s = some t) : I t := by
  induction effects generalizing s with
  | nil =>
    cases h
    exact hs
  | cons e rest ih =>
    obtain ⟨mid, hmid, h⟩ := Option.bind_eq_some_iff.mp h
    exact ih (hkeep e List.mem_cons_self s mid hs hmid)
      (fun f hf => hkeep f (List.mem_cons_of_mem _ hf)) h

/-- A call that none of its effects stops does all of them. -/
theorem exec_of_whole (h : E.whole effects s = some t) (hn : effects.length ≤ n) :
    E.exec effects n torn s = t := by
  induction effects generalizing n s with
  | nil =>
    cases h
    rfl
  | cons e rest ih =>
    obtain ⟨mid, hmid, h⟩ := Option.bind_eq_some_iff.mp h
    match n with
    | 0 => exact absurd hn (by simp)
    | n + 1 =>
      rw [exec, hmid]
      exact ih h (by simpa using hn)

end Effects

end RomCloud.Lib
