import Mathlib.Data.Set.Basic
import Mathlib.Logic.Relation
import Mathlib.Order.Bounds.Defs

namespace RomCloud.Lib

open Relation

/-!
# What can be reached

A relation and some roots, and the least set that holds the roots and, with each member, all it is
related to.

* `Closed` — a set that holds the roots and is not left by the relation;
* `Reached` — what a path leads to from a root, the least closed set;
* `Cyclic` — a path that comes back, somewhere in the reached part;
* `not_cyclic` — a relation that can be followed only finitely often from the roots has no cycle.
-/

variable {α : Type*} {r : α → α → Prop} {roots S : Set α}

/-- A set that holds the roots, and with each member all it is related to. -/
structure Closed (r : α → α → Prop) (roots S : Set α) : Prop where
  root : ∀ {p}, p ∈ roots → p ∈ S
  step : ∀ {p q}, p ∈ S → r p q → q ∈ S

/-- What a path leads to from a root. -/
def Reached (r : α → α → Prop) (roots : Set α) : Set α :=
  {q | ∃ p ∈ roots, ReflTransGen r p q}

/-- A path that comes back to where it began, in the part that is reached. -/
def Cyclic (r : α → α → Prop) (roots : Set α) : Prop :=
  ∃ p ∈ Reached r roots, TransGen r p p

theorem Reached.root {p : α} (h : p ∈ roots) : p ∈ Reached r roots := ⟨p, h, .refl⟩

theorem Reached.step {p q : α} (h : p ∈ Reached r roots) (hr : r p q) : q ∈ Reached r roots := by
  obtain ⟨root, hroot, hpath⟩ := h
  exact ⟨root, hroot, hpath.tail hr⟩

theorem Closed.of_path (h : Closed r roots S) {p q : α} (hp : p ∈ S) (hpath : ReflTransGen r p q) :
    q ∈ S := by
  induction hpath with
  | refl => exact hp
  | tail _ hr ih => exact h.step ih hr

theorem closed_reached : Closed r roots (Reached r roots) :=
  ⟨fun h => Reached.root h, fun h hr => Reached.step h hr⟩

/-- A closed set of which every member is reached is the least closed set. -/
theorem Closed.isLeast (h : Closed r roots S) (hreached : ∀ p ∈ S, p ∈ Reached r roots) :
    IsLeast {T | Closed r roots T} S := by
  refine ⟨h, fun T hT p hp => ?_⟩
  obtain ⟨root, hroot, hpath⟩ := hreached p hp
  exact Closed.of_path hT (Closed.root hT hroot) hpath

theorem Closed.eq_reached (h : Closed r roots S) (hreached : ∀ p ∈ S, p ∈ Reached r roots) :
    S = Reached r roots := by
  refine Set.Subset.antisymm hreached ?_
  rintro q ⟨root, hroot, hpath⟩
  exact h.of_path (h.root hroot) hpath

/-- What can be followed only finitely often does not come back. -/
theorem not_transGen_self {p : α} (h : Acc (flip r) p) : ¬ TransGen r p p := by
  induction h with
  | intro p _ ih =>
    intro hcycle
    -- the first step of the cycle begins another one
    obtain ⟨q, hstep, hback⟩ := TransGen.head'_iff.mp hcycle
    exact ih q hstep (TransGen.trans_right hback (TransGen.single hstep))

theorem Acc.of_path {p q : α} (h : Acc (flip r) p) (hpath : ReflTransGen r p q) :
    Acc (flip r) q := by
  induction hpath with
  | refl => exact h
  | tail _ hr ih => exact ih.inv hr

/-- No cycle is reached from roots that the relation can be followed from only finitely often. -/
theorem not_cyclic (h : ∀ p ∈ roots, Acc (flip r) p) : ¬ Cyclic r roots := by
  rintro ⟨p, ⟨root, hroot, hpath⟩, hcycle⟩
  exact not_transGen_self (Acc.of_path (h root hroot) hpath) hcycle

end RomCloud.Lib
