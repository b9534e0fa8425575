import Mathlib.Data.List.Basic
import Mathlib.Data.List.Forall2
import Mathlib.Tactic.Common
import RomCloud.Lib.Check

namespace RomCloud.Lib

/-!
# Programs under exceptions and crashes

A **program** is a state transformer whose every step may fail.  An environment decides, for the
`n`-th step of a run and the site the step belongs to, whether the step is performed, raises an
exception from outside, or never happens because the process crashes.  A theorem about every
environment is a theorem about every point of failure; a condition on an environment says at
which sites failures are assumed away.

* `Prog` — programs, with `step`, `silent`, `tryCatch`, `tryFinally`, `forEach`, `collect`,
  `zoom`;
* `Triple` — a Hoare triple with three postconditions: of a return, of an exception and of a
  crash; the crash postcondition holds at every state the run can be stopped in;
* `Firm` — programs that fail only when the environment makes them;
* `Exact` — programs that succeed exactly on a condition, when the environment lets them;
* `Keeps` — an invariant of every step, however the run ends;
* `Restarted` — the states after any number of interrupted runs of a recovery program.
-/

universe u

/-- What an environment does to a step instead of performing it. -/
inductive Fault (ξ : Type)
  | raise (x : ξ)
  | crash
deriving DecidableEq

/-- An environment: what happens to the `n`-th step of a run, at a site. -/
abbrev Env (S ξ : Type) := ℕ → S → Option (Fault ξ)

/-- An exception: one from outside, or one the program raises itself. -/
inductive Exn (ξ ω : Type)
  | external (x : ξ)
  | own (w : ω)
deriving DecidableEq

/-- The exception, its own kind translated. -/
def Exn.mapOwn {ξ ω ω' : Type} (f : ω → ω') : Exn ξ ω → Exn ξ ω'
  | .external x => .external x
  | .own w => .own (f w)

/-- How a run ends. -/
inductive Outcome (ε : Type) (α : Type u)
  | done (a : α)
  | raised (e : ε)
  | crashed
deriving DecidableEq

/-- A program with sites `S`, outside exceptions `ξ`, own exceptions `ω` and state `σ`: from an
    environment, a clock and a state, how the run ends, the clock and the state then. -/
def Prog (S ξ ω : Type) (σ : Type) (α : Type u) :=
  Env S ξ → ℕ → σ → Outcome (Exn ξ ω) α × ℕ × σ

namespace Prog

variable {S ξ ω σ τ : Type} {α β ι : Type}

/-- How a run from a state ends, and in which state. -/
def run (m : Prog S ξ ω σ α) (env : Env S ξ) (s : σ) : Outcome (Exn ξ ω) α × σ :=
  ((m env 0 s).1, (m env 0 s).2.2)

protected def pure (a : α) : Prog S ξ ω σ α := fun _ n s => (.done a, n, s)

protected def bind (m : Prog S ξ ω σ α) (f : α → Prog S ξ ω σ β) : Prog S ξ ω σ β :=
  fun env n s =>
    match m env n s with
    | (.done a, n', s') => f a env n' s'
    | (.raised e, n', s') => (.raised e, n', s')
    | (.crashed, n', s') => (.crashed, n', s')

instance : Monad (Prog S ξ ω σ) where
  pure := Prog.pure
  bind := Prog.bind

/-- One atomic step at a site. -/
def step (site : S) (act : σ → Except ω (α × σ)) : Prog S ξ ω σ α := fun env n s =>
  match env n site with
  | some .crash => (.crashed, n + 1, s)
  | some (.raise x) => (.raised (.external x), n + 1, s)
  | none =>
    match act s with
    | .ok (a, s') => (.done a, n + 1, s')
    | .error w => (.raised (.own w), n + 1, s)

/-- A change of the process's own memory, or a look at it: it cannot fail. -/
def silent (act : σ → α × σ) : Prog S ξ ω σ α := fun _ n s => (.done (act s).1, n, (act s).2)

/-- Raise an exception. -/
def throw (e : Exn ξ ω) : Prog S ξ ω σ α := fun _ n s => (.raised e, n, s)

/-- `try: m except BaseException as e: handler(e)`.  A crash is not caught. -/
def tryCatch (m : Prog S ξ ω σ α) (handler : Exn ξ ω → Prog S ξ ω σ α) : Prog S ξ ω σ α :=
  fun env n s =>
    match m env n s with
    | (.raised e, n', s') => handler e env n' s'
    | r => r

/-- `try: m finally: cleanup`. -/
def tryFinally (m : Prog S ξ ω σ α) (cleanup : Prog S ξ ω σ Unit) : Prog S ξ ω σ α :=
  tryCatch m (fun e => cleanup >>= fun _ => throw e) >>= fun a => cleanup >>= fun _ => pure a

/-- `for x in xs: body(x)`. -/
def forEach (body : ι → Prog S ξ ω σ Unit) : List ι → Prog S ξ ω σ Unit
  | [] => pure ()
  | x :: xs => body x >>= fun _ => forEach body xs

/-- `[body(x) for x in xs]`. -/
def collect (body : ι → Prog S ξ ω σ β) : List ι → Prog S ξ ω σ (List β)
  | [] => pure []
  | x :: xs => body x >>= fun b => collect body xs >>= fun bs => pure (b :: bs)

/-- Run a program on a part of a larger state, its sites renamed. -/
def zoom {S' : Type} (site : S' → S) (get : σ → τ) (set : τ → σ → σ)
    (m : Prog S' ξ ω τ α) : Prog S ξ ω σ α := fun env n s =>
  match m (fun k l => env k (site l)) n (get s) with
  | (o, n', t) => (o, n', set t s)

/-- A program, its own exceptions translated. -/
def mapOwn {ω' : Type} (f : ω → ω') (m : Prog S ξ ω σ α) : Prog S ξ ω' σ α := fun env n s =>
  match m env n s with
  | (.done a, n', s') => (.done a, n', s')
  | (.raised e, n', s') => (.raised (e.mapOwn f), n', s')
  | (.crashed, n', s') => (.crashed, n', s')

end Prog

/-! ### Triples -/

/-- What a run ended as and the state then, checked against the three postconditions. -/
def Outcome.Meets {ε σ : Type} {α : Type u} (Q : α → σ → Prop) (E : ε → σ → Prop)
    (C : σ → Prop) : Outcome ε α → σ → Prop
  | .done a, s => Q a s
  | .raised e, s => E e s
  | .crashed, s => C s

/-- **Triples.** Under the environment, from every state that satisfies `P` a run returns with
    `Q`, raises with `E`, or is stopped by a crash with `C`. -/
def Triple {S ξ ω σ : Type} {α : Type u} (env : Env S ξ) (P : σ → Prop) (m : Prog S ξ ω σ α)
    (Q : α → σ → Prop) (E : Exn ξ ω → σ → Prop) (C : σ → Prop) : Prop :=
  ∀ n s, P s → (m env n s).1.Meets Q E C (m env n s).2.2

namespace Triple

open Prog

variable {S ξ ω σ τ : Type} {α β ι : Type} {env : Env S ξ}
variable {P P' : σ → Prop} {Q Q' : α → σ → Prop} {R : β → σ → Prop}
variable {E E' : Exn ξ ω → σ → Prop} {C C' : σ → Prop}

/-- A triple, read at one run. -/
theorem run {m : Prog S ξ ω σ α} (h : Triple env P m Q E C) {s : σ} (hs : P s) :
    (m.run env s).1.Meets Q E C (m.run env s).2 := h 0 s hs

/-- A run that cannot fail returns. -/
theorem returns {m : Prog S ξ ω σ α} (h : Triple env P m Q (fun _ _ => False) (fun _ => False))
    {s : σ} (hs : P s) : ∃ a, (m.run env s).1 = .done a ∧ Q a (m.run env s).2 := by
  have hrun := h.run hs
  revert hrun
  generalize m.run env s = r
  obtain ⟨o, t⟩ := r
  cases o with
  | done a => exact fun hQ => ⟨a, rfl, hQ⟩
  | raised e => exact fun hE => hE.elim
  | crashed => exact fun hC => hC.elim

/-- Consequence. -/
theorem weaken {m : Prog S ξ ω σ α} (h : Triple env P m Q E C) (hP : ∀ s, P' s → P s)
    (hQ : ∀ a s, Q a s → Q' a s) (hE : ∀ e s, E e s → E' e s) (hC : ∀ s, C s → C' s) :
    Triple env P' m Q' E' C' := by
  intro n s hs
  have hm := h n s (hP s hs)
  revert hm
  generalize m env n s = r
  obtain ⟨o, n', t⟩ := r
  cases o with
  | done a => exact hQ a t
  | raised e => exact hE e t
  | crashed => exact hC t

theorem pre {m : Prog S ξ ω σ α} (h : Triple env P m Q E C) (hP : ∀ s, P' s → P s) :
    Triple env P' m Q E C :=
  h.weaken hP (fun _ _ h => h) (fun _ _ h => h) (fun _ h => h)

theorem post {m : Prog S ξ ω σ α} (h : Triple env P m Q E C) (hQ : ∀ a s, Q a s → Q' a s) :
    Triple env P m Q' E C :=
  h.weaken (fun _ h => h) hQ (fun _ _ h => h) (fun _ h => h)

/-- A run ends somehow. -/
theorem anyhow (m : Prog S ξ ω σ α) :
    Triple env P m (fun _ _ => True) (fun _ _ => True) (fun _ => True) := by
  intro n s _
  generalize m env n s = r
  obtain ⟨o, n', t⟩ := r
  cases o <;> trivial

/-- It is enough to consider each state of the precondition by itself. -/
theorem ofState {m : Prog S ξ ω σ α} (h : ∀ s₀, P s₀ → Triple env (fun s => s = s₀) m Q E C) :
    Triple env P m Q E C :=
  fun n s hs => h s hs n s rfl

/-- A fact that the precondition gives about the surroundings. -/
theorem assume {p : Prop} {m : Prog S ξ ω σ α} (h : p → Triple env P m Q E C) :
    Triple env (fun s => p ∧ P s) m Q E C :=
  fun n s hs => h hs.1 n s hs.2

theorem pure (a : α) (h : ∀ s, P s → Q a s) :
    Triple env P (Pure.pure a : Prog S ξ ω σ α) Q E C :=
  fun _ s hs => h s hs

theorem throw (e : Exn ξ ω) (h : ∀ s, P s → E e s) :
    Triple env P (Prog.throw e : Prog S ξ ω σ α) Q E C :=
  fun _ s hs => h s hs

/-- Sequencing. -/
theorem bind {m : Prog S ξ ω σ α} {f : α → Prog S ξ ω σ β} (hm : Triple env P m Q E C)
    (hf : ∀ a, Triple env (Q a) (f a) R E C) : Triple env P (m >>= f) R E C := by
  intro n s hs
  have h := hm n s hs
  show (Prog.bind m f env n s).1.Meets R E C (Prog.bind m f env n s).2.2
  unfold Prog.bind
  revert h
  generalize m env n s = r
  obtain ⟨o, n', t⟩ := r
  cases o with
  | done a => exact fun h => hf a n' t h
  | raised e => exact fun h => h
  | crashed => exact fun h => h

/-- Sequencing, with the assertion in between given. -/
theorem cut (Q : α → σ → Prop) {m : Prog S ξ ω σ α} {f : α → Prog S ξ ω σ β}
    (hm : Triple env P m Q E C) (hf : ∀ a, Triple env (Q a) (f a) R E C) :
    Triple env P (m >>= f) R E C := bind hm hf

/-- `if condition: raise e`, and what comes after. -/
theorem guard {c : Prop} [Decidable c] {e : Exn ξ ω} {f : β → Prog S ξ ω σ α}
    {m : Prog S ξ ω σ α} (hthrow : ∀ s, P s → E e s) (hm : ¬ c → Triple env P m Q E C) :
    Triple env P (if c then Prog.throw e >>= f else m) Q E C := by
  split
  · exact fun n s hs => hthrow s hs
  · next hc => exact hm hc

/-- One step: a crash leaves the state as it is, and so does an exception. -/
theorem step {site : S} {act : σ → Except ω (α × σ)}
    (hcrash : ∀ s, P s → (∃ n, env n site = some .crash) → C s)
    (hraise : ∀ s x, P s → (∃ n, env n site = some (.raise x)) → E (.external x) s)
    (hact : ∀ s, P s →
      match act s with
      | .ok (a, t) => Q a t
      | .error w => E (.own w) s) :
    Triple env P (Prog.step site act) Q E C := by
  intro n s hs
  unfold Prog.step
  cases henv : env n site with
  | some fault =>
    cases fault with
    | crash => exact hcrash s hs ⟨n, henv⟩
    | raise x => exact hraise s x hs ⟨n, henv⟩
  | none =>
    have h := hact s hs
    revert h
    cases act s with
    | ok r => exact fun h => h
    | error w => exact fun h => h

theorem silent {act : σ → α × σ} (h : ∀ s, P s → Q (act s).1 (act s).2) :
    Triple env P (Prog.silent act : Prog S ξ ω σ α) Q E C :=
  fun _ s hs => h s hs

/-- A look that changes nothing. -/
theorem look {act : σ → α × σ} (h : ∀ s, (act s).2 = s) :
    Triple env P (Prog.silent act : Prog S ξ ω σ α) (fun _ => P) E C :=
  fun _ s hs => by
    show P (act s).2
    rwa [h s]

/-- A change of the process's own memory, at a state that is known. -/
theorem silentAt {s₀ : σ} {act : σ → α × σ} {f : α → Prog S ξ ω σ β}
    (h : Triple env (fun s => s = (act s₀).2) (f (act s₀).1) R E C) :
    Triple env (fun s => s = s₀) (Prog.silent act >>= f) R E C := by
  intro n s hs
  subst hs
  exact h n (act s).2 rfl

/-- A look at the state, at a state that is known. -/
theorem lookAt {s₀ : σ} {act : σ → σ × σ} {f : σ → Prog S ξ ω σ β} (hact : ∀ s, act s = (s, s))
    (h : Triple env (fun s => s = s₀) (f s₀) R E C) :
    Triple env (fun s => s = s₀) (Prog.silent act >>= f) R E C := by
  refine silentAt ?_
  rw [hact s₀]
  exact h

/-- The handler starts where the exception left the state. -/
theorem tryCatch {m : Prog S ξ ω σ α} {handler : Exn ξ ω → Prog S ξ ω σ α}
    (hm : Triple env P m Q E' C) (hh : ∀ e, Triple env (E' e) (handler e) Q E C) :
    Triple env P (Prog.tryCatch m handler) Q E C := by
  intro n s hs
  have h := hm n s hs
  unfold Prog.tryCatch
  revert h
  generalize m env n s = r
  obtain ⟨o, n', t⟩ := r
  cases o with
  | done a => exact fun h => h
  | raised e => exact fun h => hh e n' t h
  | crashed => exact fun h => h

/-- The handler starts where the exception left the state, which is given. -/
theorem tryCatchWith (E' : Exn ξ ω → σ → Prop) {m : Prog S ξ ω σ α}
    {handler : Exn ξ ω → Prog S ξ ω σ α} (hm : Triple env P m Q E' C)
    (hh : ∀ e, Triple env (E' e) (handler e) Q E C) :
    Triple env P (Prog.tryCatch m handler) Q E C := tryCatch hm hh

theorem tryFinally {m : Prog S ξ ω σ α} {cleanup : Prog S ξ ω σ Unit}
    (hm : Triple env P m Q E' C)
    (hdone : ∀ a, Triple env (Q a) cleanup (fun _ => Q' a) E C)
    (hraised : ∀ e, Triple env (E' e) cleanup (fun _ => E e) E C) :
    Triple env P (Prog.tryFinally m cleanup) Q' E C := by
  refine bind (tryCatch hm fun e => ?_) fun a => ?_
  · exact bind (hraised e) fun _ => throw e fun s hs => hs
  · exact bind (hdone a) fun _ => pure a fun s hs => hs

/-- The same, with the assertions before the cleanup given. -/
theorem tryFinallyWith (Q : α → σ → Prop) (E' : Exn ξ ω → σ → Prop) {m : Prog S ξ ω σ α}
    {cleanup : Prog S ξ ω σ Unit} (hm : Triple env P m Q E' C)
    (hdone : ∀ a, Triple env (Q a) cleanup (fun _ => Q' a) E C)
    (hraised : ∀ e, Triple env (E' e) cleanup (fun _ => E e) E C) :
    Triple env P (Prog.tryFinally m cleanup) Q' E C := tryFinally hm hdone hraised

/-- **Loops.** `I done` holds when the elements of `done` have been processed. -/
theorem forEach {body : ι → Prog S ξ ω σ Unit} {xs : List ι} (I : List ι → σ → Prop)
    (h : ∀ done x rest, xs = done ++ x :: rest →
      Triple env (I done) (body x) (fun _ => I (done ++ [x])) E C) :
    Triple env (I []) (Prog.forEach body xs) (fun _ => I xs) E C := by
  have hgen : ∀ rest done, xs = done ++ rest →
      Triple env (I done) (Prog.forEach body rest) (fun _ => I xs) E C := by
    intro rest
    induction rest with
    | nil =>
      intro done hxs
      rw [List.append_nil] at hxs
      exact pure () fun s hs => hxs ▸ hs
    | cons x rest ih =>
      intro done hxs
      refine bind (h done x rest hxs) fun _ => ih (done ++ [x]) ?_
      rw [hxs, List.append_assoc, List.singleton_append]
  exact hgen xs [] rfl

/-- A loop whose every turn keeps the precondition. -/
theorem forEach_keep {body : ι → Prog S ξ ω σ Unit} {xs : List ι}
    (h : ∀ x ∈ xs, Triple env P (body x) (fun _ => P) E C) :
    Triple env P (Prog.forEach body xs) (fun _ => P) E C := by
  refine forEach (fun _ => P) ?_
  intro done x rest hxs
  exact h x (by rw [hxs]; exact List.mem_append_right _ List.mem_cons_self)

/-- A loop that collects results: `I done results` holds when `done` has been processed. -/
theorem collect {body : ι → Prog S ξ ω σ β} {xs : List ι} (I : List ι → List β → σ → Prop)
    (h : ∀ done results x rest, xs = done ++ x :: rest →
      Triple env (I done results) (body x) (fun b => I (done ++ [x]) (results ++ [b])) E C) :
    Triple env (I [] []) (Prog.collect body xs) (fun results => I xs results) E C := by
  have hgen : ∀ rest done results, xs = done ++ rest →
      Triple env (I done results) (Prog.collect body rest)
        (fun more => I xs (results ++ more)) E C := by
    intro rest
    induction rest with
    | nil =>
      intro done results hxs
      rw [List.append_nil] at hxs
      exact pure [] fun s hs => by rw [List.append_nil]; exact hxs ▸ hs
    | cons x rest ih =>
      intro done results hxs
      refine bind (h done results x rest hxs) fun b => ?_
      refine bind (ih (done ++ [x]) (results ++ [b]) ?_) fun bs => ?_
      · rw [hxs, List.append_assoc, List.singleton_append]
      · refine pure (b :: bs) fun s hs => ?_
        rwa [List.append_assoc, List.singleton_append] at hs
  exact (hgen xs [] [] rfl).post fun results s hs => by rwa [List.nil_append] at hs

/-- Collecting results that are each related to their element. -/
theorem collect_forall₂ {body : ι → Prog S ξ ω σ β} {xs : List ι} (rel : ι → β → Prop)
    (h : ∀ x ∈ xs, Triple env P (body x) (fun b s => P s ∧ rel x b) E C) :
    Triple env P (Prog.collect body xs) (fun results s => P s ∧ List.Forall₂ rel xs results)
      E C := by
  refine (collect (fun done results s => P s ∧ List.Forall₂ rel done results) ?_).pre
    fun s hs => ⟨hs, List.Forall₂.nil⟩
  intro done results x rest hxs
  refine ofState ?_
  intro s₀ hs₀
  have hx : x ∈ xs := by
    rw [hxs]
    exact List.mem_append_right _ List.mem_cons_self
  refine (h x hx).weaken ?_ ?_ (fun _ _ hs => hs) (fun _ hs => hs)
  · intro s hs
    rw [hs]
    exact hs₀.1
  · intro b s hs
    exact ⟨hs.1, List.rel_append hs₀.2 (List.Forall₂.cons hs.2 List.Forall₂.nil)⟩

/-- A program on a part of the state, in the whole. -/
theorem zoom {S' : Type} {site : S' → S} {get : σ → τ} {set : τ → σ → σ} {m : Prog S' ξ ω τ α}
    (h : ∀ s, P s → Triple (fun k l => env k (site l)) (fun t => t = get s) m
      (fun a t => Q a (set t s)) (fun e t => E e (set t s)) (fun t => C (set t s))) :
    Triple env P (Prog.zoom site get set m) Q E C := by
  intro n s hs
  have hm := h s hs n (get s) rfl
  unfold Prog.zoom
  revert hm
  generalize m (fun k l => env k (site l)) n (get s) = r
  obtain ⟨o, n', t⟩ := r
  cases o with
  | done a => exact fun h => h
  | raised e => exact fun h => h
  | crashed => exact fun h => h

/-- Translating the program's own exceptions. -/
theorem mapOwn {ω' : Type} {f : ω → ω'} {m : Prog S ξ ω σ α} {F : Exn ξ ω' → σ → Prop}
    (h : Triple env P m Q (fun e s => F (e.mapOwn f) s) C) :
    Triple env P (Prog.mapOwn f m) Q F C := by
  intro n s hs
  have hm := h n s hs
  unfold Prog.mapOwn
  revert hm
  generalize m env n s = r
  obtain ⟨o, n', t⟩ := r
  cases o with
  | done a => exact fun h => h
  | raised e => exact fun h => h
  | crashed => exact fun h => h

/-- Two triples about one program hold together. -/
theorem and {m : Prog S ξ ω σ α} (h : Triple env P m Q E C) (h' : Triple env P' m Q' E' C') :
    Triple env (fun s => P s ∧ P' s) m (fun a s => Q a s ∧ Q' a s) (fun e s => E e s ∧ E' e s)
      (fun s => C s ∧ C' s) := by
  intro n s hs
  have h₁ := h n s hs.1
  have h₂ := h' n s hs.2
  revert h₁ h₂
  generalize m env n s = r
  obtain ⟨o, n', t⟩ := r
  cases o with
  | done a => exact fun h₁ h₂ => ⟨h₁, h₂⟩
  | raised e => exact fun h₁ h₂ => ⟨h₁, h₂⟩
  | crashed => exact fun h₁ h₂ => ⟨h₁, h₂⟩

end Triple

/-! ### Programs that do not fail of their own accord -/

/-- The environment raises an exception at one of the sites. -/
def Env.Raises {S ξ : Type} (env : Env S ξ) (sites : S → Prop) : Prop :=
  ∃ site, sites site ∧ ∃ n x, env n site = some (.raise x)

/-- **Firm programs.** From `P` the program returns with `Q`; it raises only when the environment
    does at one of the sites, and keeps `R` however the run ends. -/
abbrev Firm {S ξ ω σ : Type} {α : Type u} (env : Env S ξ) (sites : S → Prop) (R P : σ → Prop)
    (m : Prog S ξ ω σ α) (Q : α → σ → Prop) : Prop :=
  Triple env P m Q (fun _ s => R s ∧ env.Raises sites) R

namespace Firm

variable {S ξ ω σ : Type} {α : Type} {env : Env S ξ} {sites : S → Prop}
variable {R P : σ → Prop} {Q : α → σ → Prop}

/-- A step that succeeds whenever it is performed. -/
theorem step {site : S} {act : σ → Except ω (α × σ)} (hsite : sites site) (hR : ∀ s, P s → R s)
    (hact : ∀ s, P s → ∃ a t, act s = .ok (a, t) ∧ Q a t) :
    Firm env sites R P (Prog.step site act) Q := by
  refine Triple.step (fun s hs _ => hR s hs) ?_ ?_
  · intro s x hs hraise
    obtain ⟨n, hn⟩ := hraise
    exact ⟨hR s hs, site, hsite, n, x, hn⟩
  · intro s hs
    obtain ⟨a, t, hok, hq⟩ := hact s hs
    rw [hok]
    exact hq

/-- Where the environment raises anyway, an exception of the program's own is allowed. -/
theorem throw {e : Exn ξ ω} (hR : ∀ s, P s → R s) (hraise : ∀ s, P s → env.Raises sites) :
    Firm env sites R P (Prog.throw e : Prog S ξ ω σ α) Q :=
  Triple.throw e fun s hs => ⟨hR s hs, hraise s hs⟩

/-- Without exceptions from outside a firm program returns, or is stopped by a crash. -/
theorem run_quiet {m : Prog S ξ ω σ α} (h : Firm env sites R P m Q) (hq : ¬ env.Raises sites)
    {s : σ} (hs : P s) :
    (∃ a t, m.run env s = (.done a, t) ∧ Q a t) ∨ ∃ t, m.run env s = (.crashed, t) ∧ R t := by
  have hm := h.run hs
  revert hm
  generalize m.run env s = r
  obtain ⟨o, t⟩ := r
  cases o with
  | done a => exact fun h => Or.inl ⟨a, t, rfl, h⟩
  | raised e => exact fun h => absurd h.2 hq
  | crashed => exact fun h => Or.inr ⟨t, rfl, h⟩

end Firm

/-! ### Programs that succeed on a condition -/

/-- The environment that leaves every step alone. -/
def Env.quiet {S ξ : Type} : Env S ξ := fun _ _ => none

/-- The environment does something to some step. -/
def Env.Disturbs {S ξ : Type} (env : Env S ξ) : Prop := ∃ n site, env n site ≠ none

theorem Env.not_disturbs_quiet {S ξ : Type} : ¬ (Env.quiet : Env S ξ).Disturbs :=
  fun ⟨_, _, h⟩ => h rfl

/-- What leaves a program alone leaves its part alone. -/
theorem Env.not_disturbs_part {S S' ξ : Type} {env : Env S ξ} (h : ¬ env.Disturbs)
    (site : S' → S) : ¬ Env.Disturbs (fun k l => env k (site l)) := by
  intro hpart
  obtain ⟨n, l, hne⟩ := hpart
  exact h ⟨n, site l, hne⟩

/-- A step that is left alone is performed. -/
theorem Triple.stepQuiet {S ξ ω σ α : Type} {env : Env S ξ} (hquiet : ¬ env.Disturbs)
    {P : σ → Prop} {Q : α → σ → Prop} {E : Exn ξ ω → σ → Prop} {C : σ → Prop} {site : S}
    {act : σ → Except ω (α × σ)}
    (hact : ∀ s, P s →
      match act s with
      | .ok (a, t) => Q a t
      | .error w => E (.own w) s) :
    Triple env P (Prog.step site act) Q E C := by
  refine Triple.step ?_ ?_ hact
  · intro s _ hcrash
    obtain ⟨n, hn⟩ := hcrash
    exact absurd ⟨n, site, by simp [hn]⟩ hquiet
  · intro s x _ hraise
    obtain ⟨n, hn⟩ := hraise
    exact absurd ⟨n, site, by simp [hn]⟩ hquiet

/-- **Exact programs.** From `P` the program returns, with `Q`, only when `R` holds; when `R` holds
    it is only kept from returning by the environment.  However else it ends, `X` holds then. -/
abbrev Exact {S ξ ω σ : Type} {α : Type u} (env : Env S ξ) (P : σ → Prop) (m : Prog S ξ ω σ α)
    (R : Prop) (Q : α → σ → Prop) (X : σ → Prop) : Prop :=
  Triple env P m (fun a s => R ∧ Q a s) (fun _ s => X s ∧ (env.Disturbs ∨ ¬ R))
    (fun s => X s ∧ env.Disturbs)

namespace Exact

open Prog

variable {S ξ ω σ : Type} {α β : Type} {env : Env S ξ} {P : σ → Prop} {m : Prog S ξ ω σ α}
variable {R R' : Prop} {Q : α → σ → Prop} {Q' : β → σ → Prop} {X : σ → Prop}

theorem pure (a : α) (h : ∀ s, P s → Q a s) :
    Exact env P (Pure.pure a : Prog S ξ ω σ α) True Q X :=
  Triple.pure a fun s hs => ⟨trivial, h s hs⟩

theorem throw (e : Exn ξ ω) (hX : ∀ s, P s → X s) (hR : ¬ R) :
    Exact env P (Prog.throw e : Prog S ξ ω σ α) R Q X :=
  Triple.throw e fun s hs => ⟨hX s hs, Or.inr hR⟩

/-- One step, which succeeds exactly on the condition. -/
theorem step {site : S} {act : σ → Except ω (α × σ)} (hX : ∀ s, P s → X s)
    (hact : ∀ s, P s →
      match act s with
      | .ok (a, t) => R ∧ Q a t
      | .error _ => ¬ R) :
    Exact env P (Prog.step site act) R Q X := by
  refine Triple.step ?_ ?_ ?_
  · intro s hs hcrash
    obtain ⟨n, hn⟩ := hcrash
    exact ⟨hX s hs, n, site, by simp [hn]⟩
  · intro s x hs hraise
    obtain ⟨n, hn⟩ := hraise
    exact ⟨hX s hs, Or.inl ⟨n, site, by simp [hn]⟩⟩
  · intro s hs
    have h := hact s hs
    revert h
    cases act s with
    | ok r => exact fun h => h
    | error w => exact fun h => ⟨hX s hs, Or.inr h⟩

/-- Sequencing: both conditions have to hold. -/
theorem bind {f : α → Prog S ξ ω σ β} (hm : Exact env P m R Q X)
    (hf : R → ∀ a, Exact env (Q a) (f a) R' Q' X) : Exact env P (m >>= f) (R ∧ R') Q' X := by
  refine Triple.bind (hm.weaken (fun _ h => h) (fun _ _ h => h) ?_ (fun _ h => h)) fun a => ?_
  · exact fun _ s h => ⟨h.1, h.2.imp_right fun hR hboth => hR hboth.1⟩
  · refine Triple.ofState ?_
    intro s₀ hs₀
    refine (hf hs₀.1 a).weaken ?_ ?_ ?_ (fun _ h => h)
    · intro s hs
      rw [hs]
      exact hs₀.2
    · exact fun _ s h => ⟨⟨hs₀.1, h.1⟩, h.2⟩
    · exact fun _ s h => ⟨h.1, h.2.imp_right fun hR hboth => hR hboth.2⟩

/-- Sequencing after a program whose condition always holds, with the assertion in between given. -/
theorem cut (Q : α → σ → Prop) {f : α → Prog S ξ ω σ β} (hm : Exact env P m True Q X)
    (hf : ∀ a, Exact env (Q a) (f a) R' Q' X) : Exact env P (m >>= f) R' Q' X :=
  Triple.bind (Triple.weaken hm (fun _ h => h) (fun _ _ h => h.2)
    (fun _ _ h => ⟨h.1, Or.inl (h.2.resolve_right (not_not.mpr trivial))⟩) (fun _ h => h)) hf

/-- Consequence. -/
theorem weaken {P' : σ → Prop} {Q'' : α → σ → Prop} {X' : σ → Prop} (h : Exact env P m R Q X)
    (hP : ∀ s, P' s → P s) (hR : R ↔ R') (hQ : ∀ a s, R → Q a s → Q'' a s)
    (hX : ∀ s, X s → X' s) : Exact env P' m R' Q'' X' := by
  refine Triple.weaken h hP ?_ ?_ ?_
  · exact fun a s h => ⟨hR.mp h.1, hQ a s h.1 h.2⟩
  · exact fun _ s h => ⟨hX s h.1, h.2.imp_right (mt hR.mpr)⟩
  · exact fun s h => ⟨hX s h.1, h.2⟩

/-- It is enough to consider each state of the precondition by itself. -/
theorem ofState (h : ∀ s₀, P s₀ → Exact env (fun s => s = s₀) m R Q X) : Exact env P m R Q X :=
  Triple.ofState h

/-- A look at the state, at a state that is known. -/
theorem look {s₀ : σ} {act : σ → σ × σ} {f : σ → Prog S ξ ω σ β} (hact : ∀ s, act s = (s, s))
    (h : Exact env (fun s => s = s₀) (f s₀) R Q' X) :
    Exact env (fun s => s = s₀) (Prog.silent act >>= f) R Q' X :=
  Triple.lookAt hact h

/-- A fact that the precondition gives about the surroundings. -/
theorem assume {p : Prop} (h : p → Exact env P m R Q X) :
    Exact env (fun s => p ∧ P s) m R Q X := Triple.assume h

/-- An exact program that is left alone returns exactly on its condition. -/
theorem run_quiet (h : Exact Env.quiet P m R Q X) {s : σ} (hs : P s) :
    (∃ a t, m.run Env.quiet s = (.done a, t)) ↔ R := by
  have hm := h.run hs
  revert hm
  generalize m.run Env.quiet s = r
  obtain ⟨o, t⟩ := r
  cases o with
  | done a => exact fun h => iff_of_true ⟨a, t, rfl⟩ h.1
  | raised e =>
    intro h
    refine iff_of_false ?_ (h.2.resolve_left Env.not_disturbs_quiet)
    intro hdone
    obtain ⟨a, t', heq⟩ := hdone
    cases heq
  | crashed => exact fun h => absurd h.2 Env.not_disturbs_quiet

end Exact

/-! ### Invariants of every step -/

/-- The program keeps an assertion, however a run ends. -/
def Keeps {S ξ ω σ : Type} {α : Type u} (env : Env S ξ) (I : σ → Prop) (m : Prog S ξ ω σ α) :
    Prop :=
  Triple env I m (fun _ => I) (fun _ => I) I

namespace Keeps

open Prog

variable {S ξ ω σ : Type} {α β ι : Type} {env : Env S ξ} {I : σ → Prop}

theorem pure (a : α) : Keeps env I (Pure.pure a : Prog S ξ ω σ α) := Triple.pure a fun _ h => h

theorem throw (e : Exn ξ ω) : Keeps env I (Prog.throw e : Prog S ξ ω σ α) :=
  Triple.throw e fun _ h => h

theorem bind {m : Prog S ξ ω σ α} {f : α → Prog S ξ ω σ β} (hm : Keeps env I m)
    (hf : ∀ a, Keeps env I (f a)) : Keeps env I (m >>= f) := Triple.bind hm hf

theorem step {site : S} {act : σ → Except ω (α × σ)}
    (h : ∀ s a t, I s → act s = .ok (a, t) → I t) : Keeps env I (Prog.step site act) := by
  refine Triple.step (fun s hs _ => hs) (fun s _ hs _ => hs) fun s hs => ?_
  cases hact : act s with
  | ok r => exact h s r.1 r.2 hs hact
  | error w => exact hs

/-- A step that raises nothing of its own. -/
theorem act {site : S} {act : σ → α × σ} (h : ∀ s, I s → I (act s).2) :
    Keeps env I (Prog.step site (fun s => .ok (act s)) : Prog S ξ ω σ α) := by
  apply step
  intro s a t hs hact
  have := h s hs
  rw [Except.ok.inj hact] at this
  exact this

theorem silent {act : σ → α × σ} (h : ∀ s, I s → I (act s).2) :
    Keeps env I (Prog.silent act : Prog S ξ ω σ α) := Triple.silent h

theorem tryCatch {m : Prog S ξ ω σ α} {handler : Exn ξ ω → Prog S ξ ω σ α}
    (hm : Keeps env I m) (hh : ∀ e, Keeps env I (handler e)) :
    Keeps env I (Prog.tryCatch m handler) := Triple.tryCatch hm hh

theorem tryFinally {m : Prog S ξ ω σ α} {cleanup : Prog S ξ ω σ Unit}
    (hm : Keeps env I m) (hc : Keeps env I cleanup) : Keeps env I (Prog.tryFinally m cleanup) :=
  Triple.tryFinally hm (fun _ => hc) fun _ => hc

theorem forEach {body : ι → Prog S ξ ω σ Unit} {xs : List ι}
    (h : ∀ x ∈ xs, Keeps env I (body x)) : Keeps env I (Prog.forEach body xs) :=
  Triple.forEach_keep h

theorem collect {body : ι → Prog S ξ ω σ β} {xs : List ι}
    (h : ∀ x ∈ xs, Keeps env I (body x)) : Keeps env I (Prog.collect body xs) := by
  refine Triple.collect (fun _ _ => I) ?_
  intro done results x rest hxs
  exact h x (by rw [hxs]; exact List.mem_append_right _ List.mem_cons_self)

end Keeps

/-! ### Recovery -/

/-- The states after any number of runs of a recovery program that were interrupted: stopped by
    a crash, or ended by an exception. -/
inductive Restarted {S ξ ω σ α : Type} (recover : Prog S ξ ω σ α) : σ → σ → Prop
  | none (s : σ) : Restarted recover s s
  | again {s t : σ} (env : Env S ξ) : Restarted recover s t →
      (∀ a, (recover.run env t).1 ≠ .done a) → Restarted recover s (recover.run env t).2

/-- **Interrupted recovery.** An assertion that every interrupted run of the recovery keeps holds
    after any number of them. -/
theorem Restarted.keeps {S ξ ω σ α : Type} {recover : Prog S ξ ω σ α} {I : σ → Prop}
    {Q : α → σ → Prop} (h : ∀ env, Triple env I recover Q (fun _ => I) I) {s t : σ}
    (hst : Restarted recover s t) (hs : I s) : I t := by
  induction hst with
  | none => exact hs
  | again env _ hnot ih =>
    have hmeets := (h env).run ih
    revert hmeets hnot
    generalize recover.run env _ = r
    obtain ⟨o, u⟩ := r
    cases o with
    | done a => exact fun hnot => absurd rfl (hnot a)
    | raised e => exact fun _ h => h
    | crashed => exact fun _ h => h

end RomCloud.Lib
