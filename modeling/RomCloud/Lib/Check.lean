import Mathlib.Data.List.Nodup

namespace RomCloud.Lib

/-!
# Checks

A **check** looks at a value and passes, or fails with the first thing that is wrong.  Checks are
run one after the other in `do` blocks; what a block accepts is read off by `simp`.

* `bind_eq_ok` — a sequence succeeds when each of its parts does;
* `foldlM_progress`, `foldlM_outcome` — what each step of a loop establishes or keeps, or fails
  with, the loop does;
* `foldlM_eq_error_iff` — a loop fails at the first member whose step does;
* `foldlM_decode` — a loop that decodes an encoded list;
* `require` — one condition;
* `whenSome`, `checkAll` — the value of an option, all members of a list;
* `mapEach` — the results for all members of a list, or the first failure;
* `checkEach` — the members of a list, which are also to have different keys.
-/

/-! ### Results -/

/-- A sequence of computations that may be refused succeeds when each of them does. -/
theorem bind_eq_ok {ε α β : Type} {x : Except ε α} {f : α → Except ε β} {b : β}
    (h : (x >>= f) = .ok b) : ∃ a, x = .ok a ∧ f a = .ok b := by
  cases x with
  | error e => exact absurd h (by simp [bind, Except.bind])
  | ok a => exact ⟨a, rfl, h⟩

theorem bind_eq_ok_iff {ε α β : Type} {x : Except ε α} {f : α → Except ε β} {b : β} :
    (x >>= f) = .ok b ↔ ∃ a, x = .ok a ∧ f a = .ok b := by
  constructor
  · exact bind_eq_ok
  · rintro ⟨a, rfl, hf⟩
    exact hf

/-- A sequence fails where its first part does, or what follows it. -/
theorem bind_eq_error {ε α β : Type} {x : Except ε α} {f : α → Except ε β} {e : ε}
    (h : (x >>= f) = .error e) : x = .error e ∨ ∃ a, x = .ok a ∧ f a = .error e := by
  cases x with
  | error d => exact Or.inl (by simpa [bind, Except.bind] using h)
  | ok a => exact Or.inr ⟨a, rfl, h⟩

/-- Once a computation has succeeded, what follows it is left to do. -/
@[simp] theorem ok_bind {ε α β : Type} (a : α) (f : α → Except ε β) :
    ((.ok a : Except ε α) >>= f) = f a := rfl

theorem map_eq_ok {ε α β : Type} {x : Except ε α} {f : α → β} {b : β}
    (h : x.map f = .ok b) : ∃ a, x = .ok a ∧ f a = b := by
  cases x with
  | error e => exact absurd h (by simp [Except.map])
  | ok a => exact ⟨a, rfl, Except.ok.inj h⟩

theorem toOption_eq_some_iff {ε α : Type} {x : Except ε α} {a : α} :
    x.toOption = some a ↔ x = .ok a := by
  cases x with
  | error e => simp [Except.toOption]
  | ok b => simp [Except.toOption]

/-- **Loops of steps that may fail.** What each step adds to what was established for the members
    before it, or fails with, the loop does. -/
theorem foldlM_progress {ε σ α : Type} {step : σ → α → Except ε σ} {I : List α → σ → Prop}
    {E : ε → Prop} {l : List α}
    (hstep : ∀ done x rest, l = done ++ x :: rest → ∀ s, I done s →
      (∀ t, step s x = .ok t → I (done ++ [x]) t) ∧ ∀ e, step s x = .error e → E e)
    {s : σ} (hs : I [] s) :
    (∀ t, l.foldlM step s = .ok t → I l t) ∧ ∀ e, l.foldlM step s = .error e → E e := by
  have hgen : ∀ rest done, l = done ++ rest → ∀ s, I done s →
      (∀ t, rest.foldlM step s = .ok t → I l t) ∧ ∀ e, rest.foldlM step s = .error e → E e := by
    intro rest
    induction rest with
    | nil =>
      intro done hl s hs
      rw [List.append_nil] at hl
      subst hl
      exact ⟨fun t ht => Except.ok.inj ht ▸ hs, fun e he => absurd he (by simp [pure, Except.pure])⟩
    | cons x rest ih =>
      intro done hl s hs
      obtain ⟨hok, herror⟩ := hstep done x rest hl s hs
      rw [List.foldlM_cons]
      cases hfirst : step s x with
      | error e =>
        refine ⟨fun t ht => absurd ht (by simp [bind, Except.bind]), fun e' he' => ?_⟩
        obtain rfl : e = e' := by simpa [bind, Except.bind] using he'
        exact herror e hfirst
      | ok t =>
        exact ih (done ++ [x]) (by rw [hl, List.append_assoc]; rfl) t (hok t hfirst)
  exact hgen l [] rfl s hs

/-- What each step keeps, or fails with, the loop does. -/
theorem foldlM_outcome {ε σ α : Type} {step : σ → α → Except ε σ} {I : σ → Prop} {E : ε → Prop}
    {l : List α} (hstep : ∀ s, I s → ∀ x ∈ l,
      (∀ t, step s x = .ok t → I t) ∧ ∀ e, step s x = .error e → E e) {s : σ} (hs : I s) :
    (∀ t, l.foldlM step s = .ok t → I t) ∧ ∀ e, l.foldlM step s = .error e → E e :=
  @foldlM_progress ε σ α step (fun _ => I) E l
    (fun done x rest hl s hs => hstep s hs x (by rw [hl]; simp)) s hs

/-- A loop fails at the first member whose step does. -/
theorem foldlM_eq_error_iff {ε σ α : Type} {step : σ → α → Except ε σ} {l : List α} {s : σ}
    {e : ε} : l.foldlM step s = .error e
      ↔ ∃ done x rest t, l = done ++ x :: rest ∧ done.foldlM step s = .ok t
          ∧ step t x = .error e := by
  induction l generalizing s with
  | nil =>
    constructor
    · intro h
      exact absurd h (by simp [pure, Except.pure])
    · rintro ⟨done, x, rest, t, hl, -⟩
      simp at hl
  | cons x rest ih =>
    rw [List.foldlM_cons]
    cases hfirst : step s x with
    | error d =>
      constructor
      · intro h
        exact ⟨[], x, rest, s, rfl, rfl, hfirst.trans h⟩
      · rintro ⟨done, y, tail, t, hl, hdone, hy⟩
        cases done with
        | nil =>
          obtain ⟨rfl, -⟩ := List.cons.inj hl
          obtain rfl := Except.ok.inj hdone
          exact hfirst.symm.trans hy
        | cons z done =>
          -- the first step would have succeeded
          obtain ⟨rfl, -⟩ := List.cons.inj hl
          rw [List.foldlM_cons, hfirst] at hdone
          cases hdone
    | ok t =>
      rw [ok_bind, ih]
      constructor
      · rintro ⟨done, y, tail, u, rfl, hdone, hy⟩
        refine ⟨x :: done, y, tail, u, rfl, ?_, hy⟩
        rw [List.foldlM_cons, hfirst]
        exact hdone
      · rintro ⟨done, y, tail, u, hl, hdone, hy⟩
        cases done with
        | nil =>
          obtain ⟨rfl, -⟩ := List.cons.inj hl
          obtain rfl := Except.ok.inj hdone
          rw [hfirst] at hy
          cases hy
        | cons z done =>
          obtain ⟨rfl, rfl⟩ := List.cons.inj hl
          rw [List.foldlM_cons, hfirst] at hdone
          exact ⟨done, y, tail, u, rfl, hdone, hy⟩

/-- A loop that decodes the members of an encoded list, one after the other. -/
theorem foldlM_decode {ε α β : Type} {step : List α → β → Except ε (List α)} {encode : α → β}
    {l : List α}
    (h : ∀ done x rest, l = done ++ x :: rest → step done (encode x) = .ok (done ++ [x])) :
    (l.map encode).foldlM step [] = .ok l := by
  have hgen : ∀ rest done, l = done ++ rest →
      (rest.map encode).foldlM step done = .ok l := by
    intro rest
    induction rest with
    | nil =>
      intro done hl
      rw [List.append_nil] at hl
      rw [hl]
      rfl
    | cons x rest ih =>
      intro done hl
      rw [List.map_cons, List.foldlM_cons, h done x rest hl, ok_bind]
      exact ih (done ++ [x]) (by rw [hl, List.append_assoc]; rfl)
  exact hgen l [] rfl

/-! ### Single checks -/

universe u v w

variable {ε : Type u} {α : Type v} {κ : Type w}

/-- Pass if the condition holds. -/
def require (condition : Prop) [Decidable condition] (error : ε) : Except ε Unit :=
  if condition then .ok () else .error error

@[simp] theorem require_eq_ok_iff (condition : Prop) [Decidable condition] (error : ε) :
    require condition error = .ok () ↔ condition := by
  unfold require
  split <;> simp [*]

/-- A check, and what is done once it has passed. -/
@[simp] theorem check_bind_eq_ok_iff {β : Type} (first : Except ε Unit)
    (next : Unit → Except ε β) (result : β) :
    (first >>= next) = .ok result ↔ first = .ok () ∧ next () = .ok result := by
  cases first with
  | error error => simp [bind, Except.bind]
  | ok _ => simp [bind, Except.bind]

@[simp] theorem check_pure_eq_ok : (pure () : Except ε Unit) = .ok () := rfl

/-- Check the value, if there is one. -/
def whenSome (check : α → Except ε Unit) : Option α → Except ε Unit
  | none => .ok ()
  | some a => check a

@[simp] theorem whenSome_eq_ok_iff (check : α → Except ε Unit) (value : Option α) :
    whenSome check value = .ok () ↔ ∀ a, value = some a → check a = .ok () := by
  cases value <;> simp [whenSome]

/-- Check every member. -/
def checkAll (check : α → Except ε Unit) : List α → Except ε Unit
  | [] => .ok ()
  | x :: rest => do
    check x
    checkAll check rest

@[simp] theorem checkAll_eq_ok_iff (check : α → Except ε Unit) (xs : List α) :
    checkAll check xs = .ok () ↔ ∀ x ∈ xs, check x = .ok () := by
  induction xs with
  | nil => simp [checkAll]
  | cons x rest ih => simp [checkAll, ih]

/-- The results for every member. -/
def mapEach {β : Type w} (f : α → Except ε β) : List α → Except ε (List β)
  | [] => .ok []
  | x :: rest =>
    match f x with
    | .error error => .error error
    | .ok y =>
      match mapEach f rest with
      | .error error => .error error
      | .ok ys => .ok (y :: ys)

/-- All members have results exactly if each of them has one. -/
theorem mapEach_eq_ok_iff {β : Type w} {f : α → Except ε β} {xs : List α} {g : α → β}
    (hvalue : ∀ x ∈ xs, ∀ y, f x = .ok y → y = g x) (ys : List β) :
    mapEach f xs = .ok ys ↔ (∀ x ∈ xs, f x = .ok (g x)) ∧ ys = xs.map g := by
  induction xs generalizing ys with
  | nil => simp [mapEach, eq_comm]
  | cons x rest ih =>
    have ih := fun zs => ih (fun z hz => hvalue z (List.mem_cons_of_mem _ hz)) zs
    rw [mapEach]
    cases hfirst : f x with
    | error error =>
      constructor
      · intro h
        exact absurd h (by simp)
      · rintro ⟨hall, -⟩
        exact absurd (hfirst.symm.trans (hall x List.mem_cons_self)) (by simp)
    | ok y =>
      obtain rfl := hvalue x List.mem_cons_self y hfirst
      cases hrest : mapEach f rest with
      | error error =>
        constructor
        · intro h
          exact absurd h (by simp)
        · rintro ⟨hall, -⟩
          have hok := (ih _).mpr ⟨fun z hz => hall z (List.mem_cons_of_mem _ hz), rfl⟩
          exact absurd (hrest.symm.trans hok) (by simp)
      | ok zs =>
        obtain ⟨hall, rfl⟩ := (ih zs).mp hrest
        constructor
        · intro h
          exact ⟨List.forall_mem_cons.mpr ⟨hfirst, hall⟩, (Except.ok.inj h).symm⟩
        · rintro ⟨-, rfl⟩
          rfl

/-- What the results are results of. -/
theorem forall₂_of_mapEach {β : Type w} {f : α → Except ε β} {xs : List α} {ys : List β}
    (h : mapEach f xs = .ok ys) : List.Forall₂ (fun x y => x ∈ xs ∧ f x = .ok y) xs ys := by
  induction xs generalizing ys with
  | nil =>
    obtain rfl := Except.ok.inj h
    exact List.Forall₂.nil
  | cons x rest ih =>
    rw [mapEach] at h
    cases hfirst : f x with
    | error error => exact absurd h (by simp [hfirst])
    | ok y =>
      cases hrest : mapEach f rest with
      | error error => exact absurd h (by simp [hfirst, hrest])
      | ok zs =>
        rw [hfirst, hrest] at h
        obtain rfl := Except.ok.inj h
        refine List.Forall₂.cons ⟨List.mem_cons_self, hfirst⟩ ((ih hrest).imp ?_)
        exact fun _ _ found => ⟨List.mem_cons_of_mem x found.1, found.2⟩

/-- Each member has its result among the results, and each result is one of a member. -/
theorem mem_of_mapEach {β : Type w} {f : α → Except ε β} {xs : List α} {ys : List β}
    (h : mapEach f xs = .ok ys) :
    (∀ x ∈ xs, ∃ y ∈ ys, f x = .ok y) ∧ ∀ y ∈ ys, ∃ x ∈ xs, f x = .ok y := by
  have hrel := forall₂_of_mapEach h
  have hlen := hrel.length_eq
  constructor
  · intro x hx
    obtain ⟨i, hi, rfl⟩ := List.getElem_of_mem hx
    have hi' : i < ys.length := by omega
    exact ⟨ys.get ⟨i, hi'⟩, List.get_mem _ _, (hrel.get hi hi').2⟩
  · intro y hy
    obtain ⟨i, hi, rfl⟩ := List.getElem_of_mem hy
    have hi' : i < xs.length := by omega
    exact ⟨xs.get ⟨i, hi'⟩, List.get_mem _ _, (hrel.get hi' hi).2⟩

/-- The results for all members fail at the first member that has none. -/
theorem mapEach_eq_error_iff {β : Type w} {f : α → Except ε β} {xs : List α} {e : ε} :
    mapEach f xs = .error e ↔ ∃ done x rest, xs = done ++ x :: rest
      ∧ (∀ y ∈ done, ∃ b, f y = .ok b) ∧ f x = .error e := by
  induction xs with
  | nil =>
    constructor
    · intro h
      cases h
    · rintro ⟨done, x, rest, hxs, -⟩
      simp at hxs
  | cons x rest ih =>
    cases hfirst : f x with
    | error d =>
      have hstep : mapEach f (x :: rest) = .error d := by rw [mapEach, hfirst]
      rw [hstep]
      constructor
      · intro h
        refine ⟨[], x, rest, rfl, fun y hy => absurd hy List.not_mem_nil, ?_⟩
        rw [hfirst]
        exact congrArg Except.error (Except.error.inj h)
      · rintro ⟨done, y, tail, hxs, hdone, hy⟩
        cases done with
        | nil =>
          obtain ⟨rfl, -⟩ := List.cons.inj hxs
          rw [hfirst] at hy
          exact congrArg Except.error (Except.error.inj hy)
        | cons z done =>
          obtain ⟨rfl, -⟩ := List.cons.inj hxs
          obtain ⟨b, hb⟩ := hdone x List.mem_cons_self
          rw [hfirst] at hb
          cases hb
    | ok b =>
      have hrest : mapEach f (x :: rest) = .error e ↔ mapEach f rest = .error e := by
        rw [mapEach, hfirst]
        cases mapEach f rest with
        | error d =>
          show Except.error d = Except.error e ↔ Except.error d = Except.error e
          constructor
          · exact fun h => congrArg Except.error (Except.error.inj h)
          · exact fun h => congrArg Except.error (Except.error.inj h)
        | ok ys => exact iff_of_false (fun h => by cases h) (fun h => by cases h)
      refine hrest.trans (ih.trans ?_)
      constructor
      · rintro ⟨done, y, tail, rfl, hdone, hy⟩
        exact ⟨x :: done, y, tail, rfl, List.forall_mem_cons.mpr ⟨⟨b, hfirst⟩, hdone⟩, hy⟩
      · rintro ⟨done, y, tail, hxs, hdone, hy⟩
        cases done with
        | nil =>
          obtain ⟨rfl, -⟩ := List.cons.inj hxs
          rw [hfirst] at hy
          cases hy
        | cons z done =>
          obtain ⟨rfl, rfl⟩ := List.cons.inj hxs
          exact ⟨done, y, tail, rfl, (List.forall_mem_cons.mp hdone).2, hy⟩

/-- The results for an encoded list, where each member is decoded. -/
theorem mapEach_decode {β : Type w} {f : β → Except ε α} {encode : α → β} {l : List α}
    (h : ∀ x ∈ l, f (encode x) = .ok x) : mapEach f (l.map encode) = .ok l := by
  induction l with
  | nil => rfl
  | cons x rest ih =>
    obtain ⟨hx, hrest⟩ := List.forall_mem_cons.mp h
    rw [List.map_cons, mapEach, hx, ih hrest]

variable [DecidableEq κ]

/-- Check every member, and between its two checks that its key was not seen before. -/
def checkEach (key : α → κ) (before : α → Except ε Unit) (duplicate : α → ε) (after : α → Except ε Unit)
    (seen : List κ) : List α → Except ε Unit
  | [] => .ok ()
  | x :: rest => do
    before x
    require (key x ∉ seen) (duplicate x)
    after x
    checkEach key before duplicate after (key x :: seen) rest

theorem checkEach_seen_iff (key : α → κ) (before : α → Except ε Unit) (duplicate : α → ε)
    (after : α → Except ε Unit) (seen : List κ) (xs : List α) :
    checkEach key before duplicate after seen xs = .ok ()
      ↔ (∀ x ∈ xs, before x = .ok () ∧ after x = .ok ()) ∧ (xs.map key).Nodup
        ∧ ∀ x ∈ xs, key x ∉ seen := by
  induction xs generalizing seen with
  | nil => simp [checkEach]
  | cons x rest ih =>
    rw [checkEach, check_bind_eq_ok_iff, check_bind_eq_ok_iff, check_bind_eq_ok_iff,
      require_eq_ok_iff, ih]
    rw [List.forall_mem_cons, List.forall_mem_cons, List.map_cons, List.nodup_cons]
    -- the key of the head is new for the rest exactly if the rest was checked with it
    have hhead : (∀ y ∈ rest, key y ∉ key x :: seen)
        ↔ key x ∉ rest.map key ∧ ∀ y ∈ rest, key y ∉ seen := by
      constructor
      · intro h
        refine ⟨?_, fun y hy => fun hmem => h y hy (List.mem_cons_of_mem _ hmem)⟩
        intro hmem
        obtain ⟨y, hy, heq⟩ := List.mem_map.mp hmem
        exact h y hy (by rw [heq]; exact List.mem_cons_self)
      · intro h y hy hmem
        rcases List.mem_cons.mp hmem with heq | hseen
        · exact h.1 (List.mem_map.mpr ⟨y, hy, heq⟩)
        · exact h.2 y hy hseen
    rw [hhead]
    tauto

@[simp] theorem checkEach_eq_ok_iff (key : α → κ) (before : α → Except ε Unit) (duplicate : α → ε)
    (after : α → Except ε Unit) (xs : List α) :
    checkEach key before duplicate after [] xs = .ok ()
      ↔ (∀ x ∈ xs, before x = .ok () ∧ after x = .ok ()) ∧ (xs.map key).Nodup := by
  rw [checkEach_seen_iff]
  simp

end RomCloud.Lib
