import Mathlib.Logic.Function.Basic
import RomCloud.Lib.Machine

namespace RomCloud.Mount

open Lib

/-!
# The lock of the mount worker

`_WorkerLock` and `is_worker_running`, one file-system step at a time, for any number of processes:

* `Phase` — where a process is in `is_worker_running`, in `__enter__` or between it and `__exit__`;
* `workerLock` — the machine: processes start, query, enter, go on by one step, and crash;
* `Orderly` — what a step must not meet: a lock file whose creator has not written to it yet, or
  another file than the one that was read;
* `LockInv` — the invariant: the file of a worker is at the path, and a file that is about to be
  removed has no worker;
* `orderly_runs_exclusive` — the runs whose steps are all orderly keep one worker at a time.

A file is what was created, not its path: the pid is written to the file that was created, and the
recovery removes whatever is at the path.
-/

/-- Where a process is.  `enters` says whether `is_worker_running` was called by `__enter__`, and
    `seen` is the file it has read. -/
inductive Phase (π : Type)
  | idle
  | checking (enters : Bool)
  | reading (enters : Bool)
  | judging (enters : Bool) (seen : Option ℕ) (pid : π)
  | matching (enters : Bool) (seen : Option ℕ) (pid : π)
  | unlinking (enters : Bool) (seen : Option ℕ)
  | creating
  | writing (file : ℕ)
  | inside (file : ℕ)
deriving DecidableEq

/-- The file a process has created and not removed yet. -/
def Phase.held {π : Type} : Phase π → Option ℕ
  | .writing file | .inside file => some file
  | _ => none

/-- Whether a process is on its way through `__enter__`, or past it. -/
def Phase.enters {π : Type} : Phase π → Bool
  | .idle => false
  | .checking enters | .reading enters | .judging enters _ _ | .matching enters _ _
  | .unlinking enters _ => enters
  | .creating | .writing _ | .inside _ => true

/-- The file at the path of the lock, the pid each file holds, and the processes: where each is, and
    whether its command line is that of the worker.  A text that is no number is none. -/
structure LockState (π : Type) where
  lock : Option ℕ
  text : ℕ → Option π
  nextFile : ℕ
  phase : π → Option (Phase π)
  isWorker : π → Bool

inductive LockAction (π : Type)
  | start (pid : π) (worker : Bool)
  | query (pid : π)
  | enter (pid : π)
  | advance (pid : π)
  | crash (pid : π)
deriving DecidableEq

variable {π : Type} [DecidableEq π]

/-- The process is somewhere else. -/
def LockState.move (s : LockState π) (pid : π) (phase : Phase π) : LockState π :=
  { s with phase := Function.update s.phase pid (some phase) }

/-- `is_worker_running` returns: `__enter__` goes on whatever it returns. -/
def returned (enters : Bool) : Phase π := if enters then .creating else .idle

/-- The next step of a process. -/
def advance (s : LockState π) (pid : π) : Phase π → Option (LockState π)
  | .idle => none
  | .checking enters =>
    some (s.move pid (if s.lock.isSome then .reading enters else returned enters))
  | .reading enters =>
    some (s.move pid
      (match s.lock.bind s.text with
      | none => .unlinking enters s.lock
      | some p => .judging enters s.lock p))
  | .judging enters seen p =>
    some (s.move pid
      (if (s.phase p).isSome then .matching enters seen p else .unlinking enters seen))
  | .matching enters seen p =>
    some (s.move pid
      (if (s.phase p).isSome ∧ s.isWorker p = true then returned enters
      else .unlinking enters seen))
  | .unlinking enters _ => some ({ s with lock := none }.move pid (returned enters))
  | .creating =>
    match s.lock with
    | some _ => some (s.move pid .idle)
    | none =>
      some ({ s with
        lock := some s.nextFile
        text := Function.update s.text s.nextFile none
        nextFile := s.nextFile + 1 }.move pid (.writing s.nextFile))
  | .writing file =>
    some ({ s with text := Function.update s.text file (some pid) }.move pid (.inside file))
  | .inside _ => some ({ s with lock := none }.move pid .idle)

/-- One step of one process.  Only a worker enters. -/
def lockStep (s : LockState π) : LockAction π → Option (LockState π)
  | .start pid worker =>
    if s.phase pid = none then
      some { s.move pid .idle with isWorker := Function.update s.isWorker pid worker }
    else none
  | .query pid => if s.phase pid = some .idle then some (s.move pid (.checking false)) else none
  | .enter pid =>
    if s.phase pid = some .idle ∧ s.isWorker pid = true then some (s.move pid (.checking true))
    else none
  | .advance pid => (s.phase pid).bind (advance s pid)
  | .crash pid =>
    if s.phase pid = none then none
    else some { s with phase := Function.update s.phase pid none }

/-- The machine.  Before anything runs, any file may be at the path, with any text. -/
def workerLock (π : Type) [DecidableEq π] : Machine (LockState π) (LockAction π) where
  init s := (∀ pid, s.phase pid = none) ∧ ∀ file, s.lock = some file → file < s.nextFile
  step := lockStep

/-- A worker holds a file from its creation on. -/
def Holds (s : LockState π) (pid : π) (file : ℕ) : Prop :=
  (s.phase pid).bind Phase.held = some file

/-- What a step must not meet: reading a file whose creator has not written to it yet, and removing
    another file than the one that was read. -/
def Orderly (s : LockState π) : LockAction π → Prop
  | .advance pid =>
    match s.phase pid with
    | some (.reading _) =>
      ∀ file, s.lock = some file → ∀ p, s.phase p ≠ some (.writing file)
    | some (.unlinking _ seen) => s.lock = none ∨ s.lock = seen
    | _ => True
  | _ => True

/-- A step removes no file that another process holds, and a recovery none that anyone holds. -/
def RemovesNoHeld (s : LockState π) : LockAction π → Prop
  | .advance pid =>
    match s.phase pid with
    | some (.inside _) => ∀ file, s.lock = some file → ∀ p, p ≠ pid → ¬ Holds s p file
    | some (.unlinking _ _) => ∀ file, s.lock = some file → ∀ p, ¬ Holds s p file
    | _ => True
  | _ => True

/-- At most one worker is inside the lock. -/
def Exclusive (s : LockState π) : Prop :=
  ∀ p q f g, s.phase p = some (.inside f) → s.phase q = some (.inside g) → p = q

/-! ### The invariant -/

/-- What a process may rely on where it is: the file it has read is either still that of the worker
    whose pid it holds, or of none; a file that it is about to remove is of none. -/
def PhaseOk (s : LockState π) (pid : π) : Phase π → Prop
  | .judging _ (some file) p | .matching _ (some file) p =>
    file < s.nextFile ∧ ∀ q, Holds s q file → q = p
  | .unlinking _ (some file) => file < s.nextFile ∧ ∀ q, ¬ Holds s q file
  | .inside file => s.text file = some pid
  | _ => True

/-- **The invariant.**  The file a worker holds is at the path. -/
structure LockInv (s : LockState π) : Prop where
  path : ∀ p file, Holds s p file → s.lock = some file
  owner : ∀ p q file, Holds s p file → Holds s q file → p = q
  fresh : ∀ file, s.lock = some file → file < s.nextFile
  entering : ∀ p phase, s.phase p = some phase → phase.enters = true → s.isWorker p = true
  ok : ∀ p phase, s.phase p = some phase → PhaseOk s p phase

omit [DecidableEq π] in
theorem Holds.phase {s : LockState π} {p : π} {file : ℕ} (h : Holds s p file) :
    ∃ phase, s.phase p = some phase ∧ phase.held = some file := Option.bind_eq_some_iff.mp h

omit [DecidableEq π] in
theorem Phase.enters_of_held {phase : Phase π} {file : ℕ} (h : phase.held = some file) :
    phase.enters = true := by
  cases phase <;> simp_all [Phase.held, Phase.enters]

namespace LockInv

variable {s t : LockState π}

omit [DecidableEq π] in
theorem worker (h : LockInv s) {p : π} {file : ℕ} (hp : Holds s p file) :
    s.isWorker p = true ∧ (s.phase p).isSome := by
  obtain ⟨phase, hphase, hheld⟩ := hp.phase
  exact ⟨h.entering p phase hphase (Phase.enters_of_held hheld), by rw [hphase]; rfl⟩

omit [DecidableEq π] in
/-- All workers hold the one file at the path. -/
theorem unique (h : LockInv s) {p q : π} {f g : ℕ} (hp : Holds s p f) (hq : Holds s q g) :
    p = q := by
  have hfg : f = g := Option.some.inj ((h.path p f hp).symm.trans (h.path q g hq))
  exact h.owner p q g (hfg ▸ hp) hq

omit [DecidableEq π] in
/-- What a process relies on stays, where nobody takes a file that exists and the pids of the files
    stay. -/
theorem phaseOk_mono {p : π} {phase : Phase π} (hok : PhaseOk s p phase)
    (hnext : s.nextFile ≤ t.nextFile)
    (hheld : ∀ q file, file < s.nextFile → Holds t q file → Holds s q file)
    (htext : ∀ file, phase = .inside file → t.text file = s.text file) : PhaseOk t p phase := by
  cases phase with
  | judging enters seen q | matching enters seen q =>
    cases seen with
    | none => trivial
    | some file =>
      exact ⟨Nat.lt_of_lt_of_le hok.1 hnext, fun r hr => hok.2 r (hheld r file hok.1 hr)⟩
  | unlinking enters seen =>
    cases seen with
    | none => trivial
    | some file =>
      exact ⟨Nat.lt_of_lt_of_le hok.1 hnext, fun r hr => hok.2 r (hheld r file hok.1 hr)⟩
  | inside file =>
    show t.text file = some p
    rw [htext file rfl]
    exact hok
  | idle | checking | reading | creating | writing => trivial

/-- A process goes on to where it holds no file, or is gone.  The path may be freed if nobody else
    holds a file. -/
theorem released (h : LockInv s) {pid : π} {o : Option (Phase π)}
    (hphase : t.phase = Function.update s.phase pid o) (hheld : o.bind Phase.held = none)
    (htext : t.text = s.text) (hnext : t.nextFile = s.nextFile)
    (hlock : t.lock = s.lock ∨ t.lock = none ∧ ∀ p file, p ≠ pid → ¬ Holds s p file)
    (hworker : ∀ p, p ≠ pid → t.isWorker p = s.isWorker p)
    (hok : ∀ phase, o = some phase →
      PhaseOk s pid phase ∧ (phase.enters = true → t.isWorker pid = true)) : LockInv t := by
  have hself : t.phase pid = o := by rw [hphase, Function.update_self]
  have hother : ∀ p, p ≠ pid → t.phase p = s.phase p := fun p hp => by
    rw [hphase, Function.update_of_ne hp]
  have hsub : ∀ p file, Holds t p file → p ≠ pid ∧ Holds s p file := by
    intro p file hp
    have hne : p ≠ pid := by
      rintro rfl
      rw [Holds, hself, hheld] at hp
      exact absurd hp (by simp)
    rw [Holds, hother p hne] at hp
    exact ⟨hne, hp⟩
  refine ⟨?_, ?_, ?_, ?_, ?_⟩
  · intro p file hp
    obtain ⟨hne, hp⟩ := hsub p file hp
    rcases hlock with hlock | ⟨-, hnone⟩
    · rw [hlock]
      exact h.path p file hp
    · exact absurd hp (hnone p file hne)
  · exact fun p q file hp hq => h.owner p q file (hsub p file hp).2 (hsub q file hq).2
  · intro file hfile
    rcases hlock with hlock | ⟨hlock, -⟩
    · rw [hnext]
      exact h.fresh file (hlock ▸ hfile)
    · rw [hlock] at hfile
      exact absurd hfile (by simp)
  · intro p phase hp henters
    by_cases hpid : p = pid
    · subst hpid
      exact (hok phase (hself.symm.trans hp)).2 henters
    · rw [hother p hpid] at hp
      rw [hworker p hpid]
      exact h.entering p phase hp henters
  · intro p phase hp
    have hmono : ∀ {q}, PhaseOk s q phase → PhaseOk t q phase := fun hq =>
      phaseOk_mono hq (Nat.le_of_eq hnext.symm) (fun q file _ hr => (hsub q file hr).2)
        fun file _ => by rw [htext]
    by_cases hpid : p = pid
    · subst hpid
      exact hmono (hok phase (hself.symm.trans hp)).1
    · exact hmono (h.ok p phase ((hother p hpid).symm.trans hp))

/-- A worker creates the file, where none is. -/
theorem created (h : LockInv s) {pid : π} (hlock : s.lock = none)
    (hworker : s.isWorker pid = true) :
    LockInv ({ s with
      lock := some s.nextFile
      text := Function.update s.text s.nextFile none
      nextFile := s.nextFile + 1 }.move pid (.writing s.nextFile)) := by
  have hnone : ∀ p file, ¬ Holds s p file := fun p file hp => by
    have hpath := h.path p file hp
    rw [hlock] at hpath
    exact absurd hpath (by simp)
  generalize ht : ({ s with
      lock := some s.nextFile
      text := Function.update s.text s.nextFile none
      nextFile := s.nextFile + 1 } : LockState π).move pid (.writing s.nextFile) = t
  have hself : t.phase pid = some (.writing s.nextFile) := by
    rw [← ht]
    exact Function.update_self ..
  have hother : ∀ p, p ≠ pid → t.phase p = s.phase p := fun p hp => by
    rw [← ht]
    exact Function.update_of_ne hp ..
  have honly : ∀ p file, Holds t p file → p = pid ∧ file = s.nextFile := by
    intro p file hp
    by_cases hpid : p = pid
    · subst hpid
      rw [Holds, hself] at hp
      exact ⟨rfl, (Option.some.inj hp).symm⟩
    · rw [Holds, hother p hpid] at hp
      exact absurd hp (hnone p file)
  have hfields : t.lock = some s.nextFile ∧ t.nextFile = s.nextFile + 1
      ∧ t.isWorker = s.isWorker := by
    rw [← ht]
    exact ⟨rfl, rfl, rfl⟩
  refine ⟨?_, ?_, ?_, ?_, ?_⟩
  · intro p file hp
    rw [hfields.1, (honly p file hp).2]
  · exact fun p q file hp hq => (honly p file hp).1.trans (honly q file hq).1.symm
  · intro file hfile
    rw [hfields.1] at hfile
    rw [hfields.2.1, ← Option.some.inj hfile]
    exact Nat.lt_succ_self _
  · intro p phase hp henters
    rw [hfields.2.2]
    by_cases hpid : p = pid
    · exact hpid ▸ hworker
    · exact h.entering p phase ((hother p hpid).symm.trans hp) henters
  · intro p phase hp
    by_cases hpid : p = pid
    · subst hpid
      obtain rfl := Option.some.inj (hself.symm.trans hp)
      trivial
    · rw [hother p hpid] at hp
      refine phaseOk_mono (h.ok p phase hp) ?_ ?_ ?_
      · rw [hfields.2.1]
        exact Nat.le_succ _
      · intro q file hlt hq
        rw [(honly q file hq).2] at hlt
        exact absurd hlt (Nat.lt_irrefl _)
      · rintro file rfl
        exact absurd (show Holds s p file by rw [Holds, hp]; rfl) (hnone p file)

/-- A worker writes its pid to the file it has created. -/
theorem written (h : LockInv s) {pid : π} {file : ℕ}
    (hphase : s.phase pid = some (.writing file)) :
    LockInv ({ s with text := Function.update s.text file (some pid) }.move pid
      (.inside file)) := by
  generalize ht : ({ s with text := Function.update s.text file (some pid) } :
    LockState π).move pid (.inside file) = t
  have hself : t.phase pid = some (.inside file) := by
    rw [← ht]
    exact Function.update_self ..
  have hother : ∀ p, p ≠ pid → t.phase p = s.phase p := fun p hp => by
    rw [← ht]
    exact Function.update_of_ne hp ..
  have hpid : Holds s pid file := by
    rw [Holds, hphase]
    rfl
  have hholds : ∀ p f, Holds t p f → Holds s p f := by
    intro p f hp
    by_cases hne : p = pid
    · subst hne
      rw [Holds, hself] at hp
      rwa [← show file = f from Option.some.inj hp]
    · rwa [Holds, hother p hne] at hp
  have hfields : t.lock = s.lock ∧ t.nextFile = s.nextFile ∧ t.isWorker = s.isWorker
      ∧ t.text = Function.update s.text file (some pid) := by
    rw [← ht]
    exact ⟨rfl, rfl, rfl, rfl⟩
  refine ⟨?_, ?_, ?_, ?_, ?_⟩
  · intro p f hp
    rw [hfields.1]
    exact h.path p f (hholds p f hp)
  · exact fun p q f hp hq => h.owner p q f (hholds p f hp) (hholds q f hq)
  · intro f hf
    rw [hfields.2.1]
    exact h.fresh f (hfields.1 ▸ hf)
  · intro p phase hp henters
    rw [hfields.2.2.1]
    by_cases hne : p = pid
    · exact hne ▸ (h.worker hpid).1
    · exact h.entering p phase ((hother p hne).symm.trans hp) henters
  · intro p phase hp
    by_cases hne : p = pid
    · subst hne
      obtain rfl := Option.some.inj (hself.symm.trans hp)
      show t.text file = some p
      rw [hfields.2.2.2, Function.update_self]
    · rw [hother p hne] at hp
      refine phaseOk_mono (h.ok p phase hp) (Nat.le_of_eq hfields.2.1.symm)
        (fun q f _ hq => hholds q f hq) ?_
      rintro f rfl
      -- another worker inside would hold the same file
      exact absurd (h.unique (show Holds s p f by rw [Holds, hp]; rfl) hpid) hne

/-- A process that goes on to where it holds no file. -/
theorem moved (h : LockInv s) {pid : π} {before phase : Phase π}
    (hbefore : s.phase pid = some before)
    (henters : phase.enters = true → before.enters = true) (hheld : phase.held = none)
    (hok : PhaseOk s pid phase) : LockInv (s.move pid phase) := by
  refine h.released rfl hheld rfl rfl (.inl rfl) (fun _ _ => rfl) fun x hx => ?_
  obtain rfl := Option.some.inj hx
  exact ⟨hok, fun hx => h.entering pid before hbefore (henters hx)⟩

omit [DecidableEq π] in
theorem returned_spec (s : LockState π) (pid : π) (enters : Bool) :
    ((returned enters : Phase π).enters = true → enters = true) ∧
      (returned enters : Phase π).held = none ∧ PhaseOk s pid (returned enters) := by
  cases enters
  · exact ⟨fun h => absurd h (by simp [returned, Phase.enters]), rfl, trivial⟩
  · exact ⟨fun _ => rfl, rfl, trivial⟩

omit [DecidableEq π] in
/-- The file that was read has a worker only if it holds the worker's pid. -/
theorem read_spec (h : LockInv s) {file : ℕ} (hlock : s.lock = some file)
    (horderly : ∀ p, s.phase p ≠ some (.writing file)) {p : π} (hp : Holds s p file) :
    s.text file = some p := by
  obtain ⟨phase, hphase, hheld⟩ := hp.phase
  cases phase with
  | inside f =>
    obtain rfl : f = file := Option.some.inj hheld
    exact h.ok p _ hphase
  | writing f =>
    obtain rfl : f = file := Option.some.inj hheld
    exact absurd hphase (horderly p)
  | idle | checking | reading | judging | matching | unlinking | creating =>
    exact absurd hheld (by simp [Phase.held])

omit [DecidableEq π] in
/-- **One step.**  An orderly step removes no held file. -/
theorem removesNoHeld (h : LockInv s) {a : LockAction π} (horderly : Orderly s a) :
    RemovesNoHeld s a := by
  cases a with
  | advance pid =>
    cases hphase : s.phase pid with
    | none => simp only [RemovesNoHeld, hphase]
    | some phase =>
      simp only [Orderly, hphase] at horderly
      simp only [RemovesNoHeld, hphase]
      cases phase with
      | inside file =>
        intro f hf p hne hp
        exact hne (h.unique hp (show Holds s pid file by rw [Holds, hphase]; rfl))
      | unlinking enters seen =>
        intro f hf p hp
        rcases horderly with hnone | hseen
        · rw [hnone] at hf
          exact absurd hf (by simp)
        · have hok := h.ok pid _ hphase
          rw [← hseen, hf] at hok
          exact hok.2 p hp
      | idle | checking | reading | judging | matching | creating | writing => trivial
  | start | query | enter | crash => trivial

/-- **One step.**  An orderly step keeps the invariant. -/
theorem step (h : LockInv s) {a : LockAction π} (horderly : Orderly s a)
    (hstep : lockStep s a = some t) : LockInv t := by
  cases a with
  | start pid worker =>
    simp only [lockStep, Option.ite_none_right_eq_some, Option.some.injEq] at hstep
    obtain ⟨hdead, rfl⟩ := hstep
    refine h.released rfl rfl rfl rfl (.inl rfl)
      (fun p hp => Function.update_of_ne hp ..) fun x hx => ?_
    obtain rfl := Option.some.inj hx
    exact ⟨trivial, fun h => absurd h (by simp [Phase.enters])⟩
  | query pid =>
    simp only [lockStep, Option.ite_none_right_eq_some, Option.some.injEq] at hstep
    obtain ⟨hidle, rfl⟩ := hstep
    exact h.moved hidle (fun h => absurd h (by simp [Phase.enters])) rfl trivial
  | enter pid =>
    simp only [lockStep, Option.ite_none_right_eq_some, Option.some.injEq] at hstep
    obtain ⟨⟨hidle, hworker⟩, rfl⟩ := hstep
    refine h.released rfl rfl rfl rfl (.inl rfl) (fun _ _ => rfl) fun x hx => ?_
    obtain rfl := Option.some.inj hx
    exact ⟨trivial, fun _ => hworker⟩
  | crash pid =>
    simp only [lockStep, Option.ite_none_left_eq_some, Option.some.injEq] at hstep
    obtain ⟨-, rfl⟩ := hstep
    exact h.released rfl rfl rfl rfl (.inl rfl) (fun _ _ => rfl) fun x hx => absurd hx (by simp)
  | advance pid =>
    have hremoves := h.removesNoHeld horderly
    obtain ⟨phase, hphase, hstep⟩ := Option.bind_eq_some_iff.mp hstep
    simp only [Orderly, RemovesNoHeld, hphase] at horderly hremoves
    cases phase with
    | idle => exact absurd hstep (by simp [advance])
    | checking enters =>
      obtain rfl := Option.some.inj hstep
      obtain ⟨henters, hheld, hok⟩ := returned_spec s pid enters
      split
      · exact h.moved hphase (fun h => h) rfl trivial
      · exact h.moved hphase henters hheld hok
    | reading enters =>
      obtain rfl := Option.some.inj hstep
      cases hlock : s.lock with
      | none => exact h.moved hphase (fun h => h) rfl trivial
      | some file =>
        have hread := fun p => h.read_spec (p := p) hlock (horderly file hlock)
        show LockInv (s.move pid (match s.text file with
          | none => .unlinking enters (some file)
          | some p => .judging enters (some file) p))
        cases htext : s.text file with
        | none =>
          refine h.moved hphase (fun h => h) rfl ⟨h.fresh file hlock, fun p hp => ?_⟩
          exact absurd ((hread p hp).symm.trans htext) (by simp)
        | some q =>
          refine h.moved hphase (fun h => h) rfl ⟨h.fresh file hlock, fun p hp => ?_⟩
          exact Option.some.inj ((hread p hp).symm.trans htext)
    | judging enters seen p =>
      obtain rfl := Option.some.inj hstep
      have hok := h.ok pid _ hphase
      by_cases halive : (s.phase p).isSome
      · rw [if_pos halive]
        refine h.moved hphase (fun h => h) rfl ?_
        cases seen with
        | none => trivial
        | some file => exact hok
      · rw [if_neg halive]
        refine h.moved hphase (fun h => h) rfl ?_
        cases seen with
        | none => trivial
        | some file => exact ⟨hok.1, fun q hq => halive (hok.2 q hq ▸ (h.worker hq).2)⟩
    | matching enters seen p =>
      obtain rfl := Option.some.inj hstep
      have hok := h.ok pid _ hphase
      obtain ⟨henters, hheld, hreturned⟩ := returned_spec s pid enters
      by_cases hmatch : (s.phase p).isSome ∧ s.isWorker p = true
      · rw [if_pos hmatch]
        exact h.moved hphase henters hheld hreturned
      · rw [if_neg hmatch]
        refine h.moved hphase (fun h => h) rfl ?_
        cases seen with
        | none => trivial
        | some file =>
          refine ⟨hok.1, fun q hq => hmatch ?_⟩
          obtain rfl := hok.2 q hq
          exact (h.worker hq).symm
    | unlinking enters seen =>
      obtain rfl := Option.some.inj hstep
      obtain ⟨henters, hheld, hreturned⟩ := returned_spec s pid enters
      refine h.released rfl hheld rfl rfl (.inr ⟨rfl, fun p file _ hp => ?_⟩) (fun _ _ => rfl)
        fun x hx => ?_
      · exact hremoves file (h.path p file hp) p hp
      · obtain rfl := Option.some.inj hx
        exact ⟨hreturned, fun hx => h.entering pid _ hphase (henters hx)⟩
    | creating =>
      simp only [advance] at hstep
      cases hlock : s.lock with
      | none =>
        rw [hlock] at hstep
        obtain rfl := Option.some.inj hstep
        exact h.created hlock (h.entering pid _ hphase rfl)
      | some file =>
        rw [hlock] at hstep
        obtain rfl := Option.some.inj hstep
        exact h.moved hphase (fun h => absurd h (by simp [Phase.enters])) rfl trivial
    | writing file =>
      obtain rfl := Option.some.inj hstep
      exact h.written hphase
    | inside file =>
      obtain rfl := Option.some.inj hstep
      have hpid : Holds s pid file := by
        rw [Holds, hphase]
        rfl
      refine h.released rfl rfl rfl rfl (.inr ⟨rfl, fun p f hne hp => hne (h.unique hp hpid)⟩)
        (fun _ _ => rfl) fun x hx => ?_
      obtain rfl := Option.some.inj hx
      exact ⟨trivial, fun h => absurd h (by simp [Phase.enters])⟩

theorem start {s : LockState π} (h : (workerLock π).init s) : LockInv s := by
  have hnone : ∀ p file, ¬ Holds s p file := fun p file hp => by
    rw [Holds, h.1 p] at hp
    exact absurd hp (by simp)
  exact ⟨fun p file hp => absurd hp (hnone p file), fun p q file hp => absurd hp (hnone p file),
    h.2, fun p phase hp => absurd ((h.1 p).symm.trans hp) (by simp),
    fun p phase hp => absurd ((h.1 p).symm.trans hp) (by simp)⟩

end LockInv

/-- **Orderly runs.**  In every state of a run whose steps are all orderly at most one worker is
    inside the lock, and no orderly step from there removes a file that another process holds. -/
theorem orderly_runs_exclusive {s : LockState π} (h : (workerLock π).Reach Orderly s) :
    Exclusive s ∧ ∀ a, Orderly s a → RemovesNoHeld s a := by
  have hinv : LockInv s :=
    h.invariant (fun _ hs => LockInv.start hs) fun _ _ _ _ hs horderly hstep =>
      hs.step horderly hstep
  constructor
  · intro p q f g hp hq
    exact hinv.unique (show Holds s p f by rw [Holds, hp]; rfl)
      (show Holds s q g by rw [Holds, hq]; rfl)
  · exact fun a horderly => hinv.removesNoHeld horderly

/-- No file, and nothing that runs. -/
def noLock : LockState ℕ where
  lock := none
  text _ := none
  nextFile := 0
  phase _ := none
  isWorker _ := false

theorem noLock_init : (workerLock ℕ).init noLock :=
  ⟨fun _ => rfl, fun _ h => absurd h (by simp [noLock])⟩

/-- A worker crashes inside the lock, and the next one recovers it. -/
theorem crashedWorker_recovered :
    ∃ s : LockState ℕ, s.phase 2 = some (.inside 1) ∧ Exclusive s
      ∧ ∀ a, Orderly s a → RemovesNoHeld s a := by
  have h : (workerLock ℕ).Reach Orderly noLock := .init noLock_init
  have h := h.step (show Orderly _ (.start 1 true) from trivial) rfl
  have h := h.step (show Orderly _ (.enter 1) from trivial) rfl
  have h := h.step (show Orderly _ (.advance 1) from trivial) rfl
  have h := h.step (show Orderly _ (.advance 1) from trivial) rfl
  have h := h.step (show Orderly _ (.advance 1) from trivial) rfl
  have h := h.step (show Orderly _ (.crash 1) from trivial) rfl
  have h := h.step (show Orderly _ (.start 2 true) from trivial) rfl
  have h := h.step (show Orderly _ (.enter 2) from trivial) rfl
  have h := h.step (show Orderly _ (.advance 2) from trivial) rfl
  have h := h.step (show Orderly _ (.advance 2) from by
    intro file _ p
    by_cases h2 : p = 2 <;> by_cases h1 : p = 1 <;>
      simp [LockState.move, noLock, h1, h2, returned]) rfl
  have h := h.step (show Orderly _ (.advance 2) from trivial) rfl
  have h := h.step (show Orderly _ (.advance 2) from .inr rfl) rfl
  have h := h.step (show Orderly _ (.advance 2) from trivial) rfl
  have h := h.step (show Orderly _ (.advance 2) from trivial) rfl
  exact ⟨_, rfl, orderly_runs_exclusive h⟩

/-- The first worker has created its file and not yet written to it when a query reads it, and
    removes it; the second worker creates another one. -/
def emptyLockRun : List (LockAction ℕ) :=
  [.start 1 true, .enter 1, .advance 1, .advance 1, .start 3 false, .query 3, .advance 3,
    .advance 3, .advance 3, .start 2 true, .enter 2, .advance 2, .advance 2, .advance 2,
    .advance 1]

theorem emptyLock_removed :
    ∃ s, (workerLock ℕ).Reach Machine.anyStep s ∧ ¬ Exclusive s := by
  have hdrive : ((workerLock ℕ).drive Machine.anyStep noLock emptyLockRun).any (fun s =>
      s.phase 1 = some (.inside 0) ∧ s.phase 2 = some (.inside 1)) = true := by decide +kernel
  obtain ⟨s, hs, hcheck⟩ := Machine.exists_reach_of_drive (.init noLock_init) hdrive
  rw [decide_eq_true_eq] at hcheck
  exact ⟨s, hs, fun h => absurd (h 1 2 0 1 hcheck.1 hcheck.2) (by decide)⟩

end RomCloud.Mount
