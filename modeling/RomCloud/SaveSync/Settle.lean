import Mathlib.Algebra.Order.Field.Rat
import Mathlib.Algebra.Order.Ring.Rat
import Mathlib.Data.List.Chain
import Mathlib.Tactic.Linarith

namespace RomCloud.SaveSync

/-!
# When local saves have stopped changing

`settle` is the bounded loop that observes local content until two observations agree over a quiet
window.  The clock is told by how long things take (`Turn`), so that readings never go back and a
sleep lasts at least as long as was asked.

* `Quiet` — what a stability proof is evidence of, as a fact about the observations made;
* `Window` — what the loop carries: the run of equal observations that is still unbroken;
* `attempts_spec` — one turn extends, closes or restarts the window;
* `settle_quiet`, `waitUntilStable_quiet` — the answers of a whole loop.
-/

/-- One pass of the loop as the outside makes it: how long before the clock is read, how much
    longer than asked the sleep lasts, how long the observation takes and how long until the clock
    is read again.  `none` is an `OSError`. -/
structure Turn (M : Type*) where
  idle : ℚ≥0
  late : ℚ≥0
  reading : ℚ≥0
  noting : ℚ≥0
  outcome : Option M

/-- An observation of local content that was made. -/
structure LocalObservation (M : Type*) where
  start : ℚ
  finish : ℚ
  outcome : Option M
  ordered : start ≤ finish

structure SettledObservation (M : Type*) where
  stable : Bool
  observations : ℕ
  manifest : M
  observedAt : ℚ
  windowStartedAt : ℚ

/-- The coordinator's stability settings. -/
structure Stability where
  interval : ℚ≥0
  checks : ℕ

/-- `AutoSaveSyncCoordinator.__init__`. -/
def Stability.configured (quietSeconds : ℚ) (stabilityChecks : ℤ) : Stability where
  interval := quietSeconds.toNNRat
  checks := (max 1 stabilityChecks).toNat

section Loop

variable {M : Type*}

/-- The variables of the loop.  `now` is the time that has come. -/
structure Settling (M : Type*) where
  previous : Option M
  windowStartedAt : ℚ
  latestAt : ℚ
  observations : ℕ
  now : ℚ

/-- The loop before its first pass. -/
def Settling.begin (seed : Option (SettledObservation M)) (now : ℚ) : Settling M where
  previous := seed.map (·.manifest)
  windowStartedAt := (seed.map (·.windowStartedAt)).getD 0
  latestAt := (seed.map (·.observedAt)).getD 0
  observations := 0
  now := now

/-- How long the loop sleeps before it observes, when the clock reads `clock`. -/
def Settling.remaining (s : Settling M) (interval : ℚ≥0) (clock : ℚ) : ℚ :=
  if s.previous.isSome && interval != 0 then
    let remaining := (interval : ℚ) - (clock - s.windowStartedAt)
    if 0 < remaining then remaining else 0
  else 0

/-- The observation that a pass makes. -/
def Settling.observe (s : Settling M) (interval : ℚ≥0) (turn : Turn M) : LocalObservation M :=
  let clock := s.now + turn.idle
  let start := clock + s.remaining interval clock + turn.late
  ⟨start, start + turn.reading, turn.outcome, le_add_of_nonneg_right (NNRat.cast_nonneg _)⟩

/-- After an `OSError`: the observation is treated as unstable. -/
def Settling.failed (s : Settling M) (at_ : ℚ) : Settling M :=
  { s with previous := none, now := at_ }

/-- After an observation that does not repeat the one before. -/
def Settling.restart (s : Settling M) (current : M) (at_ : ℚ) : Settling M where
  previous := some current
  windowStartedAt := at_
  latestAt := at_
  observations := s.observations + 1
  now := at_

variable [DecidableEq M] [EmptyCollection M]

/-- The loop with `passes` passes to go, and the observations it makes. -/
def attempts (interval : ℚ≥0) :
    ℕ → (ℕ → Turn M) → Settling M → SettledObservation M × List (LocalObservation M)
  | 0, _, s => (⟨false, s.observations, s.previous.getD ∅, s.latestAt, s.windowStartedAt⟩, [])
  | passes + 1, turns, s =>
    let made := s.observe interval (turns 0)
    let at_ := made.finish + (turns 0).noting
    match made.outcome with
    | none =>
      let rest := attempts interval passes (fun i => turns (i + 1)) (s.failed at_)
      (rest.1, made :: rest.2)
    | some current =>
      if s.previous = some current then
        (⟨true, s.observations + 1, current, at_, s.windowStartedAt⟩, [made])
      else
        let rest := attempts interval passes (fun i => turns (i + 1)) (s.restart current at_)
        (rest.1, made :: rest.2)

/-- `_settle`: its answer and the observations it makes. -/
def settle (bound : Stability) (turns : ℕ → Turn M) (seed : Option (SettledObservation M))
    (now : ℚ) : SettledObservation M × List (LocalObservation M) :=
  attempts bound.interval (bound.checks + 1) turns (.begin seed now)

/-- `SettledObservation` narrowed by `groups_within`. -/
def SettledObservation.within {N : Type*} (narrow : N → M) (seed : SettledObservation N) :
    SettledObservation M :=
  { stable := seed.stable, observations := seed.observations, manifest := narrow seed.manifest,
    observedAt := seed.observedAt, windowStartedAt := seed.windowStartedAt }

/-- `_wait_until_stable`: only a stable seed is used, and of it only the asked groups. -/
def waitUntilStable {N : Type*} (bound : Stability) (narrow : N → M) (turns : ℕ → Turn M)
    (seed : Option (SettledObservation N)) (now : ℚ) :
    SettledObservation M × List (LocalObservation M) :=
  settle bound turns ((seed.filter (·.stable)).map (·.within narrow)) now

end Loop

/-! ### What a stability proof is evidence of -/

variable {M : Type*}

/-- The last observations of `history` form an unbroken run of two or more that all saw the
    manifest of `proof`, and the stability interval lies between the end of the first of them and
    the start of the last. -/
structure Quiet (interval : ℚ≥0) (history : List (LocalObservation M))
    (proof : SettledObservation M) : Prop where
  run : ∃ before first between last, history = before ++ first :: (between ++ [last]) ∧
    (∀ o ∈ first :: (between ++ [last]), o.outcome = some proof.manifest) ∧
    first.finish ≤ proof.windowStartedAt ∧ proof.windowStartedAt + interval ≤ last.start ∧
    last.finish ≤ proof.observedAt

/-- An observation of which only some groups are kept. -/
def LocalObservation.within {N : Type*} (narrow : N → M) (made : LocalObservation N) :
    LocalObservation M :=
  ⟨made.start, made.finish, made.outcome.map narrow, made.ordered⟩

/-- What did not change as a whole did not change in some groups. -/
theorem Quiet.within {N : Type*} {interval : ℚ≥0} (narrow : N → M)
    {history : List (LocalObservation N)} {proof : SettledObservation N}
    (h : Quiet interval history proof) :
    Quiet interval (history.map (·.within narrow)) (proof.within narrow) where
  run := by
    obtain ⟨before, first, between, last, rfl, hall, hfirst, hlast, hobserved⟩ := h.run
    refine ⟨before.map (·.within narrow), first.within narrow, between.map (·.within narrow),
      last.within narrow, by simp, ?_, hfirst, hlast, hobserved⟩
    intro o ho
    have hmem : o ∈ (first :: (between ++ [last])).map (·.within narrow) := by simpa using ho
    obtain ⟨made, hmade, rfl⟩ := List.mem_map.mp hmem
    show made.outcome.map narrow = some (narrow proof.manifest)
    rw [hall made hmade, Option.map_some]

/-- The second of two neighbouring observations failed or differs from the first. -/
def Unsettled (first second : LocalObservation M) : Prop :=
  ∀ manifest, first.outcome = some manifest → second.outcome ≠ some manifest

/-- `seed` is a stability proof about `history` from before `now`. -/
def Seeds (interval : ℚ≥0) (now : ℚ) :
    Option (SettledObservation M) → List (LocalObservation M) → Prop
  | none, history => history = []
  | some seed, history => seed.stable = true ∧ seed.observedAt ≤ now ∧ Quiet interval history seed

/-! ### The window -/

/-- What the loop knows of the observations so far: the last of them saw `previous`, and since the
    window began all of them did. -/
structure Window (history : List (LocalObservation M)) (s : Settling M) : Prop where
  last : s.previous = history.getLast?.bind (·.outcome)
  run : ∀ manifest, s.previous = some manifest →
    ∃ before first rest, history = before ++ first :: rest ∧
      (∀ o ∈ first :: rest, o.outcome = some manifest) ∧ first.finish ≤ s.windowStartedAt
  started : s.previous.isSome → s.windowStartedAt ≤ s.now

section Turns

variable {interval : ℚ≥0} {history : List (LocalObservation M)} {s : Settling M}

theorem Settling.remaining_nonneg (s : Settling M) (interval : ℚ≥0) (clock : ℚ) :
    0 ≤ s.remaining interval clock := by
  unfold Settling.remaining
  split
  · show (0 : ℚ) ≤ if 0 < _ then _ else 0
    split <;> linarith
  · exact le_rfl

theorem Settling.now_le_start (s : Settling M) (interval : ℚ≥0) (turn : Turn M) :
    s.now ≤ (s.observe interval turn).start := by
  have hremaining := s.remaining_nonneg interval (s.now + turn.idle)
  have hidle : (0 : ℚ) ≤ turn.idle := NNRat.cast_nonneg _
  have hlate : (0 : ℚ) ≤ turn.late := NNRat.cast_nonneg _
  show s.now ≤ s.now + turn.idle + s.remaining interval (s.now + turn.idle) + turn.late
  linarith

/-- With something to compare with, the observation starts after the whole interval. -/
theorem Settling.interval_le_start (turn : Turn M) (hprevious : s.previous.isSome)
    (hstarted : s.windowStartedAt ≤ s.now) :
    s.windowStartedAt + interval ≤ (s.observe interval turn).start := by
  by_cases hzero : interval = 0
  · have hstart := s.now_le_start interval turn
    rw [hzero] at hstart ⊢
    rw [NNRat.cast_zero, add_zero]
    exact hstarted.trans hstart
  · have hlate : (0 : ℚ) ≤ turn.late := NNRat.cast_nonneg _
    show _ ≤ s.now + turn.idle + s.remaining interval (s.now + turn.idle) + turn.late
    have hremaining : (interval : ℚ) - (s.now + turn.idle - s.windowStartedAt)
        ≤ s.remaining interval (s.now + turn.idle) := by
      unfold Settling.remaining
      rw [if_pos (by simp [hprevious, hzero])]
      show _ ≤ if 0 < _ then _ else 0
      split <;> linarith
    linarith

/-- An observation that failed leaves nothing to compare with. -/
theorem Window.failed {made : LocalObservation M} (hnone : made.outcome = none) (at_ : ℚ) :
    Window (history ++ [made]) (s.failed at_) where
  last := by simp [Settling.failed, hnone]
  run := by
    intro manifest h
    exact absurd h (by simp [Settling.failed])
  started := by simp [Settling.failed]

/-- An observation that differs begins a run of its own. -/
theorem Window.restart {made : LocalObservation M} {current : M} {at_ : ℚ}
    (hsome : made.outcome = some current) (hat : made.finish ≤ at_) :
    Window (history ++ [made]) (s.restart current at_) where
  last := by simp [Settling.restart, hsome]
  run := by
    intro manifest h
    obtain rfl : current = manifest := Option.some.inj h
    refine ⟨history, made, [], rfl, ?_, hat⟩
    intro o ho
    rw [List.mem_singleton.mp ho, hsome]
  started := fun _ => le_rfl

/-- An observation that repeats the one before closes a quiet window. -/
theorem Window.closed (h : Window history s) {made : LocalObservation M} {current : M} {at_ : ℚ}
    (hprevious : s.previous = some current) (hsome : made.outcome = some current)
    (hstart : s.windowStartedAt + interval ≤ made.start) (hat : made.finish ≤ at_)
    (count : ℕ) :
    Quiet interval (history ++ [made]) ⟨true, count, current, at_, s.windowStartedAt⟩ where
  run := by
    obtain ⟨before, first, rest, rfl, hall, hfirst⟩ := h.run current hprevious
    refine ⟨before, first, rest, made, by simp, ?_, hfirst, hstart, hat⟩
    intro o ho
    rw [← List.cons_append, List.mem_append, List.mem_singleton] at ho
    rcases ho with ho | rfl
    · exact hall o ho
    · exact hsome

/-- The window of a seed. -/
theorem Window.begin {now : ℚ} {seed : Option (SettledObservation M)}
    (hseed : Seeds interval now seed history) : Window history (.begin seed now) := by
  cases seed with
  | none =>
    obtain rfl : history = [] := hseed
    exact ⟨rfl, fun _ h => absurd h (by simp [Settling.begin]), by simp [Settling.begin]⟩
  | some seed =>
    obtain ⟨-, hnow, hquiet⟩ := hseed
    obtain ⟨before, first, between, last, rfl, hall, hfirst, hlast, hobserved⟩ := hquiet.run
    have hinterval : (0 : ℚ) ≤ interval := NNRat.cast_nonneg _
    refine ⟨?_, ?_, ?_⟩
    · have hsome := hall last (by simp)
      rw [← List.cons_append, ← List.append_assoc, List.getLast?_concat]
      exact hsome.symm
    · intro manifest h
      obtain rfl : seed.manifest = manifest := Option.some.inj h
      exact ⟨before, first, between ++ [last], rfl, hall, hfirst⟩
    · intro _
      have hordered := last.ordered
      show seed.windowStartedAt ≤ now
      linarith

/-- The observation that a pass makes is over before the clock is read again. -/
theorem Turn.finish_le (turn : Turn M) (made : LocalObservation M) :
    made.finish ≤ made.finish + (turn.noting : ℚ) :=
  le_add_of_nonneg_right (NNRat.cast_nonneg _)

end Turns

/-! ### The loop -/

variable {interval : ℚ≥0}

/-- What is told of a loop that has `passes` passes to go after `history`. -/
structure Told (interval : ℚ≥0) (passes : ℕ) (history : List (LocalObservation M)) (seen : ℕ)
    (result : SettledObservation M × List (LocalObservation M)) : Prop where
  bounded : result.2.length ≤ passes
  counted : result.1.observations = seen + result.2.countP (·.outcome.isSome)
  quiet : result.1.stable = true → Quiet interval (history ++ result.2) result.1
  unsettled : result.1.stable = false → result.2.length = passes ∧
    (history.getLast?.toList ++ result.2).IsChain Unsettled

/-- A pass that does not end the loop. -/
theorem Told.cons {passes seen : ℕ} {history : List (LocalObservation M)}
    {made : LocalObservation M} {result : SettledObservation M × List (LocalObservation M)}
    (h : Told interval passes (history ++ [made]) (seen + [made].countP (·.outcome.isSome)) result)
    (hpair : ∀ before, history.getLast? = some before → Unsettled before made) :
    Told interval (passes + 1) history seen (result.1, made :: result.2) where
  bounded := Nat.succ_le_succ h.bounded
  counted := by
    have hcount := h.counted
    show result.1.observations = seen + ([made] ++ result.2).countP (·.outcome.isSome)
    rw [hcount, List.countP_append, Nat.add_assoc]
  quiet := by
    intro hstable
    have hquiet := h.quiet hstable
    rwa [List.append_assoc, List.singleton_append] at hquiet
  unsettled := by
    intro hunstable
    obtain ⟨hlength, hchain⟩ := h.unsettled hunstable
    rw [List.getLast?_concat] at hchain
    refine ⟨congrArg (· + 1) hlength, ?_⟩
    cases hlast : history.getLast? with
    | none => exact hchain
    | some before => exact List.isChain_cons_cons.mpr ⟨hpair before hlast, hchain⟩

variable [DecidableEq M] [EmptyCollection M]

/-- Induction on the passes to go; the window carries what the next comparison needs. -/
theorem attempts_spec {passes : ℕ} {turns : ℕ → Turn M} {history : List (LocalObservation M)}
    {s : Settling M} (h : Window history s) :
    Told interval passes history s.observations (attempts interval passes turns s) := by
  induction passes generalizing turns history s with
  | zero =>
    refine ⟨le_rfl, rfl, fun hstable => absurd hstable (by simp [attempts]), fun _ => ⟨rfl, ?_⟩⟩
    cases history.getLast? with
    | none => exact .nil
    | some before => exact .singleton before
  | succ passes ih =>
    set made := s.observe interval (turns 0) with hmade
    have hat := (turns 0).finish_le made
    have houtcome : made.outcome = (turns 0).outcome := rfl
    -- the window says that the loop compares with the last observation of the history
    have hlast : ∀ before, history.getLast? = some before → before.outcome = s.previous := by
      intro before hbefore
      rw [h.last, hbefore]
      rfl
    rw [attempts, ← hmade]
    cases hturn : (turns 0).outcome with
    | none =>
      rw [hturn] at houtcome
      simp only [houtcome]
      have hwindow : Window (history ++ [made]) (s.failed (made.finish + (turns 0).noting)) :=
        .failed houtcome _
      have htold := @ih (fun i => turns (i + 1)) _ _ hwindow
      have hcount : s.observations = s.observations + [made].countP (·.outcome.isSome) := by
        simp [houtcome]
      have hseen : (s.failed (made.finish + (turns 0).noting)).observations =
          s.observations + [made].countP (·.outcome.isSome) := hcount
      rw [hseen] at htold
      apply htold.cons
      intro before _ manifest _ hsecond
      rw [houtcome] at hsecond
      cases hsecond
    | some current =>
      rw [hturn] at houtcome
      simp only [houtcome]
      have hcount : s.observations + 1 = s.observations + [made].countP (·.outcome.isSome) := by
        simp [houtcome]
      by_cases hmatch : s.previous = some current
      · rw [if_pos hmatch]
        have hsome : s.previous.isSome := by rw [hmatch]; rfl
        have hstart : s.windowStartedAt + interval ≤ made.start :=
          Settling.interval_le_start (turns 0) hsome (h.started hsome)
        refine ⟨Nat.succ_le_succ (Nat.zero_le _), hcount, fun _ => ?_, fun hfalse => ?_⟩
        · exact h.closed hmatch houtcome hstart hat _
        · cases hfalse
      · rw [if_neg hmatch]
        have hwindow : Window (history ++ [made])
            (s.restart current (made.finish + (turns 0).noting)) := .restart houtcome hat
        have htold := @ih (fun i => turns (i + 1)) _ _ hwindow
        have hseen : (s.restart current (made.finish + (turns 0).noting)).observations =
            s.observations + [made].countP (·.outcome.isSome) := hcount
        rw [hseen] at htold
        apply htold.cons
        intro before hbefore manifest hfirst hsecond
        rw [houtcome] at hsecond
        apply hmatch
        rw [← hlast before hbefore, hfirst, hsecond]

/-! ### The answers -/

theorem settle_told {bound : Stability} {turns : ℕ → Turn M} {now : ℚ}
    {seed : Option (SettledObservation M)} {history : List (LocalObservation M)}
    (hseed : Seeds bound.interval now seed history) :
    Told bound.interval (bound.checks + 1) history 0 (settle bound turns seed now) :=
  attempts_spec (.begin hseed)

/-- A seed over a wider scope is as good as one over the asked groups: the narrowed observations
    are observations of these groups. -/
theorem waitUntilStable_told {N : Type*} {bound : Stability} {narrow : N → M}
    {turns : ℕ → Turn M} {now : ℚ} {seed : SettledObservation N}
    {history : List (LocalObservation N)} (hstable : seed.stable = true)
    (hnow : seed.observedAt ≤ now) (hquiet : Quiet bound.interval history seed) :
    Told bound.interval (bound.checks + 1) (history.map (·.within narrow)) 0
      (waitUntilStable bound narrow turns (some seed) now) := by
  have hseed : Seeds bound.interval now
      (((some seed).filter (·.stable)).map (·.within narrow)) (history.map (·.within narrow)) := by
    rw [Option.filter_some, if_pos hstable]
    exact ⟨hstable, hnow, hquiet.within narrow⟩
  exact settle_told hseed

/-- Without a stable seed the loop starts afresh. -/
theorem waitUntilStable_of_unstable {N : Type*} {bound : Stability} {narrow : N → M}
    {turns : ℕ → Turn M} {now : ℚ} {seed : Option (SettledObservation N)}
    (h : ∀ given ∈ seed, given.stable = false) :
    Told bound.interval (bound.checks + 1) [] 0
      (waitUntilStable bound narrow turns seed now) := by
  have hnone : seed.filter (·.stable) = none := by
    apply Option.filter_eq_none_iff.mpr
    intro given hgiven
    rw [h given hgiven]
    exact Bool.false_ne_true
  rw [waitUntilStable, hnone]
  exact settle_told rfl

/-- A stability proof is a real quiet window: `_settle` makes at most `checks + 1` observations,
    `stable` rests on an unbroken run of equal ones over the whole interval, and `unstable` means
    that no two neighbouring ones were equal, the last of the seed included. -/
theorem settle_quiet {bound : Stability} {turns : ℕ → Turn M} {now : ℚ}
    {seed : Option (SettledObservation M)} {history : List (LocalObservation M)}
    (hseed : Seeds bound.interval now seed history) :
    let result := settle bound turns seed now
    result.2.length ≤ bound.checks + 1 ∧
    result.1.observations = result.2.countP (·.outcome.isSome) ∧
    (result.1.stable = true → Quiet bound.interval (history ++ result.2) result.1) ∧
    (result.1.stable = false → result.2.length = bound.checks + 1 ∧
      (history.getLast?.toList ++ result.2).IsChain Unsettled) := by
  intro result
  have htold : Told bound.interval (bound.checks + 1) history 0 result := settle_told hseed
  refine ⟨htold.bounded, ?_, htold.quiet, htold.unsettled⟩
  have hcount := htold.counted
  rwa [Nat.zero_add] at hcount

/-- A proof of two observations, three seconds apart, in seconds 0 to 5. -/
def quietSeed : SettledObservation (List ℕ) := ⟨true, 2, [7], 5, 1⟩

def quietHistory : List (LocalObservation (List ℕ)) :=
  [⟨0, 1, some [7], zero_le_one⟩, ⟨4, 5, some [7], by norm_num⟩]

/-- The save is replaced while it is read and is then left alone. -/
def quietTurns : ℕ → Turn (List ℕ)
  | 0 => ⟨1, 0, 1, 0, none⟩
  | _ => ⟨0, 0, 1, 0, some [8]⟩

theorem quietSeed_seeds : Seeds 3 6 (some quietSeed) quietHistory := by
  refine ⟨rfl, ?_, ⟨[], _, [], _, rfl, ?_, le_rfl, ?_, le_rfl⟩⟩
  · norm_num [quietSeed]
  · simp [quietSeed]
  · norm_num [quietSeed]

/-- The run is broken by the failed observation and proven again by the two after it. -/
theorem quietSeed_settled :
    Quiet 3 (quietHistory ++ (settle ⟨3, 2⟩ quietTurns (some quietSeed) 6).2)
      (settle ⟨3, 2⟩ quietTurns (some quietSeed) 6).1 ∧
    (settle ⟨3, 2⟩ quietTurns (some quietSeed) 6).1.manifest = [8] :=
  have hresult := @settle_quiet _ _ _ ⟨3, 2⟩ quietTurns _ _ _ quietSeed_seeds
  ⟨hresult.2.2.1 (by decide +kernel), by decide +kernel⟩

end RomCloud.SaveSync
