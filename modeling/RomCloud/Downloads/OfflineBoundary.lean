import RomCloud.Downloads.Worker

namespace RomCloud.Downloads

open RomCloud.Lib

/-!
# The Offline boundary

`apply_operating_mode(offline=True)` sets the latch and waits until there is neither a claim nor an
active item. While the latch is set the worker claims nothing and admits nothing, so that it touches
the ROM source no more until `apply_operating_mode(offline=False)`.

The worker sets the latch itself where it finds the policy offline. It does so in a section of the
control lock, except after a failed transfer: there the policy is read and the latch is written
outside of it, and an `apply_operating_mode(offline=False)` that returns in between is undone.

* `History`, `watched` — which calls of `apply_operating_mode` have returned, and when;
* `SourceQuiet` — the boundary of the calls that go offline, in every run;
* `LatchFree` — the end of the latch, in the runs in which no stale latch is written (`InTime`).
-/

namespace Pc

/-- The worker reads the policy outside of the lock. -/
def readsPolicy : Pc → Bool
  | failPolicy .. => true
  | _ => false

/-- The worker sets the latch outside of the lock. -/
def latches : Pc → Bool
  | failLatching .. => true
  | _ => false

end Pc

/-! ### What has returned -/

/-- The calls of `apply_operating_mode` so far. -/
structure History where
  /-- How many calls have cleared the latch. -/
  releases : ℕ
  /-- How many of these found a policy that was not offline. -/
  handovers : ℕ
  /-- `releases` at the time at which the last call of a thread has set the latch. -/
  since : ℕ → ℕ
  /-- `since`, of each call that set the latch and has returned. -/
  returned : List ℕ
  /-- `handovers` at the time at which the worker last read the policy outside of the lock. -/
  readAt : ℕ
  /-- A call has returned with a policy that was not offline. Neither a call that goes offline nor
  an offline policy came after it. -/
  released : Bool

namespace History

/-- Before any call. -/
def first : History := ⟨0, 0, fun _ => 0, [], 0, false⟩

/-- A call that waited for the worker returns when the worker is at no work, at once or later. -/
def after (h : History) (m : Manager) : Act → History
  | .applyOperatingMode thread true =>
    { h with
      since := Function.update h.since thread h.releases
      returned := if m.Quiescent then h.releases :: h.returned else h.returned
      released := false }
  | .applyOperatingMode _ false =>
    { h with
      releases := h.releases + 1
      handovers := if m.policyOffline then h.handovers else h.handovers + 1
      released := !m.policyOffline }
  | .proceed thread =>
    if m.calls thread = .waiting then { h with returned := h.since thread :: h.returned } else h
  | .setPolicy policy => { h with released := h.released && !policy.offline }
  | .work _ => if m.pc.readsPolicy then { h with readAt := h.handovers } else h
  | _ => h

end History

/-- The service, with the history of its calls. -/
def watched : Machine (Manager × History) Act := manager.watch History.first History.after

/-- When the worker sets the latch outside of the lock, it is set already, or the policy is offline,
or no call has handed the downloads back since the worker read the policy. -/
def InTime (p : Manager × History) : Act → Prop
  | .work _ => p.1.pc.latches = true →
      p.1.offlineSuspended = true ∨ p.1.policyOffline = true ∨ p.2.handovers = p.2.readAt
  | _ => True

instance (p : Manager × History) (a : Act) : Decidable (InTime p a) := by
  unfold InTime
  split <;> infer_instance

/-- The worker touches the source neither when a call that goes offline may return, nor after one
has returned, as long as no call clears the latch. -/
structure SourceQuiet (p : Manager × History) : Prop where
  atReturn : p.1.Quiescent → p.1.pc.touchesSource = false
  afterwards : p.2.releases ∈ p.2.returned → p.1.pc.touchesSource = false

/-- Where the downloads were handed back, the latch is not set. -/
def LatchFree (p : Manager × History) : Prop := p.2.released = true → p.1.offlineSuspended = false

section Worker

variable {m m' : Manager} {reply : Reply}

/-- Whatever touches the source is claimed or active. -/
theorem claims_or_working (pc : Pc) (h : pc.touchesSource = true) :
    pc.claims = true ∨ pc.working = true := by
  cases pc <;> simp_all [Pc.touchesSource, Pc.claims, Pc.working]

theorem Tracks.touchesSource (h : Tracks m) (hquiet : m.Quiescent) :
    m.pc.touchesSource = false := by
  obtain ⟨hclaims, hworking⟩ := h.quiescent_iff.mp hquiet
  by_contra htouches
  rcases claims_or_working m.pc (by simpa using htouches) with hon | hon
  · simp [hclaims] at hon
  · simp [hworking] at hon

/-! ### What the worker does to the latch -/

theorem policy_work : (m.work reply).policy = m.policy := by
  cases hpc : m.pc <;> simp only [Manager.work, hpc]
  all_goals (try split) <;> (try split) <;> (try split) <;> rfl

theorem calls_work (m : Manager) (reply : Reply) : (m.work reply).calls = m.calls := by
  cases hpc : m.pc <;> simp only [Manager.work, hpc]
  all_goals (try split) <;> (try split) <;> (try split) <;> rfl

/-- The worker never clears the latch. -/
theorem suspended_work (h : m.offlineSuspended = true) :
    (m.work reply).offlineSuspended = true := by
  cases hpc : m.pc <;> simp only [Manager.work, hpc]
  all_goals (try split) <;> (try split) <;> (try split) <;> simp_all [Manager.latched]

/-- Where it holds the lock, it sets the latch for an offline policy only. -/
theorem latched_of_work (hpc : m.pc.latches = false)
    (h : (m.work reply).offlineSuspended = true) : m.latched = true := by
  cases hat : m.pc <;> simp only [Manager.work, hat] at h
  all_goals
    (try split at h) <;> (try split at h) <;> (try split at h) <;>
      simp_all [Manager.latched, Pc.latches]

/-- It comes to the unlocked write from an offline policy. -/
theorem offline_of_latches (h : (m.work reply).pc.latches = true) :
    m.pc.readsPolicy = true ∧ m.policyOffline = true := by
  cases hat : m.pc <;> simp only [Manager.work, hat] at h
  all_goals
    (try split at h) <;> (try split at h) <;> (try split at h) <;>
      simp_all [Pc.latches, Pc.readsPolicy]

/-- While the latch is set, a worker at no work stays so. -/
theorem Tracks.quiescent_work (h : Tracks m) (hflag : m.offlineSuspended = true)
    (hquiet : m.Quiescent) : (m.work reply).Quiescent := by
  obtain ⟨hclaims, hworking⟩ := h.quiescent_iff.mp hquiet
  have hblocked : m.blocked = true := by simp [Manager.blocked, hflag]
  rw [(tracks_work h reply).quiescent_iff]
  cases hat : m.pc <;> rw [hat] at hclaims hworking <;> simp only [Manager.work, hat, hblocked]
  all_goals
    (try split) <;> (try split) <;> (try split) <;> simp_all [Pc.claims, Pc.working]

end Worker

/-! ### The boundary of the calls that go offline -/

section Boundary

variable {p q : Manager × History} {a : Act}

/-- What every run keeps. A call that set the latch finds it set, as long as no call has cleared it
since. -/
structure Bounded (p : Manager × History) : Prop where
  tracks : Tracks p.1
  since_le : ∀ t, p.2.since t ≤ p.2.releases
  returned_le : ∀ n ∈ p.2.returned, n ≤ p.2.releases
  waiting : ∀ t, p.1.calls t = .waiting → p.2.since t = p.2.releases →
    p.1.offlineSuspended = true
  quiet : p.2.releases ∈ p.2.returned → p.1.offlineSuspended = true ∧ p.1.Quiescent

theorem bounded_boot (items : Items) (policy : Option CapabilityPolicy) :
    Bounded (Manager.boot items policy, .first) :=
  ⟨⟨rfl, rfl⟩, fun _ => le_refl 0, fun _ h => absurd h List.not_mem_nil, nofun,
    fun h => absurd h List.not_mem_nil⟩

/-- What a thread leaves alone is as it was, as far as the latch and the waiting threads go. -/
theorem Bounded.of_aside (h : Bounded p) (haside : Manager.Aside p.1 q.1)
    (hsince : q.2.since = p.2.since) (hreleases : q.2.releases = p.2.releases)
    (hreturned : ∀ n ∈ q.2.returned, n ∈ p.2.returned
      ∨ ∃ t, p.1.calls t = .waiting ∧ p.1.Quiescent ∧ n = p.2.since t) : Bounded q := by
  have hquiescent : p.1.Quiescent → q.1.Quiescent := by
    intro ⟨hclaiming, hactive⟩
    refine ⟨haside.claiming ▸ hclaiming, ?_⟩
    have hmap := haside.active
    rw [hactive] at hmap
    simpa using hmap
  refine ⟨h.tracks.of_leaves haside.toLeaves, ?_, ?_, ?_, ?_⟩
  · intro t
    rw [hsince, hreleases]
    exact h.since_le t
  · intro n hn
    rw [hreleases]
    rcases hreturned n hn with hold | ⟨t, -, -, rfl⟩
    · exact h.returned_le n hold
    · exact h.since_le t
  · intro t hwait hat
    rw [hsince, hreleases] at hat
    rw [haside.flag]
    exact h.waiting t (haside.waiting t hwait) hat
  · intro hmem
    rw [hreleases] at hmem
    rw [haside.flag]
    rcases hreturned _ hmem with hold | ⟨t, hwait, hquiet, heq⟩
    · exact ⟨(h.quiet hold).1, hquiescent (h.quiet hold).2⟩
    · exact ⟨h.waiting t hwait heq.symm, hquiescent hquiet⟩

theorem Bounded.work (h : Bounded p) (reply : Reply) :
    Bounded (p.1.work reply, p.2.after p.1 (.work reply)) := by
  have hhistory : ∃ readAt, p.2.after p.1 (.work reply) = { p.2 with readAt := readAt } := by
    simp only [History.after]
    split
    · exact ⟨_, rfl⟩
    · exact ⟨p.2.readAt, rfl⟩
  obtain ⟨readAt, hhistory⟩ := hhistory
  rw [hhistory]
  refine ⟨tracks_work h.tracks reply, h.since_le, h.returned_le, ?_, ?_⟩
  · intro t hwait hat
    have hcalls : p.1.calls t = .waiting := by rw [← hwait, ← calls_work p.1 reply]
    exact suspended_work (h.waiting t hcalls hat)
  · intro hmem
    obtain ⟨hflag, hquiet⟩ := h.quiet hmem
    exact ⟨suspended_work hflag, h.tracks.quiescent_work hflag hquiet⟩

/-- A call that goes offline: the latch is set, and the call waits unless the worker is at no
work. -/
theorem Bounded.goOffline (h : Bounded p) (thread : ℕ) :
    Bounded (p.1.applyMode thread true, p.2.after p.1 (.applyOperatingMode thread true)) := by
  have hflag : (p.1.applyMode thread true).offlineSuspended = true := by
    have hasked := (Manager.aside_stopActive { p.1 with offlineSuspended := true } .paused).flag
    simp only [Manager.applyMode]
    split <;> exact hasked
  have hleaves := Manager.leaves_applyMode p.1 thread true
  have htracks := h.tracks.of_leaves hleaves
  refine ⟨htracks, ?_, ?_, fun _ _ _ => hflag, ?_⟩
  · intro t
    show Function.update p.2.since thread p.2.releases t ≤ p.2.releases
    by_cases ht : t = thread
    · rw [ht, Function.update_self]
    · rw [Function.update_of_ne ht]
      exact h.since_le t
  · show ∀ n ∈ (if p.1.Quiescent then p.2.releases :: p.2.returned else p.2.returned),
      n ≤ p.2.releases
    intro n hn
    split at hn
    · rcases List.mem_cons.mp hn with rfl | hn
      · exact le_refl _
      · exact h.returned_le n hn
    · exact h.returned_le n hn
  · show p.2.releases ∈ (if p.1.Quiescent then p.2.releases :: p.2.returned else p.2.returned) → _
    intro hmem
    refine ⟨hflag, ?_⟩
    -- At once, or as before: the call moves neither the claim nor the active item.
    rw [htracks.quiescent_iff, hleaves.pc, ← h.tracks.quiescent_iff]
    split at hmem
    · assumption
    · exact (h.quiet hmem).2

theorem Bounded.comeBack (h : Bounded p) (thread : ℕ) :
    Bounded (p.1.applyMode thread false, p.2.after p.1 (.applyOperatingMode thread false)) := by
  refine ⟨⟨h.tracks.claiming, h.tracks.active⟩, ?_, ?_, ?_, ?_⟩
  · intro t
    exact Nat.le_succ_of_le (h.since_le t)
  · intro n hn
    exact Nat.le_succ_of_le (h.returned_le n hn)
  · intro t _ hat
    have hsince : p.2.since t = p.2.releases + 1 := hat
    have hle := h.since_le t
    omega
  · intro hmem
    have hle : p.2.releases + 1 ≤ p.2.releases := h.returned_le _ hmem
    omega

theorem after_of_isAside (h : History) (m : Manager) (ha : Manager.isAside a = true) :
    h.after m a = h ∨ ∃ t, a = .proceed t ∧ m.calls t = .waiting
      ∧ h.after m a = { h with returned := h.since t :: h.returned } := by
  cases a with
  | proceed t =>
    simp only [History.after]
    split
    · next hwait => exact Or.inr ⟨t, rfl, hwait, rfl⟩
    · exact Or.inl rfl
  | work | applyOperatingMode | setPolicy => cases ha
  | _ => exact Or.inl rfl

theorem bounded_step (h : Bounded p) (hstep : watched.step p a = some q) : Bounded q := by
  obtain ⟨m', k'⟩ := q
  obtain ⟨hmove, rfl⟩ := (Machine.watch_step_eq_some_iff _ _ _).mp hstep
  rcases Manager.did_of_step hmove with reply | hgone | ⟨thread, offline⟩ | policy | ⟨ha, haside⟩
  · exact h.work reply
  · -- A new worker is at no work, nor was the one before it.
    have hidle : p.1.pc.claims = false ∧ p.1.pc.working = false := by
      rcases hgone with hpc | hpc <;> rw [hpc] <;> exact ⟨rfl, rfl⟩
    refine ⟨⟨h.tracks.claiming.trans hidle.1, h.tracks.active.trans hidle.2⟩, h.since_le,
      h.returned_le, h.waiting, h.quiet⟩
  · cases offline with
    | false => exact h.comeBack thread
    | true => exact h.goOffline thread
  · exact ⟨⟨h.tracks.claiming, h.tracks.active⟩, h.since_le, h.returned_le, h.waiting, h.quiet⟩
  · rcases after_of_isAside p.2 p.1 ha with heq | ⟨t, rfl, hwait, heq⟩
    · exact h.of_aside haside (by rw [heq]) (by rw [heq]) fun n hn => Or.inl (by rwa [heq] at hn)
    · refine h.of_aside haside (by rw [heq]) (by rw [heq]) ?_
      intro n hn
      rw [heq] at hn
      rcases List.mem_cons.mp hn with hnew | hold
      · exact Or.inr ⟨t, hwait, Manager.quiescent_of_goOn hwait hmove, hnew⟩
      · exact Or.inl hold

/-- **The boundary of the source.** In every run. -/
theorem sourceQuiet_of_reach (h : watched.Reach Machine.anyStep p) : SourceQuiet p := by
  have hbounded : Bounded p := by
    refine h.invariant ?_ fun _ _ _ _ hinv _ hstep => bounded_step hinv hstep
    rintro ⟨m, k⟩ ⟨⟨items, policy, -, rfl⟩, rfl⟩
    exact bounded_boot items policy
  have htracks := hbounded.tracks
  exact ⟨htracks.touchesSource, fun hmem => htracks.touchesSource (hbounded.quiet hmem).2⟩

end Boundary

/-! ### The end of the latch -/

section Latch

variable {p q : Manager × History} {a : Act}

/-- What a run keeps in which the worker sets no stale latch. -/
structure Unlatched (p : Manager × History) : Prop where
  readAt_le : p.2.readAt ≤ p.2.handovers
  online : p.2.released = true → p.1.policyOffline = false ∧ p.1.offlineSuspended = false
  late : p.1.pc.latches = true → p.2.handovers = p.2.readAt → p.2.released = false

theorem Unlatched.latched (h : Unlatched p) (hreleased : p.2.released = true) :
    p.1.latched = false := by
  obtain ⟨hpolicy, hflag⟩ := h.online hreleased
  rw [Manager.latched, hpolicy, hflag]
  rfl

theorem Unlatched.work (h : Unlatched p) {reply : Reply} (hallowed : InTime p (.work reply)) :
    Unlatched (p.1.work reply, p.2.after p.1 (.work reply)) := by
  have hreleased : (p.2.after p.1 (.work reply)).released = p.2.released := by
    simp only [History.after]
    split <;> rfl
  have hhandovers : (p.2.after p.1 (.work reply)).handovers = p.2.handovers := by
    simp only [History.after]
    split <;> rfl
  have hpolicy : (p.1.work reply).policyOffline = p.1.policyOffline := by
    rw [Manager.policyOffline, policy_work, Manager.policyOffline]
  refine ⟨?_, ?_, ?_⟩
  · simp only [History.after]
    split
    · exact le_refl _
    · exact h.readAt_le
  · show (p.2.after p.1 (.work reply)).released = true → (p.1.work reply).policyOffline = false
      ∧ (p.1.work reply).offlineSuspended = false
    rw [hreleased, hpolicy]
    intro hrel
    obtain ⟨honline, hflag⟩ := h.online hrel
    refine ⟨honline, ?_⟩
    by_contra hset
    cases hat : p.1.pc.latches with
    | false =>
      have hlatched := latched_of_work hat (by simpa using hset)
      rw [h.latched hrel] at hlatched
      cases hlatched
    | true =>
      rcases hallowed hat with hbad | hbad | hsame
      · rw [hflag] at hbad
        cases hbad
      · rw [honline] at hbad
        cases hbad
      · rw [h.late hat hsame] at hrel
        cases hrel
  · show (p.1.work reply).pc.latches = true → _
    intro hlatches _
    obtain ⟨-, hoffline⟩ := offline_of_latches hlatches
    show (p.2.after p.1 (.work reply)).released = false
    rw [hreleased]
    by_contra hrel
    obtain ⟨honline, -⟩ := h.online (by simpa using hrel)
    rw [honline] at hoffline
    cases hoffline

theorem unlatched_step (h : Unlatched p) (hallowed : InTime p a)
    (hstep : watched.step p a = some q) : Unlatched q := by
  obtain ⟨m', k'⟩ := q
  obtain ⟨hmove, rfl⟩ := (Machine.watch_step_eq_some_iff _ _ _).mp hstep
  rcases Manager.did_of_step hmove with reply | hgone | ⟨thread, offline⟩ | policy | ⟨ha, haside⟩
  · exact h.work hallowed
  · exact ⟨h.readAt_le, h.online, nofun⟩
  · cases offline with
    | false =>
      have hle := h.readAt_le
      refine ⟨?_, ?_, ?_⟩
      · simp only [History.after]
        split <;> omega
      · intro hrel
        have honline : p.1.policyOffline = false := by
          simpa using show (!p.1.policyOffline) = true from hrel
        exact ⟨honline, rfl⟩
      · show p.1.pc.latches = true →
          (if p.1.policyOffline then p.2.handovers else p.2.handovers + 1) = p.2.readAt →
            (!p.1.policyOffline) = false
        intro _ hsame
        split at hsame
        · next hoffline => rw [hoffline]; rfl
        · omega
    | true => exact ⟨h.readAt_le, nofun, fun _ _ => rfl⟩
  · refine ⟨h.readAt_le, ?_, ?_⟩
    · show (p.2.released && !policy.offline) = true → policy.offline = false
        ∧ p.1.offlineSuspended = false
      intro hrel
      obtain ⟨hrel, honline⟩ := Bool.and_eq_true_iff.mp hrel
      exact ⟨by simpa using honline, (h.online hrel).2⟩
    · show p.1.pc.latches = true → p.2.handovers = p.2.readAt →
        (p.2.released && !policy.offline) = false
      intro hlatches hsame
      rw [h.late hlatches hsame]
      rfl
  · have hpolicy : m'.policyOffline = p.1.policyOffline := by
      rw [Manager.policyOffline, haside.policy, Manager.policyOffline]
    have hhistory : ∃ returned, p.2.after p.1 a = { p.2 with returned := returned } := by
      rcases after_of_isAside p.2 p.1 ha with heq | ⟨t, -, -, heq⟩
      · exact ⟨p.2.returned, heq⟩
      · exact ⟨_, heq⟩
    obtain ⟨returned, heq⟩ := hhistory
    rw [heq]
    refine ⟨h.readAt_le, ?_, ?_⟩
    · show p.2.released = true → m'.policyOffline = false ∧ m'.offlineSuspended = false
      rw [hpolicy, haside.flag]
      exact h.online
    · show m'.pc.latches = true → _
      rw [haside.pc]
      exact h.late

/-- **The end of the latch.** In the runs without a stale latch. -/
theorem latchFree_of_reach (h : watched.Reach InTime p) : LatchFree p := by
  have hunlatched : Unlatched p := by
    refine h.invariant ?_ fun _ _ _ _ hinv hallowed hstep => unlatched_step hinv hallowed hstep
    rintro ⟨m, k⟩ ⟨-, rfl⟩
    exact ⟨le_refl 0, nofun, fun _ _ => rfl⟩
  exact fun hrel => (hunlatched.online hrel).2

end Latch

/-! ### Both boundaries -/

/-- **The Offline boundary.** Going offline is exact in every run; coming back is in the runs in
which the worker sets no stale latch. -/
theorem offline_boundary_exact (p : Manager × History) :
    (watched.Reach Machine.anyStep p → SourceQuiet p)
      ∧ (watched.Reach InTime p → SourceQuiet p ∧ LatchFree p) :=
  ⟨sourceQuiet_of_reach, fun h => ⟨sourceQuiet_of_reach h.any, latchFree_of_reach h⟩⟩

section Runs

/-- The service over an empty queue, in Cache Mode. -/
def inCacheMode : Manager × History := (Manager.boot ∅ (some ⟨.cache, false⟩), .first)

theorem reach_inCacheMode {allowed : Manager × History → Act → Prop} :
    watched.Reach allowed inCacheMode :=
  .init ⟨⟨∅, some ⟨.cache, false⟩, fun _ _ _ _ h => absurd h (by simp), rfl⟩, rfl⟩

/-- A download that the user's change to Offline pauses, and the change back. -/
def pausedRun : List Act :=
  [.enqueue 1 "one", .start] ++ admission ++ [.applyOperatingMode 0 true,
    .work { smooth with transfer := .cancelled }] ++ List.replicate 8 (.work smooth)
    ++ [.proceed 0, .applyOperatingMode 0 false, .enqueue 2 "two"] ++ admission

theorem pausedRun_boundary :
    ∃ p, watched.Reach InTime p ∧ (0 ∈ p.2.returned ∧ p.2.released = true
      ∧ p.1.pc.touchesSource = true) ∧ SourceQuiet p ∧ LatchFree p := by
  have hrun : (watched.drive InTime inCacheMode pausedRun).any (fun p =>
      decide (0 ∈ p.2.returned ∧ p.2.released = true ∧ p.1.pc.touchesSource = true)) = true := by
    decide +kernel
  obtain ⟨p, hreach, hcheck⟩ := Machine.exists_reach_of_drive reach_inCacheMode hrun
  exact ⟨p, hreach, of_decide_eq_true hcheck, (offline_boundary_exact p).2 hreach⟩

/-- A transfer fails. The worker finds the policy offline, the user comes back to Cache Mode, and
only then the worker sets the latch. -/
def staleLatchRun : List Act :=
  [.enqueue 1 "one", .start] ++ admission
    ++ [.work { smooth with transfer := .raises ⟨"OSError", "No route to host"⟩ },
      .setPolicy ⟨.offline, false⟩, .work smooth, .work smooth, .work smooth,
      .setPolicy ⟨.cache, false⟩, .applyOperatingMode 0 false]
    ++ List.replicate 7 (.work smooth) ++ [.enqueue 2 "two", .work smooth]

/-- Nothing is offline any more, and the next download of the queue does not start. -/
theorem staleLatchRun_blocked :
    ∃ p, watched.Reach Machine.anyStep p ∧ ¬ LatchFree p ∧ p.1.policyOffline = false
      ∧ ∃ item, p.1.pc = .fetched item ∧ ∀ reply, (p.1.work reply).pc = .head := by
  have hrun : (watched.drive Machine.anyStep inCacheMode staleLatchRun).any (fun p =>
      decide ((p.2.released = true ∧ p.1.offlineSuspended = true ∧ p.1.policyOffline = false)
        ∧ p.1.pc = .fetched ⟨2, some "two", .queued, 2, 0, 0, none⟩)) = true := by
    decide +kernel
  obtain ⟨p, hreach, hcheck⟩ := Machine.exists_reach_of_drive reach_inCacheMode hrun
  obtain ⟨⟨hreleased, hflag, hpolicy⟩, hpc⟩ := of_decide_eq_true hcheck
  have hblocked : p.1.blocked = true := by simp [Manager.blocked, hflag]
  refine ⟨p, hreach, fun hfree => ?_, hpolicy, _, hpc, fun reply => ?_⟩
  · rw [hfree hreleased] at hflag
    cases hflag
  · simp only [Manager.work, hpc, hblocked, if_true]

end Runs

end RomCloud.Downloads
