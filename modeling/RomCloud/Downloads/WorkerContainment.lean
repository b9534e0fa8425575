import RomCloud.Downloads.Worker

namespace RomCloud.Downloads

open RomCloud.Lib

/-!
# What the worker contains

Whatever `try_asset_locks` and `cache_game` raise, the worker goes on with the next turn of its
loop, with no row in flight, no active item, no claim and no locks. `retained_staging_size` is
called where nothing catches what it raises: before the `try`, and in both of its handlers. There
the thread ends.

* `Contained` — how a turn ends, and that it does end;
* `Holds` — what holds at every place of the loop, in the runs in which no such call raises
  (`Measured`);
* `holds_work` — the turns of the worker, place by place.
-/

namespace Pc

/-- The row that the worker may have in flight. -/
def inFlight : Pc → Option ItemId
  | caching attempt | cancelMeasuring attempt | cancelRecording attempt _ | cancelPopping attempt
  | failGetting attempt _ | failChecking attempt .. | failPolicy attempt .. | failLatching attempt _
  | failMeasuring attempt _ | failRecording attempt .. => some attempt.item.id
  | settling id _ | transitioning id .. => some id
  | _ => none

/-- What the worker has read of the row. -/
def snapshot : Pc → Option (ItemId × DownloadState)
  | failChecking attempt _ current | failPolicy attempt _ current | failLatching attempt current
  | failMeasuring attempt current | failRecording attempt current _ =>
    some (attempt.item.id, current.state)
  | transitioning id fromState .. => some (id, fromState)
  | _ => none

/-- The row leaves its flight where it goes. -/
def lands : Pc → Bool
  | settling _ toState | transitioning _ _ toState _ => !toState.inFlight
  | _ => true

/-- No exception has left the loop, or is about to. -/
def goesOn : Pc → Bool
  | dead => false
  | releasing goesOn | clearing goesOn | pruning goesOn => goesOn
  | _ => true

/-- How many leases the worker has. -/
def holds : Pc → ℕ
  | locked _ | measuring _ | admitting .. | dropping | caching _ | cancelMeasuring _
  | cancelRecording .. | cancelPopping _ | settling .. | failGetting .. | failChecking ..
  | failPolicy .. | failLatching .. | failMeasuring .. | failRecording .. | transitioning ..
  | releasing _ => 1
  | _ => 0

/-- How many steps the turn has left, at most. -/
def stepsLeft : Pc → ℕ
  | stopped | dead | head => 0
  | fetched _ => 18
  | locking _ => 17
  | lockRaised .. | lockRefused => 2
  | failing .. => 1
  | locked _ => 16
  | measuring _ => 15
  | admitting .. => 14
  | dropping => 1
  | caching _ => 13
  | cancelMeasuring _ => 12
  | cancelRecording .. => 11
  | cancelPopping _ => 10
  | failGetting .. => 10
  | failChecking .. => 9
  | failPolicy .. => 8
  | failLatching .. => 7
  | failMeasuring .. => 6
  | failRecording .. => 5
  | settling .. => 5
  | transitioning .. => 4
  | releasing _ => 3
  | clearing _ => 2
  | pruning _ => 1

end Pc

/-- `cache_game` has ended. -/
def Transfer.ends : Transfer → Bool
  | progress .. | publish _ => false
  | returns | cancelled | raises _ => true

/-- The worker goes on with the next turn: it is not gone, a turn comes to its end, and at its end
nothing of it is left. -/
structure Contained (m : Manager) : Prop where
  alive : m.pc ≠ .dead
  ends : ∀ reply, reply.transfer.ends = true → m.pc = .head ∨ m.pc = .stopped
    ∨ (m.work reply).pc.stepsLeft < m.pc.stepsLeft
  landed : m.pc = .head → ∀ row ∈ m.items.toList, row.state ≠ .running ∧ row.state ≠ .verifying
  cleared : m.pc = .head → m.claiming = false ∧ m.active = none
  released : m.pc = .head → m.leases = 0

/-- No call of `retained_staging_size` raises. -/
def Measured (m : Manager) : Act → Prop
  | .work reply => m.pc.measures = true → reply.retained.toBool = true
  | _ => True

instance (m : Manager) (a : Act) : Decidable (Measured m a) := by
  apply Act.casesOn (motive := fun a => Decidable (Measured m a)) a
  · intro reply
    exact inferInstanceAs (Decidable (m.pc.measures = true → reply.retained.toBool = true))
  all_goals
    intros
    exact .isTrue trivial

/-! ### A turn ends -/

variable {m m' : Manager}

theorem stepsLeft_work {reply : Reply} (hends : reply.transfer.ends = true)
    (hdead : m.pc ≠ .dead) : m.pc = .head ∨ m.pc = .stopped
      ∨ (m.work reply).pc.stepsLeft < m.pc.stepsLeft := by
  cases hpc : m.pc <;> simp only [Manager.work, hpc]
  all_goals
    (try split) <;> (try split) <;> (try split) <;> simp_all [Pc.stepsLeft, Transfer.ends]

/-! ### What holds at every place -/

/-- What the runs keep in which no call of `retained_staging_size` raises. -/
structure Holds (m : Manager) : Prop where
  tracks : Tracks m
  oneActive : m.items.OneActive
  leases : m.leases = m.pc.holds
  goesOn : m.pc.goesOn = true
  lands : m.pc.lands = true
  flight : ∀ id row, m.items.get? id = some row → row.state.inFlight = true →
    m.pc.inFlight = some id
  snapshot : ∀ id state row, m.pc.snapshot = some (id, state) → m.items.get? id = some row →
    row.state.inFlight = true → row.state = state

/-- Between two turns no row is in flight. -/
theorem Holds.none_inFlight (h : Holds m) (hpc : m.pc.inFlight = none) {id : ItemId}
    {row : DownloadItem} (hget : m.items.get? id = some row) : row.state.inFlight = false := by
  by_contra hin
  have hflight := h.flight id row hget (by simpa using hin)
  rw [hpc] at hflight
  cases hflight

section Work

variable {reply : Reply}

/-- The locks are those of the place where the worker stands, unless a call raises that nothing
catches. -/
theorem leases_work (h : m.leases = m.pc.holds) (hmeasured : Measured m (.work reply)) :
    (m.work reply).leases = (m.work reply).pc.holds := by
  cases hpc : m.pc <;> rw [hpc] at h <;> simp only [Manager.work, hpc]
  all_goals
    (try split) <;> (try split) <;> (try split) <;>
      simp_all [Pc.holds, Measured, Pc.measures, Except.toBool]

theorem goesOn_work (h : m.pc.goesOn = true) (hmeasured : Measured m (.work reply)) :
    (m.work reply).pc.goesOn = true := by
  cases hpc : m.pc <;> rw [hpc] at h <;> simp only [Manager.work, hpc]
  all_goals
    (try split) <;> (try split) <;> (try split) <;>
      simp_all [Pc.goesOn, Measured, Pc.measures, Except.toBool]

theorem target_not_inFlight (stop : Stop) : stop.target.inFlight = false := by
  cases stop <;> rfl

theorem lands_work (h : m.pc.lands = true) : (m.work reply).pc.lands = true := by
  cases hpc : m.pc <;> rw [hpc] at h <;> simp only [Manager.work, hpc]
  all_goals
    (try split) <;> (try split) <;> (try split) <;>
      simp_all [Pc.lands, target_not_inFlight] <;> rfl

/-- The steps that start a flight, run it, read its row or end it. -/
def Pc.flies : Pc → Bool
  | .admitting .. | .caching _ | .settling .. | .failGetting .. | .transitioning .. => true
  | _ => false

theorem inFlight_work (h : m.pc.flies = false) (hmeasured : Measured m (.work reply)) :
    (m.work reply).pc.inFlight = m.pc.inFlight
      ∧ ((m.work reply).pc.snapshot = m.pc.snapshot ∨ (m.work reply).pc.snapshot = none) := by
  cases hpc : m.pc <;> rw [hpc] at h <;> simp only [Manager.work, hpc]
  all_goals
    (try split) <;> (try split) <;> (try split) <;>
      simp_all [Pc.flies, Pc.inFlight, Pc.snapshot, Measured, Pc.measures, Except.toBool]

theorem settled_work (h : m.pc.flies = false) : Items.Settled m.items (m.work reply).items := by
  cases hpc : m.pc with
  | failing item fault =>
    simp only [Manager.work, hpc]
    exact Items.settled_transition item.id _ _ rfl
  | cancelRecording attempt present =>
    simp only [Manager.work, hpc]
    exact Items.settled_updateProgress ..
  | failRecording attempt current present =>
    simp only [Manager.work, hpc]
    exact Items.settled_updateProgress ..
  | pruning goesOn =>
    simp only [Manager.work, hpc]
    exact Items.settled_pruneTerminal _
  | admitting | caching | settling | failGetting | transitioning =>
    rw [hpc] at h
    cases h
  | _ =>
    simp only [Manager.work, hpc]
    (try split) <;> (try split) <;> (try split) <;> exact Items.Settled.refl _

/-- The step that starts the flight of the row: no other is in flight. -/
theorem Holds.launch (h : Holds m) {item : DownloadItem} {retained : ℕ}
    (hpc : m.pc = .admitting item retained) {id : ItemId} {row : DownloadItem}
    (hget : (m.work reply).items.get? id = some row) (hin : row.state.inFlight = true) :
    (m.work reply).pc.inFlight = some id := by
  have hnone : ∀ {row : DownloadItem}, m.items.get? id = some row → row.state.inFlight = true →
      False := by
    intro row hget hin
    have hout := h.none_inFlight (by rw [hpc]; rfl) hget
    rw [hin] at hout
    cases hout
  simp only [Manager.work, hpc] at hget ⊢
  split at hget
  · exact absurd hin fun hin => hnone hget hin
  · next hblocked =>
    rw [if_neg hblocked]
    rcases Items.transition_cases m.items item.id [.queued]
      (if 0 < retained then .verifying else .running) none with heq | ⟨old, hold, -, -, heq⟩
    · simp only [heq] at hget
      exact absurd hin fun hin => hnone hget hin
    · have hid : old.id = item.id := Table.key_of_get? hold
      simp only [heq, Table.get?_put] at hget ⊢
      split at hget
      · next hrow =>
        show some item.id = some id
        rw [hrow, hid]
      · exact absurd hin fun hin => hnone hget hin

/-- The transfer: its row stays the one in flight. -/
theorem Holds.cache (h : Holds m) {attempt : Attempt} (hpc : m.pc = .caching attempt)
    {id : ItemId} {row : DownloadItem} (hget : (m.work reply).items.get? id = some row)
    (hin : row.state.inFlight = true) : id = attempt.item.id := by
  have hbefore : ∀ {row : DownloadItem}, m.items.get? id = some row →
      row.state.inFlight = true → id = attempt.item.id := by
    intro row hget hin
    have hflight := h.flight id row hget hin
    rw [hpc] at hflight
    exact (Option.some.inj hflight).symm
  -- With or without the step from `verifying` to `running`.
  have hshown : ∀ {row : DownloadItem}, (if attempt.verificationPending then
        (m.items.transition attempt.item.id [.verifying] .running none).1
      else m.items).get? id = some row → row.state.inFlight = true → id = attempt.item.id := by
    intro row hget hin
    split at hget
    · rcases Items.inFlight_transition hget hin with heq | ⟨before, hget, hin⟩
      · exact heq
      · exact hbefore hget hin
    · exact hbefore hget hin
  simp only [Manager.work, hpc] at hget
  cases htransfer : reply.transfer with
  | progress done total persists =>
    simp only [htransfer] at hget
    cases persists with
    | false => exact hshown hget hin
    | true =>
      obtain ⟨old, hold, hstate⟩ :=
        (Items.settled_updateProgress attempt.item.id done total).calm id row hget hin
      exact hshown hold (hstate ▸ hin)
  | publish total =>
    simp only [htransfer] at hget
    obtain ⟨old, hold, hstate⟩ := (Items.settled_finalize _ total).calm id row hget hin
    exact hbefore hold (hstate ▸ hin)
  | returns | cancelled | raises =>
    simp only [htransfer] at hget
    exact hbefore hget hin

theorem oneActive_work (h : m.items.OneActive) : (m.work reply).items.OneActive := by
  cases hflies : m.pc.flies with
  | false => exact (settled_work hflies).oneActive h
  | true =>
    cases hpc : m.pc with
    | admitting item retained =>
      simp only [Manager.work, hpc]
      split
      · exact h
      · rcases Items.transition_cases m.items item.id [.queued]
          (if 0 < retained then .verifying else .running) none with heq | ⟨old, -, -, hfree, heq⟩
        · simp only [heq]
          exact h
        · simp only [heq]
          exact h.put hfree
    | caching attempt =>
      simp only [Manager.work, hpc]
      cases reply.transfer with
      | progress done total persists =>
        have hshown : (if attempt.verificationPending then
            (m.items.transition attempt.item.id [.verifying] .running none).1
          else m.items).OneActive := by
          split
          · exact Items.oneActive_transition h _ _ _ _
          · exact h
        cases persists with
        | false => exact hshown
        | true => exact (Items.settled_updateProgress attempt.item.id done total).oneActive hshown
      | publish total => exact (Items.settled_finalize attempt.item.id total).oneActive h
      | returns | cancelled | raises => exact h
    | settling id toState =>
      simp only [Manager.work, hpc]
      split <;> exact h
    | failGetting attempt fault =>
      simp only [Manager.work, hpc]
      split <;> exact h
    | transitioning id fromState toState error =>
      simp only [Manager.work, hpc]
      exact Items.oneActive_transition h _ _ _ _
    | _ =>
      rw [hpc] at hflies
      cases hflies

/-- The step that ends the flight: the row leaves the state that was read, and no other is in
flight. -/
theorem Holds.land (h : Holds m) {id : ItemId} {fromState toState : DownloadState}
    {error : Option Fault} (hpc : m.pc = .transitioning id fromState toState error)
    {i : ItemId} {row : DownloadItem} (hget : (m.work reply).items.get? i = some row) :
    row.state.inFlight = false := by
  have hlands : toState.inFlight = false := by
    have hlands := h.lands
    rw [hpc] at hlands
    simpa [Pc.lands] using hlands
  simp only [Manager.work, hpc] at hget
  by_contra hin
  have hin : row.state.inFlight = true := by simpa using hin
  obtain ⟨before, hbefore, hstate⟩ :=
    (Items.settled_transition id [fromState] error hlands).calm i row hget hin
  have hflight := h.flight i before hbefore (hstate ▸ hin)
  rw [hpc] at hflight
  cases hflight
  -- The row is still in the state that was read, so the transition has changed it.
  have hread : before.state = fromState :=
    h.snapshot id fromState before (by rw [hpc]; rfl) hbefore (hstate ▸ hin)
  have hactive : before.state.isActive = true := Items.inFlight_isActive (hstate ▸ hin)
  have hid : before.id = id := Table.key_of_get? hbefore
  rw [← hread, Items.transition_of_active h.oneActive error hbefore hactive,
    Table.get?_put, if_pos hid.symm] at hget
  cases hget
  rw [hlands] at hin
  cases hin

/-- The worker reads the row in flight, if it is there. -/
theorem Holds.read (h : Holds m) {id : ItemId} (hpc : m.pc.inFlight = some id)
    (hitems : (m.work reply).items = m.items)
    {i : ItemId} {row : DownloadItem} (hget : (m.work reply).items.get? i = some row)
    (hin : row.state.inFlight = true)
    (hnext : m.items.get? id = none ∨ ∃ current, m.items.get? id = some current
      ∧ (m.work reply).pc.inFlight = some id
      ∧ (m.work reply).pc.snapshot = some (id, current.state)) :
    (m.work reply).pc.inFlight = some i
      ∧ (m.work reply).pc.snapshot = some (i, row.state) := by
  rw [hitems] at hget
  have hflight := h.flight i row hget hin
  rw [hpc] at hflight
  cases hflight
  rcases hnext with hnone | ⟨current, hcurrent, hin', hsnapshot⟩
  · rw [hnone] at hget
    cases hget
  · rw [hcurrent] at hget
    cases hget
    exact ⟨hin', hsnapshot⟩

/-- What the place of the worker says of the rows in flight, after a step of a flight. -/
theorem Holds.fly (h : Holds m) (hflies : m.pc.flies = true) {i : ItemId} {row : DownloadItem}
    (hget : (m.work reply).items.get? i = some row) (hin : row.state.inFlight = true) :
    (m.work reply).pc.inFlight = some i ∧ ((m.work reply).pc.snapshot = none
      ∨ (m.work reply).pc.snapshot = some (i, row.state)) := by
  cases hpc : m.pc with
  | admitting item retained =>
    refine ⟨h.launch hpc hget hin, Or.inl ?_⟩
    simp only [Manager.work, hpc]
    split
    · rfl
    · split <;> rfl
  | caching attempt =>
    have hrow := h.cache hpc hget hin
    subst hrow
    simp only [Manager.work, hpc]
    cases reply.transfer <;> exact ⟨rfl, Or.inl rfl⟩
  | settling id toState =>
    have hitems : (m.work reply).items = m.items := by
      simp only [Manager.work, hpc]
      split <;> rfl
    have hread := h.read (by rw [hpc]; rfl) hitems hget hin
    cases hrow : m.items.get? id with
    | none => exact (hread (Or.inl hrow)).imp_right Or.inr
    | some current =>
      exact (hread (Or.inr ⟨current, hrow, by simp [Manager.work, hpc, hrow, Pc.inFlight],
        by simp [Manager.work, hpc, hrow, Pc.snapshot]⟩)).imp_right Or.inr
  | failGetting attempt fault =>
    have hitems : (m.work reply).items = m.items := by
      simp only [Manager.work, hpc]
      split <;> rfl
    have hread := h.read (by rw [hpc]; rfl) hitems hget hin
    cases hrow : m.items.get? attempt.item.id with
    | none => exact (hread (Or.inl hrow)).imp_right Or.inr
    | some current =>
      exact (hread (Or.inr ⟨current, hrow, by simp [Manager.work, hpc, hrow, Pc.inFlight],
        by simp [Manager.work, hpc, hrow, Pc.snapshot]⟩)).imp_right Or.inr
  | transitioning id fromState toState error =>
    rw [h.land hpc hget] at hin
    cases hin
  | _ =>
    rw [hpc] at hflies
    cases hflies

end Work

theorem holds_work (h : Holds m) {reply : Reply} (hmeasured : Measured m (.work reply)) :
    Holds (m.work reply) := by
  refine ⟨tracks_work h.tracks reply, oneActive_work h.oneActive, leases_work h.leases hmeasured,
    goesOn_work h.goesOn hmeasured, lands_work h.lands, ?_, ?_⟩
  · intro id row hget hin
    cases hflies : m.pc.flies with
    | false =>
      obtain ⟨before, hbefore, hstate⟩ := (settled_work hflies).calm id row hget hin
      rw [(inFlight_work hflies hmeasured).1]
      exact h.flight id before hbefore (hstate ▸ hin)
    | true => exact (h.fly hflies hget hin).1
  · intro id state row hat hget hin
    cases hflies : m.pc.flies with
    | false =>
      obtain ⟨before, hbefore, hstate⟩ := (settled_work hflies).calm id row hget hin
      rcases (inFlight_work hflies hmeasured).2 with hsame | hnone
      · rw [← hstate]
        exact h.snapshot id state before (hsame ▸ hat) hbefore (hstate ▸ hin)
      · rw [hnone] at hat
        cases hat
    | true =>
      rcases (h.fly hflies hget hin).2 with hnone | hread
      · rw [hnone] at hat
        cases hat
      · rw [hread] at hat
        cases hat
        rfl

/-- The other threads end no flight and start none. -/
theorem Holds.of_leaves (h : Holds m) (haside : Manager.Leaves m m') : Holds m' := by
  refine ⟨h.tracks.of_leaves haside, haside.items.oneActive h.oneActive, ?_, ?_, ?_, ?_, ?_⟩
  · rw [haside.leases, haside.pc, h.leases]
  · rw [haside.pc, h.goesOn]
  · rw [haside.pc, h.lands]
  · intro id row hget hin
    obtain ⟨before, hbefore, hstate⟩ := haside.items.calm id row hget hin
    rw [haside.pc]
    exact h.flight id before hbefore (hstate ▸ hin)
  · intro id state row hat hget hin
    obtain ⟨before, hbefore, hstate⟩ := haside.items.calm id row hget hin
    rw [haside.pc] at hat
    rw [← hstate]
    exact h.snapshot id state before hat hbefore (hstate ▸ hin)

theorem holds_boot {items : Items} (hitems : items.OneActive) (policy : Option CapabilityPolicy) :
    Holds (Manager.boot items policy) := by
  refine ⟨⟨rfl, rfl⟩, Items.oneActive_recoverInterrupted hitems, rfl, rfl, rfl, ?_, nofun⟩
  intro id row hget hin
  rw [Items.recoverInterrupted_not_inFlight hget] at hin
  cases hin

theorem holds_step {a : Act} (h : Holds m) (hmeasured : Measured m a)
    (hstep : m.step a = some m') : Holds m' := by
  rcases Manager.did_of_step hstep with reply | hgone | ⟨thread, offline⟩ | policy | ⟨-, haside⟩
  · exact holds_work h hmeasured
  · -- The worker that is gone has left the loop at its head.
    have hstopped : m.pc = .stopped := by
      refine hgone.resolve_right fun hdead => ?_
      have hgoesOn := h.goesOn
      rw [hdead] at hgoesOn
      cases hgoesOn
    have hnone : ∀ id row, m.items.get? id = some row → row.state.inFlight = true → False := by
      intro id row hget hin
      rw [h.none_inFlight (by rw [hstopped]; rfl) hget] at hin
      cases hin
    refine ⟨⟨?_, ?_⟩, h.oneActive, ?_, rfl, rfl, ?_, nofun⟩
    · rw [h.tracks.claiming, hstopped]
      rfl
    · rw [h.tracks.active, hstopped]
      rfl
    · rw [h.leases, hstopped]
      rfl
    · exact fun id row hget hin => (hnone id row hget hin).elim
  · exact h.of_leaves (Manager.leaves_applyMode m thread offline)
  · exact h.of_leaves ⟨rfl, rfl, rfl, rfl, Items.Settled.refl _⟩
  · exact h.of_leaves haside.toLeaves

theorem Holds.contained (h : Holds m) : Contained m := by
  have hdead : m.pc ≠ .dead := by
    intro hpc
    have hgoesOn := h.goesOn
    rw [hpc] at hgoesOn
    cases hgoesOn
  refine ⟨hdead, fun reply hends => stepsLeft_work hends hdead, ?_, ?_, ?_⟩
  · intro hpc row hmem
    have hout := h.none_inFlight (by rw [hpc]; rfl) ((Table.mem_toList_iff _ _).mp hmem)
    constructor <;> intro hstate <;> rw [hstate] at hout <;> cases hout
  · intro hpc
    have hclaiming := h.tracks.claiming
    have hactive := h.tracks.active
    rw [hpc] at hclaiming hactive
    exact ⟨hclaiming, by simpa [Pc.working] using hactive⟩
  · intro hpc
    rw [h.leases, hpc]
    rfl

/-- **Containment.** In the runs in which no call of `retained_staging_size` raises, the worker
goes on with the next turn, and nothing is left of the one before. -/
theorem worker_contains_failures (h : manager.Reach Measured m) : Contained m := by
  have hholds : Holds m := by
    refine h.invariant ?_ fun _ _ _ _ hinv hmeasured hstep => holds_step hinv hmeasured hstep
    rintro m ⟨items, policy, hitems, rfl⟩
    exact holds_boot hitems policy
  exact hholds.contained

/-- A transfer that fails for want of the network. -/
def failedRun : List Act :=
  [.enqueue 1 "one", .start] ++ admission
    ++ [.work { smooth with transfer := .raises ⟨"OSError", "No route to host"⟩ }]
    ++ List.replicate 7 (.work smooth)

theorem failedRun_contained :
    ∃ m, manager.Reach Measured m ∧ (m.pc = .head
      ∧ (m.items.get? 1).map DownloadItem.state = some .failed) ∧ Contained m := by
  have hrun : (manager.drive Measured (.boot ∅ none) failedRun).any (fun m => decide (m.pc = .head
      ∧ (m.items.get? 1).map DownloadItem.state = some .failed)) = true := by
    decide +kernel
  have hboot : manager.Reach Measured (.boot ∅ none) :=
    .init ⟨∅, none, fun _ _ _ _ h => absurd h (by simp), rfl⟩
  obtain ⟨m, hreach, hcheck⟩ := Machine.exists_reach_of_drive hboot hrun
  exact ⟨m, hreach, of_decide_eq_true hcheck, worker_contains_failures hreach⟩

/-- The user cancels a download before its closure is stored, and the source is gone when the
closure is resolved again to measure what was retained. -/
def lostSourceRun : List Act :=
  [.enqueue 1 "one", .start] ++ admission
    ++ [.cancel 0 1, .proceed 0, .work { smooth with transfer := .cancelled },
      .work { smooth with retained := .error ⟨"CacheError", "The descriptor is unreadable"⟩ }]
    ++ List.replicate 3 (.work smooth)

/-- The worker is gone, and the row runs on. -/
theorem lostSourceRun_dead :
    ∃ m, manager.Reach Machine.anyStep m ∧ ¬ Contained m ∧ m.pc = .dead
      ∧ (m.items.get? 1).map DownloadItem.state = some .running := by
  have hrun : (manager.drive Machine.anyStep (.boot ∅ none) lostSourceRun).any (fun m =>
      decide (m.pc = .dead ∧ (m.items.get? 1).map DownloadItem.state = some .running)) = true := by
    decide +kernel
  have hboot : manager.Reach Machine.anyStep (.boot ∅ none) :=
    .init ⟨∅, none, fun _ _ _ _ h => absurd h (by simp), rfl⟩
  obtain ⟨m, hreach, hcheck⟩ := Machine.exists_reach_of_drive hboot hrun
  obtain ⟨hpc, hrow⟩ := of_decide_eq_true hcheck
  exact ⟨m, hreach, fun hcontained => hcontained.alive hpc, hpc, hrow⟩

end RomCloud.Downloads
