import RomCloud.Lib.Machine
import RomCloud.Downloads.Queue
import Mathlib.Logic.Function.Basic

namespace RomCloud.Downloads

open RomCloud.Lib

/-!
# The download worker

`DownloadManagerService` as a machine: one worker thread and any number of callers, which interleave
at every call of the worker to the repository or the cache service, and at every section under the
control lock.

* `Pc` — where the worker stands in the loop of `_worker`, with its local variables;
* `Manager` — the attributes of the service, the queue, and the callers inside a method;
* `Manager.work` — the worker goes on, from the answer of the call that it stands at;
* `Manager.step`, `manager` — the worker and the methods that the other threads call;
* `did_of_step` — what a step can do: those of the other threads leave the worker where it is;
* `Tracks` — the claim and the active item are those of the place where the worker stands.
-/

/-- `OperatingMode`. -/
inductive OperatingMode
  | connected | cache | offline
deriving DecidableEq

/-- `CapabilityPolicy`, of which the worker asks for one capability. -/
structure CapabilityPolicy where
  operatingMode : OperatingMode
  blocksDownload : Bool
deriving DecidableEq

namespace CapabilityPolicy

/-- `offline`. -/
def offline (policy : CapabilityPolicy) : Bool := policy.operatingMode = .offline

/-- `allows(Capability.GAME_DOWNLOAD)`. -/
def allowsDownload (policy : CapabilityPolicy) : Bool := !policy.blocksDownload && !policy.offline

end CapabilityPolicy

/-- The actions that `_requested_stop` records. -/
inductive Stop
  | paused | cancelled | interrupted
deriving DecidableEq

/-- `DownloadState(requested)`. -/
def Stop.target : Stop → DownloadState
  | paused => .paused
  | cancelled => .cancelled
  | interrupted => .interrupted

/-! ### The worker thread -/

/-- The locals of the worker while `cache_game` runs. -/
structure Attempt where
  item : DownloadItem
  latestTotal : ℕ
  verificationPending : Bool
deriving DecidableEq

/-- Where the worker stands. Each constructor is the call or the section that comes next. -/
inductive Pc
  /-- No thread runs. -/
  | stopped
  /-- An exception has left `_worker`. -/
  | dead
  /-- The head of the loop: `_stopping` and `next_queued`. -/
  | head
  /-- The section that claims. -/
  | fetched (item : DownloadItem)
  /-- `try_asset_locks`. -/
  | locking (item : DownloadItem)
  /-- The section after an exception of `try_asset_locks`. -/
  | lockRaised (item : DownloadItem) (fault : Fault)
  /-- The transition of a queued row to `failed`. -/
  | failing (item : DownloadItem) (fault : Fault)
  /-- The section after locks that another process has. -/
  | lockRefused
  /-- The section after the locks. -/
  | locked (item : DownloadItem)
  /-- `retained_staging_size`, of the closure that came with the locks. -/
  | measuring (item : DownloadItem)
  /-- The section that makes the row active. -/
  | admitting (item : DownloadItem) (retained : ℕ)
  /-- `lease.release()` of an item that was not admitted. -/
  | dropping
  /-- `cache_game`. -/
  | caching (attempt : Attempt)
  /-- `retained_staging_size`, after `TransferCancelledError`. -/
  | cancelMeasuring (attempt : Attempt)
  /-- `update_progress`, after `TransferCancelledError`. -/
  | cancelRecording (attempt : Attempt) (present : ℕ)
  /-- The section that pops the requested stop. -/
  | cancelPopping (attempt : Attempt)
  /-- `get`, before the row moves on. -/
  | settling (id : ItemId) (toState : DownloadState)
  /-- `get`, after another exception. -/
  | failGetting (attempt : Attempt) (fault : Fault)
  /-- `_downloads_blocked` outside the lock: the latch is read. -/
  | failChecking (attempt : Attempt) (fault : Fault) (current : DownloadItem)
  /-- `_downloads_blocked` outside the lock: the policy is read. -/
  | failPolicy (attempt : Attempt) (fault : Fault) (current : DownloadItem)
  /-- `_downloads_blocked` outside the lock: the latch is set. -/
  | failLatching (attempt : Attempt) (current : DownloadItem)
  /-- `retained_staging_size`, after a failure while blocked. -/
  | failMeasuring (attempt : Attempt) (current : DownloadItem)
  /-- `update_progress`, after a failure while blocked. -/
  | failRecording (attempt : Attempt) (current : DownloadItem) (present : ℕ)
  /-- `transition`, from the state that `get` has read. -/
  | transitioning (id : ItemId) (fromState toState : DownloadState) (error : Option Fault)
  /-- `lease.release()` of the `finally`; whether the loop goes on after it. -/
  | releasing (goesOn : Bool)
  /-- The section of the `finally`. -/
  | clearing (goesOn : Bool)
  /-- `prune_terminal`. -/
  | pruning (goesOn : Bool)
deriving DecidableEq

namespace Pc

/-- A call is under way that may touch the ROM source: the resolution of a closure or a transfer.
With the closure that came with the locks, `retained_staging_size` reads the staging records. -/
def touchesSource : Pc → Bool
  | locking _ | caching _ | cancelMeasuring _ | failMeasuring .. => true
  | _ => false

/-- The claim of the worker is on. -/
def claims : Pc → Bool
  | locking _ | lockRaised .. | lockRefused | locked _ => true
  | _ => false

/-- An item is active. -/
def working : Pc → Bool
  | caching _ | cancelMeasuring _ | cancelRecording .. | cancelPopping _ | settling ..
  | failGetting .. | failChecking .. | failPolicy .. | failLatching .. | failMeasuring ..
  | failRecording .. | transitioning .. | releasing _ | clearing _ => true
  | _ => false

/-- `retained_staging_size` is under way. -/
def measures : Pc → Bool
  | measuring _ | cancelMeasuring _ | failMeasuring .. => true
  | _ => false

end Pc

/-! ### The service -/

/-- `_active_item_id`, with the state of `_active_token`: the two are set together. -/
structure Active where
  item : ItemId
  cancelled : Bool
deriving DecidableEq

/-- A thread inside a method of the service. -/
inductive Call
  | idle
  /-- Before the section of `pause` or `cancel`, after the read of the row. -/
  | stopItem (id : ItemId) (stop : Stop)
  /-- Before the section of `cancel_all` or `shutdown`. -/
  | stopActive (stop : Stop)
  /-- Before the transition of `cancel`, after the read of a queued row. -/
  | cancelQueued (id : ItemId)
  /-- In `wait` of `apply_operating_mode(offline=True)`. -/
  | waiting
deriving DecidableEq

/-- The attributes of `DownloadManagerService`, the rows, and the threads. -/
structure Manager where
  items : Items
  policy : Option CapabilityPolicy
  stopping : Bool
  offlineSuspended : Bool
  claiming : Bool
  active : Option Active
  requestedStop : ItemId → Option Stop
  leases : ℕ
  pc : Pc
  calls : ℕ → Call

namespace Manager

/-- The constructor, over the rows that the last process left. -/
def boot (items : Items) (policy : Option CapabilityPolicy) : Manager where
  items := items.recoverInterrupted
  policy := policy
  stopping := false
  offlineSuspended := false
  claiming := false
  active := none
  requestedStop := fun _ => none
  leases := 0
  pc := .stopped
  calls := fun _ => .idle

/-- The mode that the policy file has. -/
def policyOffline (m : Manager) : Bool := m.policy.any CapabilityPolicy.offline

/-- What `_downloads_blocked` returns. -/
def blocked (m : Manager) : Bool :=
  m.offlineSuspended || m.policy.any fun policy => !policy.allowsDownload

/-- What `_downloads_blocked` leaves in the latch. -/
def latched (m : Manager) : Bool := m.offlineSuspended || m.policyOffline

/-- The section of `_request_active_stop` and of its siblings: stop the item that is active. -/
def stopActive (m : Manager) (stop : Stop) : Manager :=
  match m.active with
  | none => m
  | some active =>
    { m with
      requestedStop := Function.update m.requestedStop active.item (some stop)
      active := some { active with cancelled := true } }

end Manager

/-- What `cache_game` does next. -/
inductive Transfer
  /-- `on_progress`, and whether the row is brought up to date. -/
  | progress (done total : ℕ) (persists : Bool)
  /-- `finalize_transfer`. -/
  | publish (total : ℕ)
  | returns
  | cancelled
  | raises (fault : Fault)
deriving DecidableEq

/-- The answers of the services, of which each step of the worker takes the one it waits for. -/
structure Reply where
  /-- Of `try_asset_locks`: whether there is a lease. -/
  locks : Except Fault Bool
  /-- Of `retained_staging_size`. -/
  retained : Except Fault ℕ
  transfer : Transfer
  /-- The rows that `prune_terminal` selects. -/
  selected : List ItemId

namespace Manager

/-- The worker after the call or the section that it stands at. -/
def work (m : Manager) (reply : Reply) : Manager :=
  match m.pc with
  | .stopped | .dead => m
  | .head =>
    if m.stopping then { m with pc := .stopped } else
    match m.items.nextQueued with
    | none => m
    | some item =>
      if item.gameId = none then
        { m with pc := .failing item ⟨"game_missing", "The catalog game no longer exists."⟩ }
      else { m with pc := .fetched item }
  | .fetched item =>
    if m.blocked then { m with offlineSuspended := m.latched, pc := .head }
    else { m with claiming := true, pc := .locking item }
  | .locking item =>
    match reply.locks with
    | .error fault => { m with pc := .lockRaised item fault }
    | .ok false => { m with pc := .lockRefused }
    | .ok true => { m with leases := m.leases + 1, pc := .locked item }
  | .lockRaised item fault =>
    { m with
      claiming := false, offlineSuspended := m.latched,
      pc := if m.blocked then .head else .failing item fault }
  | .failing item fault =>
    { m with items := (m.items.transition item.id [.queued] .failed (some fault)).1, pc := .head }
  | .lockRefused => { m with claiming := false, pc := .head }
  | .locked item => { m with claiming := false, pc := .measuring item }
  | .measuring item =>
    match reply.retained with
    -- Outside of any `try`: the thread ends, and the lease stays.
    | .error _ => { m with pc := .dead }
    | .ok retained => { m with pc := .admitting item retained }
  | .admitting item retained =>
    if m.blocked then
      { m with offlineSuspended := m.latched, claiming := false, pc := .dropping }
    else
      let initial : DownloadState := if 0 < retained then .verifying else .running
      match m.items.transition item.id [.queued] initial none with
      | (items, true) =>
        { m with
          items := items, active := some ⟨item.id, false⟩, claiming := false,
          pc := .caching ⟨item, item.bytesTotal, 0 < retained⟩ }
      | (items, false) => { m with items := items, claiming := false, pc := .dropping }
  | .dropping => { m with leases := m.leases - 1, pc := .head }
  | .caching attempt =>
    match reply.transfer with
    | .progress done total persists =>
      let shown := if attempt.verificationPending then
          (m.items.transition attempt.item.id [.verifying] .running none).1
        else m.items
      { m with
        items := if persists then shown.updateProgress attempt.item.id done total else shown,
        pc := .caching { attempt with latestTotal := total, verificationPending := false } }
    | .publish total => { m with items := m.items.finalize attempt.item.id total }
    | .returns => { m with pc := .settling attempt.item.id .complete }
    | .cancelled => { m with pc := .cancelMeasuring attempt }
    | .raises fault => { m with pc := .failGetting attempt fault }
  | .cancelMeasuring attempt =>
    match reply.retained with
    | .error _ => { m with pc := .releasing false }
    | .ok present => { m with pc := .cancelRecording attempt present }
  | .cancelRecording attempt present =>
    let total := if attempt.latestTotal ≠ 0 then attempt.latestTotal
      else ((m.items.get? attempt.item.id).map DownloadItem.bytesTotal).getD 0
    { m with
      items := m.items.updateProgress attempt.item.id present total, pc := .cancelPopping attempt }
  | .cancelPopping attempt =>
    let requested := (m.requestedStop attempt.item.id).getD .interrupted
    { m with
      requestedStop := Function.update m.requestedStop attempt.item.id none,
      pc := .settling attempt.item.id requested.target }
  | .settling id toState =>
    match m.items.get? id with
    | none => { m with pc := .releasing true }
    | some current => { m with pc := .transitioning id current.state toState none }
  | .failGetting attempt fault =>
    match m.items.get? attempt.item.id with
    | none => { m with pc := .releasing true }
    | some current => { m with pc := .failChecking attempt fault current }
  | .failChecking attempt fault current =>
    if m.offlineSuspended then { m with pc := .failMeasuring attempt current }
    else { m with pc := .failPolicy attempt fault current }
  | .failPolicy attempt fault current =>
    if m.policyOffline then { m with pc := .failLatching attempt current }
    else if m.policy.all CapabilityPolicy.allowsDownload then
      { m with pc := .transitioning attempt.item.id current.state .failed (some fault) }
    else { m with pc := .failMeasuring attempt current }
  | .failLatching attempt current =>
    { m with offlineSuspended := true, pc := .failMeasuring attempt current }
  | .failMeasuring attempt current =>
    match reply.retained with
    | .error _ => { m with pc := .releasing false }
    | .ok present => { m with pc := .failRecording attempt current present }
  | .failRecording attempt current present =>
    let total := if attempt.latestTotal ≠ 0 then attempt.latestTotal else current.bytesTotal
    { m with
      items := m.items.updateProgress attempt.item.id present total,
      pc := .transitioning attempt.item.id current.state .paused none }
  | .transitioning id fromState toState error =>
    { m with
      items := (m.items.transition id [fromState] toState error).1, pc := .releasing true }
  | .releasing goesOn => { m with leases := m.leases - 1, pc := .clearing goesOn }
  | .clearing goesOn => { m with active := none, pc := .pruning goesOn }
  | .pruning goesOn =>
    { m with
      items := m.items.pruneTerminal reply.selected, pc := if goesOn then .head else .dead }

end Manager

/-! ### The other threads -/

/-- What happens next: the worker goes on, or another thread does. -/
inductive Act
  | work (reply : Reply)
  /-- `start`. -/
  | start
  /-- `enqueue`, of one eligible game, with the id that is drawn for it. -/
  | enqueue (id : ItemId) (gameId : GameId)
  /-- `pause`, up to its section. -/
  | pause (thread : ℕ) (id : ItemId)
  /-- `cancel`, up to its section. -/
  | cancel (thread : ℕ) (id : ItemId)
  | resume (id : ItemId)
  | retry (id : ItemId)
  | removeQueued (id : ItemId)
  /-- `cancel_all`, up to its section. -/
  | cancelAll (thread : ℕ)
  | retryAllFailed (listed : List ItemId)
  /-- A game leaves the catalog. -/
  | forgetGame (gameId : GameId)
  /-- The mode file, or what else the policy is made from, is written. -/
  | setPolicy (policy : CapabilityPolicy)
  /-- `apply_operating_mode`, up to its first `wait`. -/
  | applyOperatingMode (thread : ℕ) (offline : Bool)
  /-- The wait of `apply_operating_mode` runs out of time. -/
  | timeout (thread : ℕ)
  /-- `shutdown`, up to its section. -/
  | shutdown (thread : ℕ)
  /-- The thread goes on with the section or the statement that it stands at. -/
  | proceed (thread : ℕ)

namespace Manager

/-- A thread is at another place. -/
def setCall (m : Manager) (thread : ℕ) (call : Call) : Manager :=
  { m with calls := Function.update m.calls thread call }

/-- No claim and no active item: what `apply_operating_mode(offline=True)` waits for. -/
def Quiescent (m : Manager) : Prop := m.claiming = false ∧ m.active = none

instance (m : Manager) : Decidable m.Quiescent := by
  unfold Quiescent
  infer_instance

/-- The first section of `apply_operating_mode`. -/
def applyMode (m : Manager) (thread : ℕ) : Bool → Manager
  | false => { m with offlineSuspended := false }
  | true =>
    let asked := ({ m with offlineSuspended := true }).stopActive .paused
    if m.Quiescent then asked else asked.setCall thread .waiting

/-- A thread inside a method goes on. The wait goes on as long as the worker is at work. -/
def goOn (m : Manager) (thread : ℕ) : Option Manager :=
  match m.calls thread with
  | .idle => none
  | .stopItem id stop =>
    let m' := m.setCall thread .idle
    -- `_request_active_stop` refuses an item that is no longer active.
    some (if m.active.map Active.item = some id then m'.stopActive stop else m')
  | .stopActive stop => some ((m.setCall thread .idle).stopActive stop)
  | .cancelQueued id =>
    some { m.setCall thread .idle with
      items := (m.items.transition id [.queued] .cancelled none).1 }
  | .waiting => if m.Quiescent then some (m.setCall thread .idle) else none

/-- One step. A method is called by a thread that is in none. -/
def step (m : Manager) : Act → Option Manager
  | .work reply => some (m.work reply)
  | .start =>
    if m.pc = .stopped ∨ m.pc = .dead then some { m with stopping := false, pc := .head }
    else some m
  | .enqueue id gameId => some { m with items := m.items.enqueue id gameId }
  | .pause thread id =>
    if m.calls thread ≠ .idle then none else
    match m.items.get? id with
    | none => some m
    | some row =>
      some (if row.state.inFlight then m.setCall thread (.stopItem id .paused) else m)
  | .cancel thread id =>
    if m.calls thread ≠ .idle then none else
    match m.items.get? id with
    | none => some m
    | some row =>
      some (if row.state = .queued then m.setCall thread (.cancelQueued id)
        else if row.state.inFlight then m.setCall thread (.stopItem id .cancelled) else m)
  | .resume id =>
    some { m with
      items := (m.items.transition id [.paused, .interrupted, .cancelled] .queued none).1 }
  | .retry id => some { m with items := (m.items.transition id [.failed] .queued none).1 }
  | .removeQueued id => some { m with items := m.items.deleteQueued id }
  | .cancelAll thread =>
    if m.calls thread ≠ .idle then none else
    some { m.setCall thread (.stopActive .cancelled) with items := m.items.queuedCancelAll }
  | .retryAllFailed listed => some { m with items := m.items.retryAllFailed listed }
  | .forgetGame gameId => some { m with items := m.items.forgetGame gameId }
  | .setPolicy policy => if m.policy = none then none else some { m with policy := some policy }
  | .applyOperatingMode thread offline =>
    if m.calls thread ≠ .idle then none else some (m.applyMode thread offline)
  | .timeout thread =>
    if m.calls thread = .waiting then some (m.setCall thread .idle) else none
  | .shutdown thread =>
    if m.calls thread ≠ .idle then none else
    some { m.setCall thread (.stopActive .interrupted) with stopping := true }
  | .proceed thread => m.goOn thread

end Manager

/-- The service, from a start over any rows that the index admits. -/
def manager : Machine Manager Act where
  init m := ∃ items policy, Items.OneActive items ∧ m = Manager.boot items policy
  step := Manager.step

/-! ### What the other threads leave -/

namespace Manager

variable {m m' m'' : Manager}

/-- What the other threads leave to the worker: its place, its claim, the item that is active, its
locks, and the rows in flight. -/
structure Leaves (m m' : Manager) : Prop where
  pc : m'.pc = m.pc
  claiming : m'.claiming = m.claiming
  active : m'.active.map Active.item = m.active.map Active.item
  leases : m'.leases = m.leases
  items : Items.Settled m.items m'.items

/-- A step that has nothing to do with the mode either. No thread starts to wait in it. -/
structure Aside (m m' : Manager) : Prop extends Leaves m m' where
  flag : m'.offlineSuspended = m.offlineSuspended
  policy : m'.policy = m.policy
  waiting : ∀ t, m'.calls t = .waiting → m.calls t = .waiting

theorem Leaves.trans (h₁ : Leaves m m') (h₂ : Leaves m' m'') : Leaves m m'' :=
  ⟨h₂.pc.trans h₁.pc, h₂.claiming.trans h₁.claiming, h₂.active.trans h₁.active,
    h₂.leases.trans h₁.leases, h₁.items.trans h₂.items⟩

theorem Aside.trans (h₁ : Aside m m') (h₂ : Aside m' m'') : Aside m m'' :=
  ⟨h₁.toLeaves.trans h₂.toLeaves, h₂.flag.trans h₁.flag, h₂.policy.trans h₁.policy,
    fun t h => h₁.waiting t (h₂.waiting t h)⟩

theorem Leaves.refl (m : Manager) : Leaves m m := ⟨rfl, rfl, rfl, rfl, Items.Settled.refl _⟩

theorem Aside.refl (m : Manager) : Aside m m := ⟨Leaves.refl m, rfl, rfl, fun _ h => h⟩

@[simp] theorem calls_setCall (m : Manager) (thread : ℕ) (call : Call) (t : ℕ) :
    (m.setCall thread call).calls t = if t = thread then call else m.calls t :=
  Function.update_apply ..

theorem leaves_setCall (m : Manager) (thread : ℕ) (call : Call) :
    Leaves m (m.setCall thread call) := ⟨rfl, rfl, rfl, rfl, Items.Settled.refl _⟩

theorem aside_setCall (m : Manager) (thread : ℕ) {call : Call} (hcall : call ≠ .waiting) :
    Aside m (m.setCall thread call) := by
  refine ⟨leaves_setCall m thread call, rfl, rfl, ?_⟩
  intro t ht
  rw [calls_setCall] at ht
  split at ht
  · exact absurd ht hcall
  · exact ht

theorem aside_stopActive (m : Manager) (stop : Stop) : Aside m (m.stopActive stop) := by
  cases hactive : m.active with
  | none =>
    simp only [stopActive, hactive]
    exact Aside.refl m
  | some active =>
    simp only [stopActive, hactive]
    exact ⟨⟨rfl, rfl, by rw [hactive]; rfl, rfl, Items.Settled.refl _⟩, rfl, rfl, fun _ h => h⟩

theorem aside_items {items : Items} (h : Items.Settled m.items items) :
    Aside m { m with items := items } := ⟨⟨rfl, rfl, rfl, rfl, h⟩, rfl, rfl, fun _ h => h⟩

theorem leaves_applyMode (m : Manager) (thread : ℕ) (offline : Bool) :
    Leaves m (m.applyMode thread offline) := by
  cases offline with
  | false => exact ⟨rfl, rfl, rfl, rfl, Items.Settled.refl _⟩
  | true =>
    have hflag : Leaves m { m with offlineSuspended := true } :=
      ⟨rfl, rfl, rfl, rfl, Items.Settled.refl _⟩
    have hasked := hflag.trans (aside_stopActive _ .paused).toLeaves
    simp only [applyMode]
    split
    · exact hasked
    · exact hasked.trans (leaves_setCall _ thread .waiting)

theorem aside_goOn {thread : ℕ} (h : m.goOn thread = some m') : Aside m m' := by
  have hidle : Aside m (m.setCall thread .idle) := aside_setCall m thread (by decide)
  cases hcall : m.calls thread with
  | idle => simp [goOn, hcall] at h
  | stopItem id stop =>
    simp only [goOn, hcall, Option.some.injEq] at h
    subst h
    split
    · exact hidle.trans (aside_stopActive _ stop)
    · exact hidle
  | stopActive stop =>
    simp only [goOn, hcall, Option.some.injEq] at h
    subst h
    exact hidle.trans (aside_stopActive _ stop)
  | cancelQueued id =>
    simp only [goOn, hcall, Option.some.injEq] at h
    subst h
    exact hidle.trans (aside_items (Items.settled_transition id _ none rfl))
  | waiting =>
    simp only [goOn, hcall] at h
    split at h
    · cases h
      exact hidle
    · cases h

/-- The wait ends when the worker is at no work. -/
theorem quiescent_of_goOn {thread : ℕ} (hwait : m.calls thread = .waiting)
    (h : m.goOn thread = some m') : m.Quiescent := by
  simp only [goOn, hwait] at h
  split at h
  · assumption
  · cases h

/-- Neither a step of the worker nor one that has to do with the mode. -/
def isAside : Act → Bool
  | .work _ | .applyOperatingMode .. | .setPolicy _ => false
  | _ => true

/-- What a step can do. -/
inductive Did (m : Manager) : Act → Manager → Prop
  | work (reply : Reply) : Did m (.work reply) (m.work reply)
  /-- A new worker, in the place of one that is gone. -/
  | start : m.pc = .stopped ∨ m.pc = .dead →
      Did m .start { m with stopping := false, pc := .head }
  | applyMode (thread : ℕ) (offline : Bool) :
      Did m (.applyOperatingMode thread offline) (m.applyMode thread offline)
  | setPolicy (policy : CapabilityPolicy) :
      Did m (.setPolicy policy) { m with policy := some policy }
  | aside {a : Act} {m' : Manager} : isAside a = true → Aside m m' → Did m a m'

/-- **Inversion.** -/
theorem did_of_step {a : Act} (h : m.step a = some m') : Did m a m' := by
  have hset : ∀ {thread : ℕ} {call : Call} {items : Items}, call ≠ .waiting →
      Items.Settled m.items items → Aside m { m.setCall thread call with items := items } :=
    fun {thread} {_} {_} hcall hitems =>
      (aside_setCall m thread hcall).trans (aside_items hitems)
  cases a with
  | work reply =>
    cases h
    exact .work reply
  | start =>
    simp only [step] at h
    split at h
    · next hgone =>
      cases h
      exact .start hgone
    · cases h
      exact .aside rfl (Aside.refl m)
  | enqueue id gameId =>
    cases h
    exact .aside rfl (aside_items (Items.settled_enqueue id gameId))
  | pause thread id =>
    apply Did.aside rfl
    simp only [step] at h
    split at h
    · cases h
    · cases hget : m.items.get? id with
      | none =>
        simp only [hget, Option.some.injEq] at h
        exact h ▸ Aside.refl m
      | some row =>
        simp only [hget, Option.some.injEq] at h
        subst h
        split
        · exact aside_setCall m thread (by simp)
        · exact Aside.refl m
  | cancel thread id =>
    apply Did.aside rfl
    simp only [step] at h
    split at h
    · cases h
    · cases hget : m.items.get? id with
      | none =>
        simp only [hget, Option.some.injEq] at h
        exact h ▸ Aside.refl m
      | some row =>
        simp only [hget, Option.some.injEq] at h
        subst h
        split
        · exact aside_setCall m thread (by simp)
        · split
          · exact aside_setCall m thread (by simp)
          · exact Aside.refl m
  | resume id =>
    cases h
    exact .aside rfl (aside_items (Items.settled_transition id _ none rfl))
  | retry id =>
    cases h
    exact .aside rfl (aside_items (Items.settled_transition id _ none rfl))
  | removeQueued id =>
    cases h
    exact .aside rfl (aside_items (Items.settled_deleteQueued id))
  | cancelAll thread =>
    simp only [step] at h
    split at h
    · cases h
    · cases h
      exact .aside rfl (hset (by simp) Items.settled_queuedCancelAll)
  | retryAllFailed listed =>
    cases h
    exact .aside rfl (aside_items (Items.settled_retryAllFailed listed))
  | forgetGame gameId =>
    cases h
    exact .aside rfl (aside_items (Items.settled_forgetGame gameId))
  | setPolicy policy =>
    simp only [step] at h
    split at h
    · cases h
    · cases h
      exact .setPolicy policy
  | applyOperatingMode thread offline =>
    simp only [step] at h
    split at h
    · cases h
    · cases h
      exact .applyMode thread offline
  | timeout thread =>
    simp only [step] at h
    split at h
    · cases h
      exact .aside rfl (aside_setCall m thread (by simp))
    · cases h
  | shutdown thread =>
    simp only [step] at h
    split at h
    · cases h
    · cases h
      have hcall : Aside m (m.setCall thread (.stopActive .interrupted)) :=
        aside_setCall m thread (by simp)
      exact .aside rfl ⟨hcall.toLeaves.trans ⟨rfl, rfl, rfl, rfl, Items.Settled.refl _⟩, hcall.flag,
        hcall.policy, hcall.waiting⟩
  | proceed thread => exact .aside rfl (aside_goOn h)

end Manager

/-! ### The claim and the active item -/

/-- The claim and the active item are those of the place where the worker stands. -/
structure Tracks (m : Manager) : Prop where
  claiming : m.claiming = m.pc.claims
  active : m.active.isSome = m.pc.working

section Tracks

variable {m m' : Manager}

theorem tracks_work (h : Tracks m) (reply : Reply) : Tracks (m.work reply) := by
  obtain ⟨hclaiming, hactive⟩ := h
  cases hpc : m.pc <;> rw [hpc] at hclaiming hactive <;> simp only [Manager.work, hpc]
  all_goals
    (try split) <;> (try split) <;> (try split) <;> constructor <;>
      simp_all [Pc.claims, Pc.working]

theorem Tracks.of_leaves (h : Tracks m) (haside : Manager.Leaves m m') : Tracks m' := by
  refine ⟨by rw [haside.claiming, haside.pc, h.claiming], ?_⟩
  rw [haside.pc, ← h.active, ← Option.isSome_map (f := Active.item), haside.active,
    Option.isSome_map]

theorem Tracks.quiescent_iff (h : Tracks m) :
    m.Quiescent ↔ m.pc.claims = false ∧ m.pc.working = false := by
  rw [Manager.Quiescent, h.claiming, ← h.active]
  simp

end Tracks

/-! ### A download -/

/-- Every service answers as it should, and the transfer goes through. -/
def smooth : Reply := ⟨.ok true, .ok 0, .returns, []⟩

/-- From the queue to `cache_game`. -/
def admission : List Act := List.replicate 6 (.work smooth)

-- From an empty queue to a complete row.
example : ((manager.drive Machine.anyStep (Manager.boot ∅ none)
    ([.enqueue 1 "zelda", .start] ++ admission ++ List.replicate 6 (.work smooth))).bind fun m =>
      (m.items.get? 1).map DownloadItem.state) = some .complete := by
  decide +kernel

end RomCloud.Downloads
