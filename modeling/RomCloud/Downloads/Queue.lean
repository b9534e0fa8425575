import RomCloud.Lib.Table
import Mathlib.Data.List.MinMax

namespace RomCloud.Downloads

open RomCloud.Lib

/-!
# The download queue

The rows of `download_items` and the statements of `DownloadRepository`, each one transaction.

* `Items` — the rows, by their id; `OneActive` — the unique index over the active rows of a game;
* `enqueue`, `transition`, `updateProgress`, `deleteQueued`, … — the statements;
* `Calm` — no row is in flight after a statement that was not before, in the same state;
* `oneActive_…`, `calm_…` — what each statement keeps.
-/

/-- `uuid.uuid4().hex`, as the number that it writes. -/
abbrev ItemId := ℕ

abbrev GameId := String

/-- `DownloadState`. -/
inductive DownloadState
  | queued | running | paused | interrupted | verifying | failed | cancelled | complete
deriving DecidableEq

namespace DownloadState

/-- The states of the unique index `idx_download_items_active_game`. -/
def isActive : DownloadState → Bool
  | queued | running | paused | interrupted | verifying => true
  | failed | cancelled | complete => false

/-- The worker is at work on the row. -/
def inFlight : DownloadState → Bool
  | running | verifying => true
  | _ => false

/-- `TERMINAL_STATES`. -/
def isTerminal : DownloadState → Bool
  | failed | cancelled | complete => true
  | _ => false

end DownloadState

/-- An exception, as a row records it: `type(exc).__name__` and `str(exc)`. -/
structure Fault where
  code : String
  message : String
deriving DecidableEq

/-- `DownloadItem`. -/
structure DownloadItem where
  id : ItemId
  gameId : Option GameId
  state : DownloadState
  queueSeq : ℕ
  bytesTotal : ℕ
  bytesPresent : ℕ
  error : Option Fault
deriving DecidableEq

/-- The rows of `download_items`. -/
abbrev Items := Table DownloadItem DownloadItem.id

namespace Items

/-- Another active row is of the same game. -/
def Clashes (items : Items) (row : DownloadItem) : Prop :=
  ∃ other ∈ items.toList, other.id ≠ row.id ∧ other.state.isActive = true
    ∧ other.gameId ≠ none ∧ other.gameId = row.gameId

instance (items : Items) (row : DownloadItem) : Decidable (items.Clashes row) := by
  unfold Clashes
  infer_instance

/-- `next_queued`. -/
def nextQueued (items : Items) : Option DownloadItem :=
  (items.toList.filter (·.state = .queued)).argmin DownloadItem.queueSeq

/-- `COALESCE(MAX(queue_seq), 0) + 1`. -/
def nextSeq (items : Items) : ℕ := (items.toList.map DownloadItem.queueSeq).foldr max 0 + 1

/-- `enqueue`: a game with an active row gets no second one. An id in use is refused by the primary
key. -/
def enqueue (items : Items) (id : ItemId) (gameId : GameId) : Items :=
  let row : DownloadItem := ⟨id, some gameId, .queued, items.nextSeq, 0, 0, none⟩
  if items.get? id = none ∧ ¬ items.Clashes row then items.put row else items

/-- `transition`: whether a row was changed. A change that the unique index refuses changes none. -/
def transition (items : Items) (id : ItemId) (fromStates : List DownloadState)
    (toState : DownloadState) (error : Option Fault) : Items × Bool :=
  match items.get? id with
  | none => (items, false)
  | some row =>
    let next := { row with state := toState, error := error }
    if row.state ∈ fromStates ∧ ¬ (toState.isActive = true ∧ items.Clashes next) then
      (items.put next, true)
    else (items, false)

/-- `update_progress`. -/
def updateProgress (items : Items) (id : ItemId) (present total : ℕ) : Items :=
  match items.get? id with
  | none => items
  | some row => items.put { row with bytesPresent := present, bytesTotal := total }

/-- `delete_queued`. -/
def deleteQueued (items : Items) (id : ItemId) : Items :=
  items.keep fun k => k ≠ id ∨ (items.get? k).all fun row => row.state ≠ .queued

/-- `prune_terminal`, of the rows that the age and the staging records select. -/
def pruneTerminal (items : Items) (selected : List ItemId) : Items :=
  items.keep fun k => k ∉ selected ∨ (items.get? k).all fun row => !row.state.isTerminal

/-- `queued_cancel_all`. -/
def queuedCancelAll (items : Items) : Items :=
  items.mapRows (fun row => if row.state = .queued then { row with state := .cancelled } else row)
    (by intro row; split <;> rfl)

/-- One turn of the loop of `retry_all_failed`. -/
def retryFailed (items : Items) (id : ItemId) : Items :=
  match items.get? id with
  | none => items
  | some row =>
    if row.state = .failed ∧ row.gameId ≠ none ∧ ¬ items.Clashes row then
      items.put { row with state := .queued, error := none }
    else items

/-- `retry_all_failed`, over the failed rows in the order that the query lists them. -/
def retryAllFailed (items : Items) (listed : List ItemId) : Items := listed.foldl retryFailed items

/-- `recover_interrupted`. -/
def recoverInterrupted (items : Items) : Items :=
  items.mapRows (fun row => if row.state.inFlight then { row with state := .interrupted } else row)
    (by intro row; split <;> rfl)

/-- `ON DELETE SET NULL` of a game. -/
def forgetGame (items : Items) (gameId : GameId) : Items :=
  items.mapRows (fun row => if row.gameId = some gameId then { row with gameId := none } else row)
    (by intro row; split <;> rfl)

/-- The statement of `finalize_transfer` that completes the row. -/
def finalize (items : Items) (id : ItemId) (total : ℕ) : Items :=
  match items.get? id with
  | none => items
  | some row =>
    if row.state.inFlight then
      items.put { row with
        state := .complete, error := none,
        bytesPresent := if 0 < row.bytesTotal then row.bytesTotal else total }
    else items

/-! ### The unique index -/

/-- A game has one active row at most. -/
def OneActive (items : Items) : Prop :=
  ∀ i j a b, items.get? i = some a → items.get? j = some b → a.state.isActive = true →
    b.state.isActive = true → a.gameId ≠ none → a.gameId = b.gameId → i = j

variable {items : Items} {row : DownloadItem} {id : ItemId}

theorem not_clashes_iff :
    ¬ items.Clashes row ↔ ∀ i other, items.get? i = some other → i ≠ row.id →
      other.state.isActive = true → other.gameId ≠ none → other.gameId ≠ row.gameId := by
  simp only [Clashes, not_exists, not_and]
  constructor
  · intro h i other hget hne hactive hgame
    have hid : other.id = i := Table.key_of_get? hget
    subst hid
    exact h other ((Table.mem_toList_iff _ _).mpr hget) hne hactive hgame
  · intro h other hmem hne hactive hgame
    exact h other.id other ((Table.mem_toList_iff _ _).mp hmem) hne hactive hgame

/-- Among the rows of a queue with the index, an active row clashes with none. -/
theorem OneActive.not_clashes (h : items.OneActive) {before : DownloadItem}
    (hget : items.get? row.id = some before) (hactive : before.state.isActive = true)
    (hgame : before.gameId = row.gameId) : ¬ items.Clashes row := by
  rw [not_clashes_iff]
  intro i other hother hne hact hsome heq
  exact hne (h i row.id other before hother hget hact hactive hsome (heq.trans hgame.symm))

theorem OneActive.put (h : items.OneActive)
    (hrow : row.state.isActive = false ∨ ¬ items.Clashes row) :
    OneActive (Table.put items row) := by
  intro i j a b hi hj ha hb hgame heq
  rw [Table.get?_put] at hi hj
  split at hi <;> split at hj
  · next hik hjk => rw [hik, hjk]
  · next hik hjk =>
    cases hi
    rcases hrow with hoff | hfree
    · rw [hoff] at ha
      cases ha
    · exact absurd heq.symm (not_clashes_iff.mp hfree j b hj hjk hb (heq ▸ hgame))
  · next hik hjk =>
    cases hj
    rcases hrow with hoff | hfree
    · rw [hoff] at hb
      cases hb
    · exact absurd heq (not_clashes_iff.mp hfree i a hi hik ha hgame)
  · exact h i j a b hi hj ha hb hgame heq

theorem OneActive.keep (h : items.OneActive) (p : ItemId → Bool) :
    OneActive (Table.keep items p) := by
  intro i j a b hi hj
  rw [Table.get?_keep] at hi hj
  split at hi <;> split at hj
  · exact h i j a b hi hj
  all_goals simp at hi hj

theorem OneActive.mapRows (h : items.OneActive) {f : DownloadItem → DownloadItem}
    {hf : ∀ row, (f row).id = row.id}
    (hkeep : ∀ row, (f row).state.isActive = true → (f row).gameId ≠ none →
      row.state.isActive = true ∧ (f row).gameId = row.gameId) :
    OneActive (Table.mapRows items f hf) := by
  intro i j a b hi hj ha hb hgame heq
  rw [Table.get?_mapRows] at hi hj
  obtain ⟨a₀, ha₀, rfl⟩ := Option.map_eq_some_iff.mp hi
  obtain ⟨b₀, hb₀, rfl⟩ := Option.map_eq_some_iff.mp hj
  obtain ⟨hacta, hgamea⟩ := hkeep a₀ ha hgame
  obtain ⟨hactb, hgameb⟩ := hkeep b₀ hb (heq ▸ hgame)
  exact h i j a₀ b₀ ha₀ hb₀ hacta hactb (hgamea ▸ hgame) (by rw [← hgamea, ← hgameb, heq])

/-! ### Rows in flight -/

/-- Every row in flight was in flight before, in the same state. -/
def Calm (items next : Items) : Prop :=
  ∀ id row, next.get? id = some row → row.state.inFlight = true →
    ∃ before, items.get? id = some before ∧ before.state = row.state

theorem Calm.refl (items : Items) : Calm items items := fun _ row h _ => ⟨row, h, rfl⟩

theorem Calm.trans {mid next : Items} (h₁ : Calm items mid) (h₂ : Calm mid next) :
    Calm items next := by
  intro id row hget hflight
  obtain ⟨second, hsecond, hstate⟩ := h₂ id row hget hflight
  obtain ⟨first, hfirst, heq⟩ := h₁ id second hsecond (hstate ▸ hflight)
  exact ⟨first, hfirst, heq.trans hstate⟩

theorem calm_put (hrow : row.state.inFlight = true →
    ∃ before, items.get? row.id = some before ∧ before.state = row.state) :
    Calm items (Table.put items row) := by
  intro id next hget hflight
  rw [Table.get?_put] at hget
  split at hget
  · next hid =>
    cases hget
    rw [hid]
    exact hrow hflight
  · exact ⟨next, hget, rfl⟩

theorem calm_keep (p : ItemId → Bool) : Calm items (Table.keep items p) := by
  intro id next hget _
  rw [Table.get?_keep] at hget
  split at hget
  · exact ⟨next, hget, rfl⟩
  · cases hget

theorem calm_mapRows {f : DownloadItem → DownloadItem} {hf : ∀ row, (f row).id = row.id}
    (hkeep : ∀ row, (f row).state.inFlight = true → (f row).state = row.state) :
    Calm items (Table.mapRows items f hf) := by
  intro id next hget hflight
  rw [Table.get?_mapRows] at hget
  obtain ⟨before, hbefore, rfl⟩ := Option.map_eq_some_iff.mp hget
  exact ⟨before, hbefore, (hkeep before hflight).symm⟩

theorem inFlight_isActive {state : DownloadState} (h : state.inFlight = true) :
    state.isActive = true := by
  cases state <;> first | rfl | cases h

/-! ### What the statements keep -/

/-- What a statement keeps that neither starts nor ends the flight of a row. -/
structure Settled (items next : Items) : Prop where
  oneActive : items.OneActive → next.OneActive
  calm : Calm items next

theorem Settled.refl (items : Items) : Settled items items := ⟨id, Calm.refl items⟩

theorem Settled.trans {mid next : Items} (h₁ : Settled items mid) (h₂ : Settled mid next) :
    Settled items next := ⟨h₂.oneActive ∘ h₁.oneActive, h₁.calm.trans h₂.calm⟩

/-- **Inversion.** `transition` changes no row, or one in a state of the list, to one that the
index admits. -/
theorem transition_cases (items : Items) (id : ItemId) (fromStates : List DownloadState)
    (toState : DownloadState) (error : Option Fault) :
    items.transition id fromStates toState error = (items, false)
      ∨ ∃ row, items.get? id = some row ∧ row.state ∈ fromStates
        ∧ (toState.isActive = false ∨ ¬ items.Clashes { row with state := toState, error := error })
        ∧ items.transition id fromStates toState error
          = (items.put { row with state := toState, error := error }, true) := by
  cases hget : items.get? id with
  | none => exact Or.inl (by simp only [transition, hget])
  | some row =>
    simp only [transition, hget]
    split
    · next hok =>
      refine Or.inr ⟨row, rfl, hok.1, ?_, rfl⟩
      rcases not_and_or.mp hok.2 with h | h
      · exact Or.inl (by simpa using h)
      · exact Or.inr h
    · exact Or.inl rfl

theorem oneActive_transition (h : items.OneActive) (id : ItemId) (fromStates : List DownloadState)
    (toState : DownloadState) (error : Option Fault) :
    (items.transition id fromStates toState error).1.OneActive := by
  rcases transition_cases items id fromStates toState error with heq | ⟨row, -, -, hfree, heq⟩
  · rw [heq]
    exact h
  · rw [heq]
    exact h.put hfree

/-- An active row in the state that the transition expects does land. -/
theorem transition_of_active (h : items.OneActive) {toState : DownloadState}
    (error : Option Fault) (hget : items.get? id = some row) (hactive : row.state.isActive = true) :
    items.transition id [row.state] toState error
      = (items.put { row with state := toState, error := error }, true) := by
  have hid : row.id = id := Table.key_of_get? hget
  have hfree : ¬ items.Clashes { row with state := toState, error := error } :=
    h.not_clashes (by rw [← hget, ← hid]) hactive rfl
  simp only [transition, hget]
  rw [if_pos ⟨List.mem_singleton.mpr rfl, fun hclash => hfree hclash.2⟩]

/-- After a transition, a row in flight is the one that was changed, or was in flight before. -/
theorem inFlight_transition {fromStates : List DownloadState} {toState : DownloadState}
    {error : Option Fault} {i : ItemId}
    (hget : (items.transition id fromStates toState error).1.get? i = some row)
    (hflight : row.state.inFlight = true) :
    i = id ∨ ∃ before, items.get? i = some before ∧ before.state.inFlight = true := by
  rcases transition_cases items id fromStates toState error with heq | ⟨old, hold, -, -, heq⟩
  · rw [heq] at hget
    exact Or.inr ⟨row, hget, hflight⟩
  · have hid : old.id = id := Table.key_of_get? hold
    rw [heq, Table.get?_put] at hget
    split at hget
    · next hi => exact Or.inl (hi.trans hid)
    · exact Or.inr ⟨row, hget, hflight⟩

/-- A transition to a state out of flight. -/
theorem settled_transition (id : ItemId) (fromStates : List DownloadState)
    {toState : DownloadState} (error : Option Fault) (hto : toState.inFlight = false) :
    Settled items (items.transition id fromStates toState error).1 := by
  refine ⟨fun h => oneActive_transition h id fromStates toState error, ?_⟩
  rcases transition_cases items id fromStates toState error with heq | ⟨row, -, -, -, heq⟩
  · rw [heq]
    exact Calm.refl items
  · rw [heq]
    exact calm_put fun hflight => by simp [hto] at hflight

theorem settled_enqueue (id : ItemId) (gameId : GameId) :
    Settled items (items.enqueue id gameId) := by
  simp only [enqueue]
  split
  · next hnew => exact ⟨fun h => h.put (Or.inr hnew.2), calm_put fun h => by cases h⟩
  · exact Settled.refl items

theorem settled_updateProgress (id : ItemId) (present total : ℕ) :
    Settled items (items.updateProgress id present total) := by
  cases hget : items.get? id with
  | none => simpa only [updateProgress, hget] using Settled.refl items
  | some row =>
    have hid : row.id = id := Table.key_of_get? hget
    simp only [updateProgress, hget]
    refine ⟨fun h => h.put ?_, calm_put fun _ => ⟨row, by rw [← hget, ← hid], rfl⟩⟩
    by_cases hactive : row.state.isActive = true
    · exact Or.inr (h.not_clashes (by rw [← hget, ← hid]) hactive rfl)
    · exact Or.inl (by simpa using hactive)

theorem settled_deleteQueued (id : ItemId) : Settled items (items.deleteQueued id) :=
  ⟨fun h => h.keep _, calm_keep _⟩

theorem settled_pruneTerminal (selected : List ItemId) :
    Settled items (items.pruneTerminal selected) :=
  ⟨fun h => h.keep _, calm_keep _⟩

theorem settled_queuedCancelAll : Settled items items.queuedCancelAll := by
  refine ⟨fun h => h.mapRows ?_, calm_mapRows ?_⟩
  · intro row hactive hgame
    split at hactive
    · cases hactive
    · next hstate => exact ⟨hactive, by rw [if_neg hstate]⟩
  · intro row hflight
    split at hflight
    · cases hflight
    · next hstate => rw [if_neg hstate]

theorem settled_forgetGame (gameId : GameId) : Settled items (items.forgetGame gameId) := by
  refine ⟨fun h => h.mapRows ?_, calm_mapRows ?_⟩
  · intro row hactive hgame
    split at hgame
    · exact absurd rfl hgame
    · next hother =>
      rw [if_neg hother] at hactive ⊢
      exact ⟨hactive, rfl⟩
  · intro row _
    split <;> rfl

theorem settled_retryFailed (id : ItemId) : Settled items (items.retryFailed id) := by
  cases hget : items.get? id with
  | none => simpa only [retryFailed, hget] using Settled.refl items
  | some row =>
    simp only [retryFailed, hget]
    split
    · next hok =>
      refine ⟨fun h => h.put (Or.inr ?_), calm_put fun hflight => by cases hflight⟩
      exact not_clashes_iff.mpr (not_clashes_iff.mp hok.2.2)
    · exact Settled.refl items

theorem settled_retryAllFailed (listed : List ItemId) :
    Settled items (items.retryAllFailed listed) := by
  induction listed generalizing items with
  | nil => exact Settled.refl items
  | cons id rest ih => exact (settled_retryFailed id).trans ih

theorem settled_finalize (id : ItemId) (total : ℕ) : Settled items (items.finalize id total) := by
  cases hget : items.get? id with
  | none => simpa only [finalize, hget] using Settled.refl items
  | some row =>
    simp only [finalize, hget]
    split
    · exact ⟨fun h => h.put (Or.inl rfl), calm_put fun hflight => by cases hflight⟩
    · exact Settled.refl items

/-- After `recover_interrupted` no row is in flight. -/
theorem recoverInterrupted_not_inFlight (h : items.recoverInterrupted.get? id = some row) :
    row.state.inFlight = false := by
  rw [recoverInterrupted, Table.get?_mapRows] at h
  obtain ⟨before, -, rfl⟩ := Option.map_eq_some_iff.mp h
  cases hflight : before.state.inFlight with
  | true => rfl
  | false => simpa using hflight

theorem oneActive_recoverInterrupted (h : items.OneActive) :
    items.recoverInterrupted.OneActive := by
  refine h.mapRows ?_
  intro row hactive _
  cases hflight : row.state.inFlight with
  | true =>
    simp only [if_true]
    exact ⟨inFlight_isActive hflight, trivial⟩
  | false =>
    simp only [hflight, Bool.false_eq_true, if_false] at hactive ⊢
    exact ⟨hactive, trivial⟩

end Items

end RomCloud.Downloads
