import RomCloud.Lib.Fault
import RomCloud.Lib.Text
import Mathlib.Data.List.Basic
import Mathlib.Data.List.Induction
import Mathlib.Data.List.Range
import Mathlib.Tactic.Common

namespace RomCloud.SaveSync.Journal

open RomCloud.Lib

/-!
# The shared mutation journal

The remote journal (`infrastructure/savesync_journal.py`) is one JSON document: a generation
counter and the last entries, each stamped with the generation it was appended at.  A document
that passed `_validate_document` carries its numerical invariants as fields (`Document`), and a
file that does not pass it is `File.invalid`, whatever is wrong with it.

* `load`, `loadOrReset`, `appendMutations` — the operations, each with the file it leaves;
* `discover` — the discovery of a legacy Quick Sync: what a device with a cursor concludes from
  the journal (`SaveSyncService._quick_sync`).
-/

/-- The three kinds of mutation a journal records. -/
inductive Operation
  | create
  | update
  | delete
deriving DecidableEq, Repr

/-- A mutation as the caller of `append_mutations` hands it over. -/
structure Mutation where
  system : String
  layoutId : String
  groupId : Option String
  objectId : Option String
  operation : String
deriving DecidableEq

/-- One retained entry, its texts checked. -/
structure Entry where
  generation : ℕ
  timestamp : Text
  deviceId : Text
  revision : Text
  system : Text
  layoutId : Text
  groupId : Option String
  objectId : Option String
  operation : Operation
deriving DecidableEq

/-- A document that passed `_validate_document`. -/
structure Document where
  generation : ℕ
  history : List Entry
  positive : ∀ e ∈ history, 0 < e.generation
  increasing : (history.map Entry.generation).Pairwise (· < ·)
  retained : ∀ e ∈ history, e.generation ≤ generation
deriving DecidableEq

/-- The journal file: missing, unreadable or refused by the validation, or a valid document. -/
inductive File
  | absent
  | invalid
  | valid (document : Document)
deriving DecidableEq

/-- The document of a journal nothing was appended to. -/
def emptyDocument : Document := ⟨0, [], by simp, by simp, by simp⟩

/-! ### Validation -/

/-- `_required_text`. -/
def requiredText (value label : String) : Except String Text :=
  if h : strip value ≠ "" then .ok ⟨value, h⟩
  else .error (label ++ " must be non-empty text")

/-- `_optional_text`. -/
def optionalText (value : Option String) : Option String :=
  match value with
  | none => none
  | some value => if strip value = "" then none else some (strip value)

/-- `_required_operation`. -/
def requiredOperation (value : String) : Except String Operation :=
  if value = "create" then .ok .create
  else if value = "update" then .ok .update
  else if value = "delete" then .ok .delete
  else .error "SaveSync journal operation must be create/update/delete"

/-- The loop of `_validate_document` over the generations of the history: the first error. -/
def historyError? (index lastGeneration : ℕ) : List Entry → Option String
  | [] => none
  | entry :: rest =>
    if entry.generation = 0 then
      some ("SaveSync journal entry " ++ toString index ++ " generation is invalid")
    else if entry.generation ≤ lastGeneration then
      some "SaveSync journal history must be strictly increasing"
    else historyError? (index + 1) entry.generation rest

theorem historyError?_eq_none {index last : ℕ} {history : List Entry}
    (h : historyError? index last history = none) :
    (∀ e ∈ history, last < e.generation) ∧ (history.map Entry.generation).Pairwise (· < ·) := by
  induction history generalizing index last with
  | nil => simp
  | cons entry rest ih =>
    unfold historyError? at h
    split at h
    · exact absurd h (by simp)
    · split at h
      · exact absurd h (by simp)
      · next hlast =>
        obtain ⟨hgt, hinc⟩ := ih h
        refine ⟨?_, ?_⟩
        · intro e he
          rcases List.mem_cons.mp he with rfl | he
          · omega
          · have := hgt e he
            omega
        · rw [List.map_cons, List.pairwise_cons]
          refine ⟨?_, hinc⟩
          intro g hg
          obtain ⟨e, he, rfl⟩ := List.mem_map.mp hg
          exact hgt e he

/-- A history with increasing positive generations passes the loop. -/
theorem historyError?_of_increasing {history : List Entry} (index last : ℕ)
    (hgt : ∀ e ∈ history, last < e.generation)
    (hinc : (history.map Entry.generation).Pairwise (· < ·)) :
    historyError? index last history = none := by
  induction history generalizing index last with
  | nil => rfl
  | cons entry rest ih =>
    have hlast := hgt entry List.mem_cons_self
    rw [List.map_cons, List.pairwise_cons] at hinc
    unfold historyError?
    rw [if_neg (by omega), if_neg (by omega)]
    refine ih (index + 1) entry.generation ?_ hinc.2
    intro e he
    exact hinc.1 _ (List.mem_map_of_mem he)

/-- `_validate_document`, for a document whose texts are checked. -/
def validateDocument (generation : ℕ) (history : List Entry) : Except String Document :=
  match herr : historyError? 0 0 history with
  | some error => .error error
  | none =>
    if hret : ∀ e ∈ history, e.generation ≤ generation then
      .ok ⟨generation, history, (historyError?_eq_none herr).1, (historyError?_eq_none herr).2,
        hret⟩
    else .error "SaveSync journal generation is behind retained history"

/-! ### The operations -/

/-- `load`: a missing file is the empty journal. -/
def load : File → Except String Document
  | .absent => .ok emptyDocument
  | .invalid => .error "SaveSync journal is corrupt"
  | .valid document => .ok document

/-- `load_or_reset`: the document, and the file afterwards.  An invalid file is moved aside and
    replaced by an empty journal. -/
def loadOrReset : File → Document × File
  | .absent => (emptyDocument, .absent)
  | .invalid => (emptyDocument, .valid emptyDocument)
  | .valid document => (document, .valid document)

/-- The checks the loop of `append_mutations` makes of a mutation. -/
structure CheckedMutation where
  system : Text
  layoutId : Text
  groupId : Option String
  objectId : Option String
  operation : Operation

/-- The checks the loop of `append_mutations` makes, in the order of the mutations. -/
def checkMutations : List Mutation → Except String (List CheckedMutation)
  | [] => .ok []
  | mutation :: rest => do
    let system ← requiredText mutation.system "mutation.system"
    let layoutId ← requiredText mutation.layoutId "mutation.layout_id"
    let operation ← requiredOperation mutation.operation
    let checked ← checkMutations rest
    return ⟨system, layoutId, optionalText mutation.groupId, optionalText mutation.objectId,
      operation⟩ :: checked

/-- The entries of the loop of `append_mutations`: each mutation gets the next generation. -/
def stamp (timestamp deviceId revision : Text) (generation : ℕ) :
    List CheckedMutation → List Entry
  | [] => []
  | m :: rest =>
    ⟨generation + 1, timestamp, deviceId, revision, m.system, m.layoutId, m.groupId, m.objectId,
        m.operation⟩
      :: stamp timestamp deviceId revision (generation + 1) rest

/-- The entries `append_mutations` adds to a document, or the error that keeps it from adding
    any. -/
def newEntries (generation : ℕ) (deviceId revision timestamp : String)
    (mutations : List Mutation) : Except String (List Entry) := do
  let checked ← checkMutations mutations
  let timestamp ← requiredText timestamp "entry.timestamp"
  let deviceId ← requiredText deviceId "entry.device_id"
  let revision ← requiredText revision "entry.revision"
  return stamp timestamp deviceId revision generation checked

/-- `history[-max_history:]`, when the history is longer than that. -/
def truncate (maxHistory : ℕ) (history : List Entry) : List Entry :=
  history.drop (history.length - maxHistory)

/-- `append_mutations`: the new generation or the error, and the file afterwards. -/
def appendMutations (file : File) (deviceId revision timestamp : String)
    (mutations : List Mutation) (maxHistory : ℕ) : Except String ℕ × File :=
  if mutations = [] then
    (.ok (loadOrReset file).1.generation, (loadOrReset file).2)
  else if maxHistory < 1 then
    (.error "SaveSync journal max_history must be positive", file)
  else
    let document := (loadOrReset file).1
    match newEntries document.generation deviceId revision timestamp mutations with
    | .error error => (.error error, (loadOrReset file).2)
    | .ok entries =>
      let generation := document.generation + entries.length
      match validateDocument generation (truncate maxHistory (document.history ++ entries)) with
      | .error error => (.error error, (loadOrReset file).2)
      | .ok nextDocument => (.ok generation, .valid nextDocument)

/-! ### Legacy discovery -/

/-- What a legacy Quick Sync concludes from the journal. -/
inductive Discovery
  | requiresFullSync (reason : String)
  | unchanged
  | unseen (entries : List Entry)
deriving DecidableEq

/-- `_QUICK_SYNC_HISTORY_REQUIRED`. -/
def quickSyncHistoryRequired : ℤ := 1

/-- The generation of the first retained entry, or the next generation when none is retained. -/
def firstRetained (journal : Document) : ℕ :=
  match journal.history with
  | entry :: _ => entry.generation
  | [] => journal.generation + 1

/-- The discovery of `_quick_sync` for a device with a trusted cursor: the equality test, the
    test for a gap before the first retained entry, and the selection of the unseen entries. -/
def discover (cursor : ℕ) (file : File) : Discovery :=
  match load file with
  | .error _ => .requiresFullSync "journal-untrustworthy"
  | .ok journal =>
    let remoteGeneration := journal.generation
    if remoteGeneration = cursor then
      .unchanged
    else if (cursor : ℤ) < firstRetained journal - quickSyncHistoryRequired then
      .requiresFullSync "journal-gap"
    else
      let unseen := journal.history.filter (fun entry => cursor < entry.generation)
      if unseen = [] ∧ cursor < remoteGeneration then
        .requiresFullSync "journal-history-incomplete"
      else
        .unseen unseen

/-! ### What an append does -/

theorem validateDocument_eq_ok (generation : ℕ) (history : List Entry)
    (hpos : ∀ e ∈ history, 0 < e.generation)
    (hinc : (history.map Entry.generation).Pairwise (· < ·))
    (hret : ∀ e ∈ history, e.generation ≤ generation) :
    validateDocument generation history = .ok ⟨generation, history, hpos, hinc, hret⟩ := by
  have hnone := historyError?_of_increasing 0 0 hpos hinc
  unfold validateDocument
  split
  · next error herr => exact absurd (hnone.symm.trans herr) (by simp)
  · rw [dif_pos hret]

theorem stamp_length (timestamp deviceId revision : Text) (generation : ℕ)
    (checked : List CheckedMutation) :
    (stamp timestamp deviceId revision generation checked).length = checked.length := by
  induction checked generalizing generation with
  | nil => rfl
  | cons m rest ih => simp [stamp, ih]

theorem stamp_generations (timestamp deviceId revision : Text) (generation : ℕ)
    (checked : List CheckedMutation) :
    (stamp timestamp deviceId revision generation checked).map Entry.generation
      = List.range' (generation + 1) checked.length := by
  induction checked generalizing generation with
  | nil => rfl
  | cons m rest ih => simp [stamp, ih, List.range'_succ]

/-- New entries are numbered consecutively, from the generation they are appended at. -/
theorem newEntries_generations {generation : ℕ} {deviceId revision timestamp : String}
    {mutations : List Mutation} {entries : List Entry}
    (h : newEntries generation deviceId revision timestamp mutations = .ok entries) :
    entries.map Entry.generation = List.range' (generation + 1) entries.length := by
  unfold newEntries at h
  obtain ⟨checked, _, h⟩ := bind_eq_ok h
  obtain ⟨ts, _, h⟩ := bind_eq_ok h
  obtain ⟨device, _, h⟩ := bind_eq_ok h
  obtain ⟨rev, _, h⟩ := bind_eq_ok h
  cases h
  rw [stamp_length]
  exact stamp_generations ts device rev generation checked

/-- A valid history with consecutive new generations after it is a valid history. -/
theorem append_valid (document : Document) {entries : List Entry}
    (hgen : entries.map Entry.generation
      = List.range' (document.generation + 1) entries.length) :
    (∀ e ∈ document.history ++ entries, 0 < e.generation)
      ∧ ((document.history ++ entries).map Entry.generation).Pairwise (· < ·)
      ∧ ∀ e ∈ document.history ++ entries, e.generation ≤ document.generation + entries.length := by
  have hnew : ∀ e ∈ entries, document.generation < e.generation
      ∧ e.generation ≤ document.generation + entries.length := by
    intro e he
    have hmem : e.generation ∈ List.range' (document.generation + 1) entries.length :=
      hgen ▸ List.mem_map_of_mem he
    rw [List.mem_range'_1] at hmem
    omega
  refine ⟨?_, ?_, ?_⟩
  · intro e he
    rcases List.mem_append.mp he with he | he
    · exact document.positive e he
    · have := hnew e he
      omega
  · rw [List.map_append, List.pairwise_append]
    refine ⟨document.increasing, hgen ▸ List.pairwise_lt_range', ?_⟩
    intro a ha b hb
    obtain ⟨x, hx, rfl⟩ := List.mem_map.mp ha
    obtain ⟨y, hy, rfl⟩ := List.mem_map.mp hb
    have := document.retained x hx
    have := hnew y hy
    omega
  · intro e he
    rcases List.mem_append.mp he with he | he
    · have := document.retained e he
      omega
    · exact (hnew e he).2

/-- The entries an append records: none when it is refused. -/
def recorded (file : File) (deviceId revision timestamp : String) (mutations : List Mutation)
    (maxHistory : ℕ) : List Entry :=
  if mutations = [] ∨ maxHistory < 1 then []
  else
    match newEntries (loadOrReset file).1.generation deviceId revision timestamp mutations with
    | .error _ => []
    | .ok entries => entries

/-- **What an append does.** Either it records nothing and the file is as it was, at most reset;
    or the entries it records follow the retained ones, numbered consecutively and cut to
    `maxHistory`, and the generation counts them. -/
theorem appendMutations_spec (file : File) (deviceId revision timestamp : String)
    (mutations : List Mutation) (maxHistory : ℕ) :
    let document := (loadOrReset file).1
    let entries := recorded file deviceId revision timestamp mutations maxHistory
    let after := appendMutations file deviceId revision timestamp mutations maxHistory
    (entries = [] ∧ (after.2 = file ∨ after.2 = (loadOrReset file).2))
      ∨ 1 ≤ maxHistory ∧ after.1 = .ok (document.generation + entries.length)
        ∧ entries.map Entry.generation = List.range' (document.generation + 1) entries.length
        ∧ ∃ next, after.2 = .valid next
          ∧ next.generation = document.generation + entries.length
          ∧ next.history = truncate maxHistory (document.history ++ entries) := by
  intro document entries after
  have hafter : after = appendMutations file deviceId revision timestamp mutations maxHistory := rfl
  have hentries : entries = recorded file deviceId revision timestamp mutations maxHistory := rfl
  unfold appendMutations at hafter
  unfold recorded at hentries
  by_cases hm : mutations = []
  · rw [if_pos hm] at hafter
    rw [if_pos (Or.inl hm)] at hentries
    exact Or.inl ⟨hentries, Or.inr (by rw [hafter])⟩
  · by_cases hmax : maxHistory < 1
    · rw [if_neg hm, if_pos hmax] at hafter
      rw [if_pos (Or.inr hmax)] at hentries
      exact Or.inl ⟨hentries, Or.inl (by rw [hafter])⟩
    · rw [if_neg (not_or.mpr ⟨hm, hmax⟩)] at hentries
      simp only [if_neg hm, if_neg hmax] at hafter
      cases hnew : newEntries (loadOrReset file).1.generation deviceId revision timestamp
          mutations with
      | error e =>
        rw [hnew] at hafter hentries
        exact Or.inl ⟨hentries, Or.inr (by rw [hafter])⟩
      | ok new =>
        rw [hnew] at hafter hentries
        have hgen := newEntries_generations hnew
        obtain ⟨hpos, hinc, hret⟩ := append_valid document hgen
        have hsub : (truncate maxHistory (document.history ++ new)).Sublist
            (document.history ++ new) := List.drop_sublist _ _
        have hvalid := validateDocument_eq_ok (document.generation + new.length) _
          (fun e he => hpos e (hsub.subset he)) (hinc.sublist (hsub.map _))
          (fun e he => hret e (hsub.subset he))
        simp only [show (loadOrReset file).1 = document from rfl, hvalid] at hafter
        simp only at hentries
        rw [hentries]
        exact Or.inr ⟨by omega, by rw [hafter], hgen, _, by rw [hafter], rfl, rfl⟩

end RomCloud.SaveSync.Journal
