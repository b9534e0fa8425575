import Mathlib.Data.List.Sort
import Mathlib.Logic.Function.Basic
import RomCloud.Lib.Machine

namespace RomCloud.Modes

open Lib

/-!
# Links of the Connected Mode

`reconcile_direct_links`, `remove_direct_links` and `_restore_direct_link_snapshot`, one
file-system step at a time, with the manifest that each reads at its start and writes at its end:

* `Links` — the records of a manifest, in their order;
* `Progress` — where the running operation is, and which links it has made so far;
* `directLinks` — the machine: operations start, go on by one step, and stop at any step;
* `Careful` — what a step must not meet;
* `LinkInv` — the invariant, with a clause for each place of an operation;
* `careful_runs_accounted` — after the runs whose steps are all careful, every own link is recorded.

Paths and targets are the normalised ones.  Whether a link is ROMCloud's own is a history that no
operation reads.
-/

/-- The records of a manifest: paths with their targets, in the order of the file. -/
structure Links (P T : Type) where
  entries : List (P × T)
  nodup : (entries.map Prod.fst).Nodup
deriving DecidableEq

namespace Links

variable {P T : Type}

/-- No record. -/
def none : Links P T := ⟨[], List.nodup_nil⟩

/-- `records.get`. -/
def get? [DecidableEq P] (links : Links P T) (path : P) : Option T :=
  (links.entries.find? fun e => e.1 = path).map Prod.snd

/-- The records of some paths. -/
def only [DecidableEq P] (links : Links P T) (paths : List P) : Links P T :=
  ⟨links.entries.filter fun e => e.1 ∈ paths, (links.nodup.sublist
    ((List.filter_sublist (l := links.entries)).map Prod.fst))⟩

/-- `sorted(records)`. -/
def sorted [LinearOrder P] (links : Links P T) : Links P T :=
  ⟨links.entries.insertionSort fun a b => a.1 ≤ b.1,
    ((List.perm_insertionSort _ _).map Prod.fst).nodup_iff.mpr links.nodup⟩

@[simp] theorem entries_none : (none : Links P T).entries = [] := rfl

theorem target_unique (links : Links P T) {path : P} {t u : T} (ht : (path, t) ∈ links.entries)
    (hu : (path, u) ∈ links.entries) : t = u :=
  congrArg Prod.snd (List.inj_on_of_nodup_map links.nodup ht hu rfl)

theorem get?_eq_some_iff [DecidableEq P] (links : Links P T) (path : P) (t : T) :
    links.get? path = some t ↔ (path, t) ∈ links.entries := by
  rw [get?, Option.map_eq_some_iff]
  constructor
  · rintro ⟨⟨p, u⟩, hfind, rfl⟩
    have hp : p = path := by simpa using List.find?_some hfind
    exact hp ▸ List.mem_of_find?_eq_some hfind
  · intro hmem
    obtain ⟨⟨p, u⟩, hfind⟩ := Option.isSome_iff_exists.mp
      (List.find?_isSome.mpr ⟨(path, t), hmem, by simp⟩ :
        (links.entries.find? fun e => e.1 = path).isSome)
    obtain rfl : p = path := by simpa using List.find?_some hfind
    exact ⟨(p, u), hfind, links.target_unique (List.mem_of_find?_eq_some hfind) hmem⟩

@[simp] theorem mem_sorted [LinearOrder P] (links : Links P T) (e : P × T) :
    e ∈ links.sorted.entries ↔ e ∈ links.entries := List.mem_insertionSort _

@[simp] theorem mem_only [DecidableEq P] (links : Links P T) (paths : List P) (e : P × T) :
    e ∈ (links.only paths).entries ↔ e ∈ links.entries ∧ e.1 ∈ paths := by
  show e ∈ links.entries.filter _ ↔ _
  rw [List.mem_filter, decide_eq_true_eq]

end Links

/-- What is at a path: nothing, a link with its target, or anything else. -/
inductive Spot (T : Type)
  | free
  | link (target : T) (own : Bool)
  | other
deriving DecidableEq

/-- `_load_manifest_result`. -/
inductive Manifest (P T : Type)
  | missing
  | malformed
  | valid (records : Links P T)
deriving DecidableEq

/-- The three operations. -/
inductive LinkOperation
  | reconcile
  | remove
  | restore
deriving DecidableEq

/-- Where an operation is: the records it has yet to go through, and the links it has made. -/
inductive Progress (P T : Type)
  | removing (desired : Links P T) (rest : List (P × T))
  | linking (desired : Links P T) (rest made : List (P × T))
  | unlinking (safe : P → T → Bool) (rest : List (P × T)) (kept : List P)
  | restoring (snapshot : Links P T) (inside : P → Bool) (rest made : List (P × T))
  | writing (operation : LinkOperation) (records : Links P T) (made : List (P × T))

/-- The links an operation has made so far. -/
def Progress.made {P T : Type} : Progress P T → List (P × T)
  | .removing _ _ | .unlinking _ _ _ => []
  | .linking _ _ made | .restoring _ _ _ made | .writing _ _ made => made

/-- What is at each path, the manifest, the operation that runs, and the one that has just
    succeeded. -/
structure LinkState (P T : Type) where
  spot : P → Spot T
  manifest : Manifest P T
  running : Option (Progress P T)
  succeeded : Option LinkOperation

inductive LinkAction (P T : Type)
  | reconcile (desired : Links P T) (available : Bool)
  | remove (safe : P → T → Bool)
  | restore (snapshot : Links P T) (inside : P → Bool)
  | advance
  | stop

set_option linter.unusedSectionVars false

variable {P T : Type} [LinearOrder P] [DecidableEq T]

/-- `_load_manifest`: a manifest that is not valid counts as one without records. -/
def LinkState.records (s : LinkState P T) : Links P T :=
  match s.manifest with
  | .valid records => records
  | .missing | .malformed => .none

/-- `_is_verified_link`, with the records of the manifest. -/
def LinkState.verified (s : LinkState P T) (path : P) (target : T) : Bool :=
  decide (s.records.get? path = some target) &&
    match s.spot path with
    | .link actual _ => decide (actual = target)
    | .free | .other => false

/-- The preflight of `reconcile_direct_links` for one path: it is free, or a verified link. -/
def LinkState.accepts (s : LinkState P T) (path : P) : Bool :=
  match s.spot path with
  | .free => true
  | .link _ _ => (s.records.get? path).any (s.verified path)
  | .other => false

/-- The operation goes on to another place. -/
def LinkState.at (s : LinkState P T) (place : Progress P T) : LinkState P T :=
  { s with running := some place, succeeded := none }

/-- `path.unlink()`. -/
def LinkState.unlink (s : LinkState P T) (path : P) : LinkState P T :=
  { s with spot := Function.update s.spot path .free }

/-- `os.symlink(target, path)`: ROMCloud's own link. -/
def LinkState.symlink (s : LinkState P T) (path : P) (target : T) : LinkState P T :=
  { s with spot := Function.update s.spot path (.link target true) }

/-- `_write_manifest`, and the operation returns. -/
def LinkState.finish (s : LinkState P T) (operation : LinkOperation) (records : Links P T) :
    LinkState P T :=
  { s with
    manifest := if records.entries = [] then .missing else .valid records.sorted
    running := none
    succeeded := some operation }

/-- The next step of an operation; none where it raises. -/
def LinkState.advance (s : LinkState P T) : Progress P T → Option (LinkState P T)
  | .removing desired [] => some (s.at (.linking desired desired.entries []))
  | .removing desired ((path, target) :: rest) =>
    if (desired.get? path).isSome then some (s.at (.removing desired rest))
    else if s.verified path target then some ((s.unlink path).at (.removing desired rest))
    else if s.spot path = .free then some (s.at (.removing desired rest))
    else none
  | .linking desired [] made => some (s.at (.writing .reconcile desired made))
  | .linking desired ((path, target) :: rest) made =>
    match s.spot path with
    | .link _ _ =>
      -- the turn goes on where the path is free now
      if (s.records.get? path).any (· ≠ target) then
        some ((s.unlink path).at (.linking desired ((path, target) :: rest) made))
      else some (s.at (.linking desired rest made))
    | .free => some ((s.symlink path target).at (.linking desired rest ((path, target) :: made)))
    | .other => none
  | .unlinking _ [] kept => some (s.at (.writing .remove (s.records.only kept) []))
  | .unlinking safe ((path, target) :: rest) kept =>
    if safe path target && s.verified path target then
      some ((s.unlink path).at (.unlinking safe rest kept))
    else some (s.at (.unlinking safe rest (path :: kept)))
  | .restoring snapshot _ [] made => some (s.at (.writing .restore snapshot made))
  | .restoring snapshot inside ((path, target) :: rest) made =>
    if inside path then
      match s.spot path with
      | .link actual _ =>
        if actual = target then some (s.at (.restoring snapshot inside rest made)) else none
      | .free =>
        some ((s.symlink path target).at
          (.restoring snapshot inside rest ((path, target) :: made)))
      | .other => none
    else none
  | .writing operation records _ => some (s.finish operation records)

/-- One step.  An operation starts when none runs; its preflight and the manifest it cannot read
    leave everything as it was. -/
def linkStep (s : LinkState P T) : LinkAction P T → Option (LinkState P T)
  | .reconcile desired available =>
    if s.running.isNone && available && desired.entries.all (fun e => s.accepts e.1) then
      some (s.at (.removing desired s.records.entries))
    else none
  | .remove safe =>
    if s.running.isNone then
      match s.manifest with
      | .valid records => some (s.at (.unlinking safe records.entries []))
      | .missing | .malformed => some { s with succeeded := some .remove }
    else none
  | .restore snapshot inside =>
    if s.running.isNone then some (s.at (.restoring snapshot inside snapshot.entries [])) else none
  | .advance => s.running.bind s.advance
  | .stop => if s.running.isSome then some { s with running := none, succeeded := none } else none

/-- ROMCloud's own link is at the path. -/
def LinkState.Own (s : LinkState P T) (path : P) (target : T) : Prop :=
  s.spot path = .link target true

/-- Every own link is recorded with its target. -/
def LinkState.Recorded (s : LinkState P T) : Prop :=
  ∀ path target, s.Own path target → (path, target) ∈ s.records.entries

/-- The machine.  At the start any manifest may be there that records the own links. -/
def directLinks (P T : Type) [LinearOrder P] [DecidableEq T] :
    Machine (LinkState P T) (LinkAction P T) where
  init s := s.running = none ∧ s.succeeded = none ∧ s.Recorded
  step := linkStep

/-- What a step must not meet.  A removal finds every recorded link in its place, and the own ones
    in the safe shape; a snapshot has every own link there is; and an operation stops only while
    the manifest it has read records the links it has made. -/
def Careful (s : LinkState P T) : LinkAction P T → Prop
  | .remove safe => ∀ path target, (path, target) ∈ s.records.entries →
      s.spot path ≠ .free ∧ (s.Own path target → safe path target = true)
  | .restore snapshot _ => ∀ path target, s.Own path target → (path, target) ∈ snapshot.entries
  | .stop => ∀ place, s.running = some place →
      ∀ path target, (path, target) ∈ place.made → (path, target) ∈ s.records.entries
  | .reconcile _ _ | .advance => True

/-- The links are accounted for: a reconcile takes no own link for a foreign one, no record is left
    whose link is gone after an operation, and no own link after a removal. -/
structure Accounted (s : LinkState P T) : Prop where
  recorded : s.Recorded
  accepted : ∀ path target, s.Own path target → s.accepts path = true
  present : s.succeeded ≠ none → ∀ path target, (path, target) ∈ s.records.entries →
    s.spot path ≠ .free
  removed : s.succeeded = some .remove → ∀ path target, ¬ s.Own path target

/-! ### The steps and what they touch -/

section Steps

variable {s : LinkState P T} {p q : P} {t u : T} {place : Progress P T}

@[simp] theorem own_at : (s.at place).Own p t ↔ s.Own p t := Iff.rfl

@[simp] theorem spot_at : (s.at place).spot = s.spot := rfl

@[simp] theorem records_at : (s.at place).records = s.records := rfl

@[simp] theorem records_unlink : (s.unlink q).records = s.records := rfl

@[simp] theorem records_symlink : (s.symlink q u).records = s.records := rfl

@[simp] theorem own_unlink : (s.unlink q).Own p t ↔ p ≠ q ∧ s.Own p t := by
  show Function.update s.spot q .free p = _ ↔ _
  by_cases hp : p = q
  · simp [hp]
  · rw [Function.update_of_ne hp]
    simp [hp, LinkState.Own]

@[simp] theorem own_symlink :
    (s.symlink q u).Own p t ↔ (p = q ∧ t = u) ∨ (p ≠ q ∧ s.Own p t) := by
  show Function.update s.spot q (.link u true) p = _ ↔ _
  by_cases hp : p = q
  · simp [hp, eq_comm]
  · rw [Function.update_of_ne hp]
    simp [hp, LinkState.Own]

theorem spot_unlink_ne (h : p ≠ q) : (s.unlink q).spot p = s.spot p := Function.update_of_ne h ..

theorem spot_symlink_ne_free (h : p = q ∨ s.spot p ≠ .free) : (s.symlink q u).spot p ≠ .free := by
  show Function.update s.spot q (.link u true) p ≠ _
  by_cases hp : p = q
  · simp [hp]
  · rw [Function.update_of_ne hp]
    exact h.resolve_left hp

@[simp] theorem mem_records_finish {operation : LinkOperation} {records : Links P T} {e : P × T} :
    e ∈ (s.finish operation records).records.entries ↔ e ∈ records.entries := by
  show e ∈ (LinkState.records { s with manifest := if _ then _ else _, .. }).entries ↔ _
  by_cases hempty : records.entries = []
  · simp [LinkState.records, hempty]
  · simp [LinkState.records, hempty]

theorem own_ne_free (h : s.Own p t) : s.spot p ≠ .free := by
  rw [LinkState.Own] at h
  simp [h]

theorem Links.isSome_get? {links : Links P T} (h : (p, t) ∈ links.entries) :
    (links.get? p).isSome := by
  rw [(links.get?_eq_some_iff p t).mpr h]
  rfl

/-- A recorded link is verified. -/
theorem verified_of_own (h : s.Own p t) (hrec : (p, t) ∈ s.records.entries) :
    s.verified p t = true := by
  rw [LinkState.Own] at h
  simp [LinkState.verified, (s.records.get?_eq_some_iff p t).mpr hrec, h]

theorem ne_free_of_verified (h : s.verified p t = true) : s.spot p ≠ .free := by
  intro hfree
  simp [LinkState.verified, hfree] at h

end Steps

/-! ### The invariant -/

/-- What an operation may rely on where it is: an own link that it has not come to is recorded, and
    what it has passed is there. -/
def Progress.Ok (s : LinkState P T) : Progress P T → Prop
  | .removing desired rest => ∀ p t, s.Own p t →
      (desired.get? p).isSome ∨ (p, t) ∈ rest
  | .linking desired rest _ =>
      (∀ e, e ∈ rest → e ∈ desired.entries)
      ∧ (∀ p t, (p, t) ∈ desired.entries → (p, t) ∈ rest ∨ s.spot p ≠ .free)
      ∧ ∀ p t, s.Own p t → (p, t) ∈ desired.entries
          ∨ (p, t) ∈ s.records.entries ∧ ∃ u, (p, u) ∈ rest
  | .unlinking safe rest kept =>
      (rest.map Prod.fst).Nodup
      ∧ (∀ p, p ∈ kept → s.spot p ≠ .free ∧ p ∉ rest.map Prod.fst)
      ∧ (∀ p t, (p, t) ∈ rest → s.spot p ≠ .free ∧ (s.Own p t → safe p t = true))
      ∧ ∀ p t, s.Own p t → (p, t) ∈ rest
  | .restoring snapshot _ rest _ =>
      (∀ e, e ∈ rest → e ∈ snapshot.entries)
      ∧ (∀ p t, (p, t) ∈ snapshot.entries → (p, t) ∈ rest ∨ s.spot p ≠ .free)
      ∧ ∀ p t, s.Own p t → (p, t) ∈ snapshot.entries
  | .writing operation records _ =>
      (∀ p t, (p, t) ∈ records.entries → s.spot p ≠ .free)
      ∧ ∀ p t, s.Own p t → (p, t) ∈ records.entries ∧ operation ≠ .remove

/-- The links that the running operation has made. -/
def LinkState.made (s : LinkState P T) : List (P × T) := (s.running.map Progress.made).getD []

/-- **The invariant.**  An own link that the manifest does not record is one that the running
    operation has made. -/
structure LinkInv (s : LinkState P T) : Prop where
  covered : ∀ p t, s.Own p t → (p, t) ∈ s.made ∨ (p, t) ∈ s.records.entries
  ok : ∀ place, s.running = some place → place.Ok s
  present : s.succeeded ≠ none → ∀ p t, (p, t) ∈ s.records.entries → s.spot p ≠ .free
  removed : s.succeeded = some .remove → ∀ p t, ¬ s.Own p t

namespace LinkInv

variable {s s' : LinkState P T}

theorem ok_at {place place' : Progress P T} (h : place.Ok s) : place.Ok (s.at place') := by
  cases place <;> exact h

/-- An operation goes on to another place. -/
theorem goesOn {place : Progress P T}
    (hcovered : ∀ p t, s.Own p t → (p, t) ∈ place.made ∨ (p, t) ∈ s.records.entries)
    (hok : place.Ok s) : LinkInv (s.at place) where
  covered := hcovered
  ok := by
    intro place' hplace
    cases hplace
    exact ok_at hok
  present h := absurd rfl h
  removed h := absurd h (by simp [LinkState.at])

/-- At rest the links are accounted for. -/
theorem accounted (h : LinkInv s) (hrest : s.running = none) : Accounted s := by
  have hrecorded : s.Recorded := by
    intro p t hown
    refine (h.covered p t hown).resolve_left ?_
    simp [LinkState.made, hrest]
  refine ⟨hrecorded, ?_, h.present, h.removed⟩
  intro p t hown
  have hrec := hrecorded p t hown
  have hverified := verified_of_own hown hrec
  rw [LinkState.Own] at hown
  simp [LinkState.accepts, hown, (s.records.get?_eq_some_iff p t).mpr hrec, hverified]

/-- Before a reconcile makes its links. -/
theorem removing (h : LinkInv s) {desired : Links P T} {rest : List (P × T)}
    (hrun : s.running = some (.removing desired rest))
    (hstep : s.advance (.removing desired rest) = some s') : LinkInv s' := by
  have hrec : ∀ p t, s.Own p t → (p, t) ∈ s.records.entries := fun p t hown =>
    (h.covered p t hown).resolve_left (by simp [LinkState.made, hrun, Progress.made])
  have hok : ∀ p t, s.Own p t → (desired.get? p).isSome ∨ (p, t) ∈ rest := h.ok _ hrun
  cases rest with
  | nil =>
    cases hstep
    refine goesOn (fun p t hown => .inr (hrec p t hown)) ⟨fun e he => he, ?_, ?_⟩
    · exact fun p t hmem => .inl hmem
    · intro p t hown
      obtain ⟨u, hu⟩ := Option.isSome_iff_exists.mp ((hok p t hown).resolve_right (by simp))
      exact .inr ⟨hrec p t hown, u, (desired.get?_eq_some_iff p u).mp hu⟩
  | cons e rest =>
    obtain ⟨path, target⟩ := e
    simp only [LinkState.advance] at hstep
    -- a link that is passed is wanted, or there is none
    have hpass : (desired.get? path).isSome ∨ ¬ s.Own path target →
        LinkInv (s.at (.removing desired rest)) := by
      intro hhead
      refine goesOn (fun p t hown => .inr (hrec p t hown)) ?_
      intro p t hown
      rcases hok p t hown with hdesired | hmem
      · exact .inl hdesired
      · rcases List.mem_cons.mp hmem with heq | hmem
        · cases heq
          exact .inl (hhead.resolve_right fun hnot => hnot hown)
        · exact .inr hmem
    split at hstep
    · next hdesired =>
      cases hstep
      exact hpass (.inl hdesired)
    · split at hstep
      · cases hstep
        refine goesOn (fun p t hown => .inr (hrec p t (own_unlink.mp hown).2)) ?_
        intro p t hown
        obtain ⟨hne, hown⟩ := own_unlink.mp hown
        rcases hok p t hown with hdesired | hmem
        · exact .inl hdesired
        · exact .inr ((List.mem_cons.mp hmem).resolve_left fun heq => hne (by cases heq; rfl))
      · split at hstep
        · next hfree =>
          cases hstep
          exact hpass (.inr fun hown => own_ne_free hown hfree)
        · exact absurd hstep (by simp)

/-- While a reconcile makes its links. -/
theorem linking (h : LinkInv s) {desired : Links P T} {rest made : List (P × T)}
    (hrun : s.running = some (.linking desired rest made))
    (hstep : s.advance (.linking desired rest made) = some s') : LinkInv s' := by
  have hcovered : ∀ p t, s.Own p t → (p, t) ∈ made ∨ (p, t) ∈ s.records.entries := by
    intro p t hown
    have hmade := h.covered p t hown
    rwa [LinkState.made, hrun] at hmade
  obtain ⟨hsub, hthere, hown⟩ : Progress.Ok s (.linking desired rest made) := h.ok _ hrun
  cases rest with
  | nil =>
    cases hstep
    refine goesOn hcovered ⟨?_, ?_⟩
    · exact fun p t hmem => (hthere p t hmem).resolve_left (by simp)
    · intro p t hp
      refine ⟨(hown p t hp).resolve_right ?_, by simp⟩
      rintro ⟨-, u, hu⟩
      exact absurd hu (by simp)
  | cons e rest =>
    obtain ⟨path, target⟩ := e
    simp only [LinkState.advance] at hstep
    have hhead : (path, target) ∈ desired.entries := hsub _ List.mem_cons_self
    have htail : ∀ e, e ∈ rest → e ∈ desired.entries := fun e he =>
      hsub e (List.mem_cons_of_mem _ he)
    -- the record of another path is still to come
    have hother : ∀ {p : P} {u : T}, p ≠ path → (p, u) ∈ (path, target) :: rest →
        (p, u) ∈ rest := fun hne hmem =>
      (List.mem_cons.mp hmem).resolve_left fun heq => hne (by cases heq; rfl)
    have hthere' : ∀ p t, (p, t) ∈ desired.entries → p ≠ path →
        (p, t) ∈ rest ∨ s.spot p ≠ .free := fun p t hmem hne =>
      (hthere p t hmem).imp_left (hother hne)
    have hown' : ∀ p t, s.Own p t → p ≠ path → (p, t) ∈ desired.entries
        ∨ (p, t) ∈ s.records.entries ∧ ∃ u, (p, u) ∈ rest := fun p t hp hne =>
      (hown p t hp).imp_right fun ⟨hrec, u, hu⟩ => ⟨hrec, u, hother hne hu⟩
    split at hstep
    · next actual own hspot =>
      split at hstep
      · cases hstep
        refine goesOn (fun p t hp => hcovered p t (own_unlink.mp hp).2) ⟨hsub, ?_, ?_⟩
        · intro p t hmem
          by_cases hne : p = path
          · subst hne
            rw [desired.target_unique hmem hhead]
            exact .inl List.mem_cons_self
          · rw [spot_unlink_ne hne]
            exact hthere p t hmem
        · exact fun p t hp => hown p t (own_unlink.mp hp).2
      · next hkeep =>
        cases hstep
        refine goesOn hcovered ⟨htail, ?_, ?_⟩
        · intro p t hmem
          by_cases hne : p = path
          · subst hne
            exact .inr (by simp [hspot])
          · exact hthere' p t hmem hne
        · intro p t hp
          by_cases hne : p = path
          · subst hne
            refine .inl ((hown p t hp).elim id ?_)
            rintro ⟨hrec, -⟩
            rw [(s.records.get?_eq_some_iff p t).mpr hrec] at hkeep
            have ht : t = target := by simpa using hkeep
            exact ht ▸ hhead
          · exact hown' p t hp hne
    · next hfree =>
      cases hstep
      refine goesOn ?_ ⟨htail, ?_, ?_⟩
      · intro p t hp
        rcases own_symlink.mp hp with ⟨rfl, rfl⟩ | ⟨-, hp⟩
        · exact .inl List.mem_cons_self
        · exact (hcovered p t hp).imp_left (List.mem_cons_of_mem _)
      · intro p t hmem
        by_cases hne : p = path
        · exact .inr (spot_symlink_ne_free (.inl hne))
        · exact (hthere' p t hmem hne).imp_right fun hp => spot_symlink_ne_free (.inr hp)
      · intro p t hp
        rcases own_symlink.mp hp with ⟨rfl, rfl⟩ | ⟨hne, hp⟩
        · exact .inl hhead
        · exact hown' p t hp hne
    · exact absurd hstep (by simp)

/-- While a removal takes the links away. -/
theorem unlinking (h : LinkInv s) {safe : P → T → Bool} {rest : List (P × T)} {kept : List P}
    (hrun : s.running = some (.unlinking safe rest kept))
    (hstep : s.advance (.unlinking safe rest kept) = some s') : LinkInv s' := by
  have hrec : ∀ p t, s.Own p t → (p, t) ∈ s.records.entries := fun p t hown =>
    (h.covered p t hown).resolve_left (by simp [LinkState.made, hrun, Progress.made])
  obtain ⟨hnodup, hkept, hrest, hown⟩ : Progress.Ok s (.unlinking safe rest kept) := h.ok _ hrun
  cases rest with
  | nil =>
    cases hstep
    refine goesOn (fun p t hp => .inr (hrec p t hp)) ⟨?_, ?_⟩
    · exact fun p t hmem => (hkept p ((Links.mem_only _ _ _).mp hmem).2).1
    · exact fun p t hp => absurd (hown p t hp) (by simp)
  | cons e rest =>
    obtain ⟨path, target⟩ := e
    rw [List.map_cons, List.nodup_cons] at hnodup
    simp only [LinkState.advance] at hstep
    have hne : ∀ {p : P} {t : T}, (p, t) ∈ rest → p ≠ path := fun hmem heq =>
      hnodup.1 (List.mem_map.mpr ⟨_, hmem, heq⟩)
    have hkept' : ∀ p, p ∈ kept → s.spot p ≠ .free ∧ p ≠ path ∧ p ∉ rest.map Prod.fst :=
      fun p hp => ⟨(hkept p hp).1, not_or.mp fun hor => (hkept p hp).2 (List.mem_cons.mpr hor)⟩
    split at hstep
    · cases hstep
      refine goesOn (fun p t hp => .inr (hrec p t (own_unlink.mp hp).2))
        ⟨hnodup.2, ?_, ?_, ?_⟩
      · intro p hp
        obtain ⟨hfree, hpath, hout⟩ := hkept' p hp
        rw [spot_unlink_ne hpath]
        exact ⟨hfree, hout⟩
      · intro p t hmem
        obtain ⟨hfree, hsafe⟩ := hrest p t (List.mem_cons_of_mem _ hmem)
        rw [spot_unlink_ne (hne hmem)]
        exact ⟨hfree, fun hp => hsafe (own_unlink.mp hp).2⟩
      · intro p t hp
        obtain ⟨hpath, hp⟩ := own_unlink.mp hp
        exact (List.mem_cons.mp (hown p t hp)).resolve_left fun heq => hpath (by cases heq; rfl)
    · next hkeep =>
      cases hstep
      obtain ⟨hfree, hsafe⟩ := hrest path target List.mem_cons_self
      -- an own link would have been taken away
      have hforeign : ¬ s.Own path target := fun hp =>
        hkeep (by rw [hsafe hp, verified_of_own hp (hrec _ _ hp)]; rfl)
      refine goesOn (fun p t hp => .inr (hrec p t hp)) ⟨hnodup.2, ?_, ?_, ?_⟩
      · intro p hp
        rcases List.mem_cons.mp hp with rfl | hp
        · exact ⟨hfree, hnodup.1⟩
        · exact ⟨(hkept' p hp).1, (hkept' p hp).2.2⟩
      · exact fun p t hmem => hrest p t (List.mem_cons_of_mem _ hmem)
      · intro p t hp
        exact (List.mem_cons.mp (hown p t hp)).resolve_left fun heq =>
          hforeign (by cases heq; exact hp)

/-- While a snapshot is restored. -/
theorem restoring (h : LinkInv s) {snapshot : Links P T} {inside : P → Bool}
    {rest made : List (P × T)} (hrun : s.running = some (.restoring snapshot inside rest made))
    (hstep : s.advance (.restoring snapshot inside rest made) = some s') : LinkInv s' := by
  have hcovered : ∀ p t, s.Own p t → (p, t) ∈ made ∨ (p, t) ∈ s.records.entries := by
    intro p t hown
    have hmade := h.covered p t hown
    rwa [LinkState.made, hrun] at hmade
  obtain ⟨hsub, hthere, hown⟩ : Progress.Ok s (.restoring snapshot inside rest made) :=
    h.ok _ hrun
  cases rest with
  | nil =>
    cases hstep
    refine goesOn hcovered ⟨?_, ?_⟩
    · exact fun p t hmem => (hthere p t hmem).resolve_left (by simp)
    · exact fun p t hp => ⟨hown p t hp, by simp⟩
  | cons e rest =>
    obtain ⟨path, target⟩ := e
    have htail : ∀ e, e ∈ rest → e ∈ snapshot.entries := fun e he =>
      hsub e (List.mem_cons_of_mem _ he)
    have hthere' : ∀ p t, (p, t) ∈ snapshot.entries → p ≠ path →
        (p, t) ∈ rest ∨ s.spot p ≠ .free := fun p t hmem hne =>
      (hthere p t hmem).imp_left fun hin =>
        (List.mem_cons.mp hin).resolve_left fun heq => hne (by cases heq; rfl)
    simp only [LinkState.advance] at hstep
    split at hstep
    · split at hstep
      · next actual own hspot =>
        split at hstep
        · cases hstep
          refine goesOn hcovered ⟨htail, ?_, hown⟩
          intro p t hmem
          by_cases hne : p = path
          · exact .inr (by simp [hne, hspot])
          · exact hthere' p t hmem hne
        · exact absurd hstep (by simp)
      · cases hstep
        refine goesOn ?_ ⟨htail, ?_, ?_⟩
        · intro p t hp
          rcases own_symlink.mp hp with ⟨rfl, rfl⟩ | ⟨-, hp⟩
          · exact .inl List.mem_cons_self
          · exact (hcovered p t hp).imp_left (List.mem_cons_of_mem _)
        · intro p t hmem
          by_cases hne : p = path
          · exact .inr (spot_symlink_ne_free (.inl hne))
          · exact (hthere' p t hmem hne).imp_right fun hp => spot_symlink_ne_free (.inr hp)
        · intro p t hp
          rcases own_symlink.mp hp with ⟨rfl, rfl⟩ | ⟨-, hp⟩
          · exact hsub _ List.mem_cons_self
          · exact hown p t hp
      · exact absurd hstep (by simp)
    · exact absurd hstep (by simp)

/-- The manifest is written, and names every own link. -/
theorem writing (h : LinkInv s) {operation : LinkOperation} {records : Links P T}
    {made : List (P × T)} (hrun : s.running = some (.writing operation records made)) :
    LinkInv (s.finish operation records) := by
  obtain ⟨hthere, hown⟩ : Progress.Ok s (.writing operation records made) := h.ok _ hrun
  refine ⟨?_, ?_, ?_, ?_⟩
  · exact fun p t hp => .inr (mem_records_finish.mpr (hown p t hp).1)
  · exact fun place hplace => absurd hplace (by simp [LinkState.finish])
  · exact fun _ p t hmem => hthere p t (mem_records_finish.mp hmem)
  · intro hremove p t hp
    exact (hown p t hp).2 (Option.some.inj hremove)

/-- An operation starts, where it is careful to. -/
theorem starts (h : LinkInv s) (hrest : s.running = none) {place : Progress P T}
    (hok : place.Ok s) : LinkInv (s.at place) := by
  refine goesOn (fun p t hown => .inr ?_) hok
  exact (h.accounted hrest).recorded p t hown

/-- A removal returns at once, where there is no record. -/
theorem removesNone (h : LinkInv s) (hrest : s.running = none)
    (hempty : s.records.entries = []) : LinkInv { s with succeeded := some .remove } := by
  refine ⟨h.covered, h.ok, fun _ p t hmem => ?_, fun _ p t hown => ?_⟩
  · have hmem : (p, t) ∈ s.records.entries := hmem
    rw [hempty] at hmem
    exact absurd hmem List.not_mem_nil
  · have hmem := (h.accounted hrest).recorded p t hown
    rw [hempty] at hmem
    exact absurd hmem List.not_mem_nil

/-- **The step lemma.** -/
theorem step (h : LinkInv s) {a : LinkAction P T} (hcareful : Careful s a)
    (hstep : linkStep s a = some s') : LinkInv s' := by
  cases a with
  | reconcile desired available =>
    simp only [linkStep] at hstep
    split at hstep
    · next hpre =>
      cases hstep
      rw [Bool.and_eq_true, Bool.and_eq_true] at hpre
      have hrest : s.running = none := Option.isNone_iff_eq_none.mp hpre.1.1
      refine h.starts hrest ?_
      exact fun p t hown => .inr ((h.accounted hrest).recorded p t hown)
    · exact absurd hstep (by simp)
  | remove safe =>
    simp only [linkStep] at hstep
    split at hstep
    · next hrunning =>
      have hrest : s.running = none := Option.isNone_iff_eq_none.mp hrunning
      cases hmanifest : s.manifest with
      | valid records =>
        have hrecords : s.records = records := by simp [LinkState.records, hmanifest]
        rw [hmanifest] at hstep
        cases hstep
        rw [← hrecords]
        refine h.starts hrest ⟨s.records.nodup, ?_, ?_, ?_⟩
        · exact fun p hp => absurd hp (by simp)
        · exact fun p t hmem => hcareful p t hmem
        · exact fun p t hown => (h.accounted hrest).recorded p t hown
      | missing | malformed =>
        have hempty : s.records.entries = [] := by simp [LinkState.records, hmanifest]
        have hs' : some { s with succeeded := some .remove } = some s' := by
          simpa only [hmanifest] using hstep
        cases hs'
        exact h.removesNone hrest hempty
    · exact absurd hstep (by simp)
  | restore snapshot inside =>
    simp only [linkStep] at hstep
    split at hstep
    · next hrunning =>
      cases hstep
      refine h.starts (Option.isNone_iff_eq_none.mp hrunning) ⟨fun e he => he, ?_, hcareful⟩
      exact fun p t hmem => .inl hmem
    · exact absurd hstep (by simp)
  | advance =>
    obtain ⟨place, hrun, hadvance⟩ := Option.bind_eq_some_iff.mp hstep
    cases place with
    | removing desired rest => exact h.removing hrun hadvance
    | linking desired rest made => exact h.linking hrun hadvance
    | unlinking safe rest kept => exact h.unlinking hrun hadvance
    | restoring snapshot inside rest made => exact h.restoring hrun hadvance
    | writing operation records made =>
      cases hadvance
      exact h.writing hrun
  | stop =>
    simp only [linkStep] at hstep
    split at hstep
    · next hrunning =>
      cases hstep
      obtain ⟨place, hrun⟩ := Option.isSome_iff_exists.mp hrunning
      refine ⟨fun p t hown => .inr ?_, ?_, fun hne => absurd rfl hne, ?_⟩
      · rcases h.covered p t hown with hmade | hrec
        · rw [LinkState.made, hrun] at hmade
          exact hcareful place hrun p t hmade
        · exact hrec
      · exact fun place hplace => absurd hplace (by simp)
      · exact fun hremove => absurd hremove (by simp)
    · exact absurd hstep (by simp)

end LinkInv

/-- **The run theorem.**  Runs whose steps are all careful keep the links accounted for: between
    the operations every own link is recorded with its target, a reconcile accepts it, a removal
    leaves none, and no operation leaves the record of a link that is gone. -/
theorem careful_runs_accounted {s : LinkState P T} (h : (directLinks P T).Reach Careful s)
    (hrest : s.running = none) : Accounted s := by
  have hinv : LinkInv s := by
    refine h.invariant ?_ fun _ _ _ _ hinv hcareful hstep => hinv.step hcareful hstep
    rintro s ⟨hnone, hlast, hrecorded⟩
    refine ⟨fun p t hown => .inr (hrecorded p t hown), ?_, ?_, ?_⟩
    · exact fun place hplace => absurd (hnone.symm.trans hplace) (by simp)
    · exact fun hne => absurd hlast hne
    · exact fun hremove => absurd (hlast.symm.trans hremove) (by simp)
  exact hinv.accounted hrest

/-- No link and no manifest. -/
def noLinks : LinkState ℕ ℕ where
  spot _ := .free
  manifest := .missing
  running := none
  succeeded := none

theorem noLinks_init : (directLinks ℕ ℕ).init noLinks :=
  ⟨rfl, rfl, fun _ _ h => absurd h (by simp [LinkState.Own, noLinks])⟩

/-- The links of one system. -/
def oneLink : Links ℕ ℕ := ⟨[(1, 10)], by simp⟩

/-- A link is made, and removed again. -/
theorem madeAndRemoved_accounted :
    ∃ s : LinkState ℕ ℕ, s.running = none ∧ s.succeeded = some .remove ∧ Accounted s := by
  have h : (directLinks ℕ ℕ).Reach Careful noLinks := .init noLinks_init
  have h := h.step (show Careful _ (.reconcile oneLink true) from trivial) rfl
  have h := h.step (show Careful _ (.advance : LinkAction ℕ ℕ) from trivial) rfl
  have h := h.step (show Careful _ (.advance : LinkAction ℕ ℕ) from trivial) rfl
  have h := h.step (show Careful _ (.advance : LinkAction ℕ ℕ) from trivial) rfl
  have h := h.step (show Careful _ (.advance : LinkAction ℕ ℕ) from trivial) rfl
  have h := h.step (show Careful _ (.remove fun _ _ => true) from by
    intro path target hmem
    obtain ⟨rfl, rfl⟩ : path = 1 ∧ target = 10 := by simpa [oneLink] using hmem
    exact ⟨by decide, fun _ => rfl⟩) rfl
  have h := h.step (show Careful _ (.advance : LinkAction ℕ ℕ) from trivial) rfl
  have h := h.step (show Careful _ (.advance : LinkAction ℕ ℕ) from trivial) rfl
  have h := h.step (show Careful _ (.advance : LinkAction ℕ ℕ) from trivial) rfl
  exact ⟨_, rfl, rfl, careful_runs_accounted h rfl⟩

/-- A reconcile stops between its link and the manifest. -/
theorem stoppedReconcile_unrecorded :
    ∃ s, (directLinks ℕ ℕ).Reach Machine.anyStep s ∧ s.running = none ∧ ¬ Accounted s := by
  have h : (directLinks ℕ ℕ).Reach Machine.anyStep noLinks := .init noLinks_init
  have h := h.step (show Machine.anyStep _ (.reconcile oneLink true) from trivial) rfl
  have h := h.step (show Machine.anyStep _ (.advance : LinkAction ℕ ℕ) from trivial) rfl
  have h := h.step (show Machine.anyStep _ (.advance : LinkAction ℕ ℕ) from trivial) rfl
  have h := h.step (show Machine.anyStep _ (.stop : LinkAction ℕ ℕ) from trivial) rfl
  refine ⟨_, h, rfl, fun hacc => ?_⟩
  have haccepted := hacc.accepted 1 10 rfl
  exact absurd haccepted (by decide)

end RomCloud.Modes
