import RomCloud.Catalog.RefreshSteps

namespace RomCloud.Catalog

open Lib

/-!
# A row is hidden on evidence

* `Evidence` — what a refresh may hide or delete a row for;
* `Traced` — what a row may have become while its system is refreshed;
* `Forgotten` — a row of an earlier source that the refresh has nothing to say about;
* `hidden_on_evidence_iff` — a refresh hides rows on evidence only, if and only if its registry is
  live or no visible row is forgotten.
-/

/-- The system was scanned, and the listing did not fail. -/
def Run.Scanned (run : Run) (system : String) (scan : Scan) : Prop :=
  system ∈ run.matched ∧ run.scan system = some scan

/-- What a row may be hidden or deleted for. -/
inductive Evidence (run : Run) (c : Rows) (id : ℕ) (game : Game) : Prop
  | deselected (h : run.selects game.system = false)
  | unknown (hlive : run.live = true) (h : game.system ∈ run.unmatched)
  | rejected (hlive : run.live = true) {scan : Scan} (hscan : run.Scanned game.system scan)
      {path : SourcePath} (hpath : game.path = some path) (h : path ∈ scan.ineligible)
  | companion {scan : Scan} (hscan : run.Scanned game.system scan) {path : SourcePath}
      (hpath : game.path = some path) (h : path ∈ scan.consumed)
  | duplicate {scan : Scan} (hscan : run.Scanned game.system scan) {found : Found}
      (hfound : found ∈ scan.games) {path : SourcePath} (hpath : game.path = some path)
      (hsame : found.path = some path) {other : ℕ} (hne : other ≠ id) {row : Game}
      (hrow : c.row other = some row) (hsystem : row.system = game.system)
      (h : row.path = some path)
  | replaced (hlive : run.live = true) (hprevious : run.current game = false)
      (h : (∃ scan, run.Scanned game.system scan) ∨ game.system ∉ run.remoteSystems)

/-- The row is there, and eligible. -/
def Rows.Visible (c : Rows) (id : ℕ) : Prop := ∃ game, c.row id = some game ∧ game.isEligible = true

/-- The refresh hides and deletes on evidence only. -/
def HiddenOnEvidence (run : Run) (c : Rows) : Prop :=
  ∀ id game, c.row id = some game → game.isEligible = true → ¬ (run.refresh c).Visible id →
    Evidence run c id game

/-- The scan has seen nothing of a row: no companion, no game at its path, and no game that goes on
    as the row of its directory. -/
structure Unseen (c : Rows) (scan : Scan) (id : ℕ) (game : Game) : Prop where
  companion : ∀ path ∈ scan.consumed, game.path ≠ some path
  found : ∀ found ∈ scan.games, ∀ path, found.path = some path → game.path ≠ some path
  directory : ∀ found ∈ scan.games, ∀ path, found.path = some path →
    candidates (c.systemRows game.system) path = [] →
    legacyAt (c.systemRows game.system) scan path ≠ some (id, game)

/-- A row of an earlier source, of a system that the refresh has completed without seeing the row,
    or that is not at the source. -/
structure Forgotten (run : Run) (c : Rows) (id : ℕ) (game : Game) : Prop where
  previous : run.current game = false
  selected : run.selects game.system = true
  gone : game.system ∉ run.remoteSystems
    ∨ run.completed game.system = true ∧ ∃ scan, run.scan game.system = some scan
      ∧ Unseen c scan id game

/-- Evidence is about the rows of the system. -/
theorem Evidence.congr {run : Run} {c d : Rows} {id : ℕ} {game : Game}
    (h : Evidence run d id game)
    (hsame : ∀ id row, row.system = game.system → (d.row id = some row ↔ c.row id = some row)) :
    Evidence run c id game := by
  cases h with
  | deselected h => exact .deselected h
  | unknown hlive h => exact .unknown hlive h
  | rejected hlive hscan hpath h => exact .rejected hlive hscan hpath h
  | companion hscan hpath h => exact .companion hscan hpath h
  | duplicate hscan hfound hpath hfoundpath hne hrow hsystem h =>
    exact .duplicate hscan hfound hpath hfoundpath hne ((hsame _ _ hsystem).mp hrow) hsystem h
  | replaced hlive hprevious h => exact .replaced hlive hprevious h

namespace Run

variable {run : Run} {c d : Rows} {system : String} {scan : Scan} {id : ℕ} {game : Game}

/-! ### A system -/

/-- What a row may have become: itself, or what a found game has written to it. -/
def Trace (run : Run) (scan : Scan) (game game' : Game) : Prop :=
  game' = game ∨ run.current game' = true
    ∧ (game'.path = game.path ∨ ∃ directory ∈ scan.directories, game.path = some directory)

/-- The row is still visible, as a row with a property, or there is evidence against it. -/
def Traced (run : Run) (c : Rows) (id : ℕ) (game : Game) (P : Game → Prop) (d : Rows) : Prop :=
  (∃ game', d.row id = some game' ∧ game'.isEligible = true ∧ game'.system = game.system
    ∧ P game') ∨ Evidence run c id game

theorem Traced.mono {P Q : Game → Prop} (h : Traced run c id game P d)
    (hPQ : ∀ game', P game' → Q game') : Traced run c id game Q d :=
  h.imp_left fun ⟨game', hrow, heligible, hsystem, hP⟩ =>
    ⟨game', hrow, heligible, hsystem, hPQ game' hP⟩

/-- A transaction that leaves the row alone. -/
theorem Traced.untouched {P : Game → Prop} (h : Traced run c id game P d) {op : RowOp}
    (hrow : id < d.nextId → (d.apply op).row id = d.row id) :
    Traced run c id game P (d.apply op) :=
  h.imp_left fun ⟨game', hgame', hrest⟩ =>
    ⟨game', (hrow (Rows.row_lt hgame')).trans hgame', hrest⟩

/-- What a game writes to the row it goes on as. -/
theorem adopted_spec (hrow : c.row id = some game) {row : Game}
    (h : Adopted run c system scan (id, row)) :
    row.isEligible = true ∧ row.system = system ∧ run.current row = true
      ∧ Trace run scan game row := by
  obtain ⟨found, path, old, hid, rfl⟩ := h
  obtain ⟨hmem, hpath⟩ := existing_eq_some hid.row
  obtain rfl := eq_of_mem_systemRows hrow hmem
  have hcurrent : run.current (run.adopt system found old) = true := by
    simp [current, adopt, create]
  refine ⟨rfl, rfl, hcurrent, .inr ⟨hcurrent, ?_⟩⟩
  rcases hpath with hpath | ⟨-, hdirectory⟩
  · exact .inl (hid.at_path.trans hpath.symm)
  · exact .inr hdirectory

/-- A row that shares its path is evidence. -/
theorem evidence_of_duplicate (hscan : run.Scanned game.system scan)
    (hrow : c.row id = some game) (h : Duplicate c game.system scan id) :
    Evidence run c id game := by
  obtain ⟨found, path, r, row, hid, hmem, hne⟩ := h
  obtain ⟨hin, hpath⟩ := mem_candidates.mp hmem
  obtain rfl := eq_of_mem_systemRows hrow hin
  obtain ⟨hr, hrpath⟩ := existing_eq_some hid.row
  have hsame : r.2.path = some path :=
    hrpath.resolve_right fun hlegacy => List.ne_nil_of_mem hmem hlegacy.1
  obtain ⟨hrrow, hrsystem⟩ := (Rows.mem_systemRows ..).mp hr
  exact .duplicate hscan hid.mem hpath hid.at_path (Ne.symm hne) hrrow hrsystem hsame

/-- **One transaction.**  What found games write may be any property of theirs. -/
theorem Traced.apply {P : Game → Prop} (hscan : run.Scanned game.system scan)
    (hrow : c.row id = some game) (h : Traced run c id game P d) {op : RowOp}
    (hop : Needed run c game.system scan op)
    (hsaved : ∀ row, Adopted run c game.system scan (id, row) → P row) :
    Traced run c id game P (d.apply op) := by
  cases hop with
  | @prune r hr =>
    by_cases hid : id = r.1
    · obtain ⟨hmem, -, path, hconsumed, hpath⟩ := hr
      have hr2 : r.2 = game := eq_of_mem_systemRows hrow (by rw [hid]; exact hmem)
      exact .inr (.companion hscan (hr2 ▸ hpath) hconsumed)
    · exact h.untouched fun _ => row_apply_delete d _ id (by simpa using hid)
  | @retire ids hids =>
    by_cases hid : id ∈ ids
    · exact .inr (evidence_of_duplicate hscan hrow (hids id hid))
    · exact h.untouched fun _ => row_apply_delete d _ id hid
  | @save rows hrows =>
    rcases row_apply_save d rows id with ⟨-, hsame⟩ | ⟨row, hmem, hnew⟩
    · exact h.untouched fun _ => hsame
    · have hadopted := (hrows _ hmem).adopted
      obtain ⟨heligible, hsystem, -, -⟩ := adopted_spec hrow hadopted
      exact .inl ⟨row, hnew, heligible, hsystem, hsaved row hadopted⟩
  | register => exact h.untouched fun hlt => row_apply_register d _ id hlt
  | @record j names => exact h.untouched fun _ => d.row_recordMissing j names id
  | @move j path => exact h.untouched fun _ => d.row_record j path id

/-- The transactions of the system, up to the rejected paths. -/
theorem Traced.applyAll {P : Game → Prop} (hscan : run.Scanned game.system scan)
    (hrow : c.row id = some game) (h : Traced run c id game P d) {ops : List RowOp}
    (hops : ∀ op ∈ ops, Needed run c game.system scan op)
    (hsaved : ∀ row, Adopted run c game.system scan (id, row) → P row) :
    Traced run c id game P (d.applyAll ops) :=
  Rows.applyAll_induction h fun _ hd op hop => hd.apply hscan hrow (hops op hop) hsaved

/-- The rejected paths. -/
theorem Traced.reject (hscan : run.Scanned game.system scan)
    (h : Traced run c id game (Trace run scan game) d) {ops : List RowOp}
    (hops : ∀ op ∈ ops, op ∈ run.rejectOps d game.system scan) :
    Traced run c id game (Trace run scan game) (d.applyAll ops) := by
  by_cases hhide : RowOp.hide id ∈ ops
  · -- the row is at a rejected path, or its directory was rejected
    obtain ⟨hlive, r, hr, ⟨path, hineligible, hpath⟩, heq⟩ := mem_rejectOps (hops _ hhide)
    obtain rfl : id = r.1 := RowOp.hide.inj heq
    rcases h with ⟨game', hgame', -, -, htrace⟩ | h
    · obtain rfl := eq_of_mem_systemRows hgame' hr
      refine .inr ?_
      rcases htrace with hsame | ⟨-, hsame | ⟨directory, hdirectory, hgame⟩⟩
      · exact .rejected hlive hscan (hsame ▸ hpath) hineligible
      · exact .rejected hlive hscan (hsame.symm.trans hpath) hineligible
      · exact .rejected hlive hscan hgame (scan.rejected directory hdirectory)
    · exact .inr h
  · refine Rows.applyAll_induction h fun e he op hop => he.untouched fun _ => ?_
    obtain ⟨-, r, -, -, rfl⟩ := mem_rejectOps (hops op hop)
    refine (e.row_hide r.1 id).trans (if_neg ?_)
    rintro rfl
    exact hhide hop

/-- **One system.** -/
theorem systemPass_traced (hscan : run.Scanned game.system scan) (hrow : c.row id = some game)
    (heligible : game.isEligible = true) :
    Traced run c id game (Trace run scan game) (run.systemPass c game.system) := by
  have hstart : Traced run c id game (Trace run scan game) c :=
    .inl ⟨game, hrow, heligible, rfl, .inl rfl⟩
  simp only [systemPass, hscan.2]
  refine Traced.reject hscan (hstart.applyAll hscan hrow ?_ ?_) fun op hop => mem_of_mem_cut hop
  · exact fun op hop => needed_of_mem (mem_of_mem_cut hop)
  · exact fun row hrow' => (adopted_spec hrow hrow').2.2.2

/-! ### What a completed system has written -/

/-- A row of an earlier source that a game goes on as is written. -/
theorem save_of_identified {found : Found} {path : SourcePath}
    (h : Identified c system scan found path (id, game)) (hprevious : run.current game = false) :
    ∃ rows, RowOp.save rows ∈ run.bodyOps c system scan
      ∧ (id, run.adopt system found game) ∈ rows := by
  obtain ⟨pass, hpass⟩ := @exists_turn run c system scan found h.mem
  have hmem : (id, run.adopt system found game) ∈ (run.loop c system scan).migrations :=
    hpass.migrations _ (by simp [turn, h.at_path, h.row, changed, hprevious])
  refine ⟨_, ?_, hmem⟩
  simp only [bodyOps, List.mem_append]
  refine .inl (.inl (.inl (.inr ?_)))
  change _ ∈ unlessEmpty .save (run.loop c system scan).migrations
  rw [unlessEmpty, if_neg, List.mem_singleton]
  rw [List.isEmpty_iff]
  exact List.ne_nil_of_mem hmem

/-- A completed system has written the rows of an earlier source that games go on as. -/
theorem systemPass_written (hscan : run.Scanned game.system scan) (hlive : run.live = false)
    (hstop : run.stop game.system = none) (hrow : c.row id = some game)
    (heligible : game.isEligible = true) {found : Found} {path : SourcePath}
    (hid : Identified c game.system scan found path (id, game))
    (hprevious : run.current game = false) :
    Traced run c id game (fun row => run.current row = true) (run.systemPass c game.system) := by
  obtain ⟨rows, hop, hmem⟩ := save_of_identified hid hprevious
  obtain ⟨before, after, hsplit⟩ := List.append_of_mem hop
  have hneeded : ∀ op ∈ run.bodyOps c game.system scan, Needed run c game.system scan op :=
    fun op => needed_of_mem
  have hsaved : ∀ row, Adopted run c game.system scan (id, row) → run.current row = true :=
    fun row h => (adopted_spec hrow h).2.2.1
  have hbefore : Traced run c id game (fun _ => True) (c.applyAll before) :=
    Traced.applyAll hscan hrow (.inl ⟨game, hrow, heligible, rfl, trivial⟩)
      (fun op h => hneeded op (hsplit ▸ List.mem_append_left _ h)) fun _ _ => trivial
  -- the row is written here, and only written again from there on
  have hsave : Traced run c id game (fun row => run.current row = true)
      ((c.applyAll before).apply (.save rows)) := by
    rcases row_apply_save (c.applyAll before) rows id with ⟨hout, -⟩ | ⟨row, hin, hnew⟩
    · exact absurd (List.mem_map.mpr ⟨_, hmem, rfl⟩) hout
    · cases hneeded _ hop with
      | save hrows =>
        obtain ⟨he, hsystem, hcurrent, -⟩ := adopted_spec hrow (hrows _ hin).adopted
        exact .inl ⟨row, hnew, he, hsystem, hcurrent⟩
  have hbody : Traced run c id game (fun row => run.current row = true)
      (c.applyAll (run.bodyOps c game.system scan)) := by
    rw [hsplit, Rows.applyAll, List.foldl_append, List.foldl_cons]
    refine hsave.applyAll hscan hrow (fun op h => hneeded op ?_) hsaved
    rw [hsplit]
    exact List.mem_append_right _ (List.mem_cons_of_mem _ h)
  have hreject : run.rejectOps (c.applyAll (run.bodyOps c game.system scan)) game.system scan
      = [] := by
    rw [rejectOps, rejectedIds, if_neg (by simp [hlive])]
    rfl
  simp only [systemPass, hscan.2, hstop, cut, Option.map_none, hreject]
  exact hbody

theorem Traced.congr {P : Game → Prop} {e f : Rows} (h : Traced run d id game P e)
    (hsame : ∀ id row, row.system = game.system → (d.row id = some row ↔ c.row id = some row))
    (hrow : ∀ row, row.system = game.system → (f.row id = some row ↔ e.row id = some row)) :
    Traced run c id game P f := by
  rcases h with ⟨game', hgame', heligible, hsystem, hP⟩ | h
  · exact .inl ⟨game', (hrow game' hsystem).mpr hgame', heligible, hsystem, hP⟩
  · exact .inr (h.congr hsame)

/-- **The systems.** -/
theorem scanned_traced (hrow : c.row id = some game) (heligible : game.isEligible = true) :
    Traced run c id game (fun row => row = game ∨ run.current row = true) (run.scanned c) := by
  have hstay : Traced run c id game (fun row => row = game ∨ run.current row = true) c :=
    .inl ⟨game, hrow, heligible, rfl, .inl rfl⟩
  by_cases hselected : run.selects game.system = true
  · by_cases hmatched : game.system ∈ run.matched
    · obtain ⟨mid, hmid, hlast⟩ := exists_mid (c := c) hmatched
      have hmidrow := (hmid id game rfl).mpr hrow
      cases hscan : run.scan game.system with
      | none =>
        refine hstay.congr (fun _ _ _ => Iff.rfl) fun row hsystem => ?_
        rw [hlast id row hsystem, systemPass, hscan]
        exact hmid id row hsystem
      | some scan =>
        have htraced := systemPass_traced ⟨hmatched, hscan⟩ hmidrow heligible
        refine (htraced.mono fun row htrace => ?_).congr hmid fun row => hlast id row
        exact htrace.imp_right And.left
    · by_cases hknown : run.live = true → game.system ∉ run.unmatched
      · exact hstay.congr (fun _ _ _ => Iff.rfl) fun row hsystem =>
          scanned_other hmatched hselected hknown hsystem
      · rw [not_forall, exists_prop, not_not] at hknown
        exact .inr (.unknown hknown.1 hknown.2)
  · exact .inr (.deselected (by simpa using hselected))

/-- The rows that the refresh has seen, under a registry that is not live. -/
theorem scanned_seen (hlive : run.live = false) (hrow : c.row id = some game)
    (heligible : game.isEligible = true) (hprevious : run.current game = false)
    (hcompleted : run.completed game.system = true) (hscan : run.scan game.system = some scan)
    (hseen : ¬ Unseen c scan id game) :
    Traced run c id game (fun row => run.current row = true) (run.scanned c) := by
  simp only [completed, Bool.and_eq_true, decide_eq_true_eq, Option.isNone_iff_eq_none]
    at hcompleted
  obtain ⟨⟨hmatched, -⟩, hstop⟩ := hcompleted
  obtain ⟨mid, hmid, hlast⟩ := exists_mid (c := c) hmatched
  have hmidrow := (hmid id game rfl).mpr hrow
  have hrows := Rows.systemRows_congr hmid
  have hmember : (id, game) ∈ mid.systemRows game.system :=
    (Rows.mem_systemRows ..).mpr ⟨hmidrow, rfl⟩
  have hwritten : ∀ found path, Identified mid game.system scan found path (id, game) →
      Traced run c id game (fun row => run.current row = true) (run.scanned c) := by
    intro found path hid
    refine (systemPass_written ⟨hmatched, hscan⟩ hlive hstop hmidrow heligible hid hprevious).congr
      hmid fun row => hlast id row
  by_cases hcompanion : ∃ path ∈ scan.consumed, game.path = some path
  · obtain ⟨path, hconsumed, hpath⟩ := hcompanion
    exact .inr (.companion ⟨hmatched, hscan⟩ hpath hconsumed)
  · by_cases hfound : ∃ found ∈ scan.games, ∃ path, found.path = some path ∧ game.path = some path
    · obtain ⟨found, hfound, path, hsame, hpath⟩ := hfound
      obtain ⟨r, hr, hcandidate⟩ := @existing_of_mem mid scan _ _ _
        (mem_candidates.mpr ⟨hmember, hpath⟩)
      by_cases heq : r = (id, game)
      · exact hwritten found path ⟨hfound, hsame, heq ▸ hr⟩
      · obtain ⟨hin, hrpath⟩ := mem_candidates.mp hcandidate
        obtain ⟨hrrow, hrsystem⟩ := (Rows.mem_systemRows ..).mp hin
        refine .inr (.duplicate ⟨hmatched, hscan⟩ hfound hpath hsame ?_
          ((hmid r.1 r.2 hrsystem).mp hrrow) hrsystem hrpath)
        rintro rfl
        exact heq (Prod.ext rfl (eq_of_mem_systemRows hmidrow hin))
    · -- what is left is a row that is adopted as that of a directory
      have hlegacy : ∃ found ∈ scan.games, ∃ path, found.path = some path
          ∧ candidates (mid.systemRows game.system) path = []
          ∧ legacyAt (mid.systemRows game.system) scan path = some (id, game) := by
        by_contra hnone
        refine hseen ⟨?_, ?_, ?_⟩
        · exact fun path hin heq => hcompanion ⟨path, hin, heq⟩
        · exact fun found hin path hsame heq => hfound ⟨found, hin, path, hsame, heq⟩
        · intro found hin path hsame hempty heq
          rw [← hrows] at hempty heq
          exact hnone ⟨found, hin, path, hsame, hempty, heq⟩
      obtain ⟨found, hin, path, hsame, hempty, heq⟩ := hlegacy
      refine hwritten found path ⟨hin, hsame, ?_⟩
      rw [existing, hempty, heq]
      rfl

/-- A forgotten row is left alone until the last step. -/
theorem scanned_forgotten (hlive : run.live = false) (hrow : c.row id = some game)
    (h : Forgotten run c id game) : (run.scanned c).row id = some game := by
  have hknown : run.live = true → game.system ∉ run.unmatched := fun hyes => by
    rw [hlive] at hyes
    exact absurd hyes (by simp)
  rcases h.gone with hgone | ⟨hcompleted, scan, hscan, hunseen⟩
  · have hmatched : game.system ∉ run.matched := fun hin => hgone (mem_matched.mp hin).1
    exact (scanned_other hmatched h.selected hknown rfl).mpr hrow
  · simp only [completed, Bool.and_eq_true, decide_eq_true_eq] at hcompleted
    obtain ⟨mid, hmid, hlast⟩ := exists_mid (c := c) hcompleted.1.1
    have hmidrow := (hmid id game rfl).mpr hrow
    have hrows := Rows.systemRows_congr hmid
    rw [hlast id game rfl, systemPass, hscan]
    have hadopted : ∀ row, ¬ Adopted run mid game.system scan (id, row) := by
      rintro row ⟨found, path, old, hid, -⟩
      obtain ⟨hmem, hpath⟩ := existing_eq_some hid.row
      obtain rfl := eq_of_mem_systemRows hmidrow hmem
      rcases hpath with hpath | ⟨hempty, -⟩
      · exact hunseen.found found hid.mem path hid.at_path hpath
      · have hlegacy := hid.row
        rw [existing, hempty] at hlegacy
        rw [hrows] at hempty hlegacy
        exact hunseen.directory found hid.mem path hid.at_path hempty hlegacy
    have huntouched : ∀ op, Needed run mid game.system scan op → ¬ op.Touches id := by
      intro op hop htouch
      cases hop with
      | @prune r hr =>
        obtain rfl := List.mem_singleton.mp htouch
        obtain ⟨hmem, -, path, hin, hpath⟩ := hr
        rw [eq_of_mem_systemRows hmidrow hmem] at hpath
        exact hunseen.companion path hin hpath
      | retire hids =>
        obtain ⟨found, path, r, row, hid, hmem, -⟩ := hids id htouch
        obtain ⟨hin, hpath⟩ := mem_candidates.mp hmem
        rw [eq_of_mem_systemRows hmidrow hin] at hpath
        exact hunseen.found found hid.mem path hid.at_path hpath
      | save hsaved =>
        obtain ⟨⟨j, row⟩, hr, rfl⟩ := List.mem_map.mp htouch
        exact hadopted row (hsaved _ hr).adopted
      | register => exact htouch
      | record h | move h =>
        obtain rfl := htouch
        obtain ⟨row, h⟩ := h
        exact hadopted row h
    have hreject : ∀ e, run.rejectOps e game.system scan = [] := fun e => by
      rw [rejectOps, rejectedIds, if_neg (by simp [hlive])]
      rfl
    dsimp only
    rw [hreject]
    have hbody : (mid.applyAll (cut (run.stop game.system)
        (run.bodyOps mid game.system scan))).row id = some game :=
      Rows.applyAll_induction (P := fun e => e.row id = some game) hmidrow fun e he op hop =>
        row_apply_of_untouched (huntouched op (needed_of_mem (mem_of_mem_cut hop))) he
    cases hstop : run.stop game.system <;> simpa [hstop, cut, Rows.applyAll] using hbody

/-- A forgotten row has nothing against it, under a registry that is not live. -/
theorem no_evidence (hlive : run.live = false) (h : Forgotten run c id game) :
    ¬ Evidence run c id game := by
  have hscanned : ∀ {scan}, run.Scanned game.system scan → Unseen c scan id game := by
    rintro scan ⟨hmatched, hscan⟩
    rcases h.gone with hgone | ⟨-, scan', hscan', hunseen⟩
    · exact absurd (mem_matched.mp hmatched).1 hgone
    · cases hscan.symm.trans hscan'
      exact hunseen
  intro hevidence
  cases hevidence with
  | deselected hnot => exact absurd (h.selected.symm.trans hnot) (by simp)
  | unknown hyes | rejected hyes | replaced hyes => exact absurd (hlive.symm.trans hyes) (by simp)
  | companion hscan hpath hin => exact (hscanned hscan).companion _ hin hpath
  | duplicate hscan hfound hpath hsame =>
    exact (hscanned hscan).found _ hfound _ hsame hpath

end Run

open Run in
/-- **The refresh hides on evidence.**  A refresh hides and deletes visible rows on evidence only,
    if and only if its registry is live, or no visible row of an earlier source is forgotten: one
    of a system that is not at the source, or that was completed without seeing the row. -/
theorem hidden_on_evidence_iff (run : Run) (c : Rows) :
    HiddenOnEvidence run c ↔ run.live = true
      ∨ ∀ id game, c.row id = some game → game.isEligible = true → ¬ Forgotten run c id game := by
  have hrefresh : ∀ id, (run.refresh c).row id = ((run.scanned c).row id).map
      fun g => if run.stale g then { g with isEligible := false } else g :=
    fun id => row_suppress _ _ id
  constructor
  · intro hhidden
    by_contra hnot
    obtain ⟨hlive, hforgotten⟩ := not_or.mp hnot
    rw [Bool.not_eq_true] at hlive
    simp only [not_forall, not_not, exists_prop] at hforgotten
    obtain ⟨id, game, hrow, heligible, hforgotten⟩ := hforgotten
    refine no_evidence hlive hforgotten (hhidden id game hrow heligible ?_)
    rintro ⟨game', hgame', hvisible⟩
    rw [hrefresh, scanned_forgotten hlive hrow hforgotten, Option.map_some] at hgame'
    have hstale : run.stale game = true := by
      rcases hforgotten.gone with hgone | ⟨hcompleted, -⟩
      · simp [stale, hforgotten.previous, hforgotten.selected, hgone]
      · simp [stale, hforgotten.previous, hforgotten.selected, hcompleted]
    rw [if_pos hstale] at hgame'
    cases hgame'
    exact absurd hvisible (by simp)
  · intro hcondition id game hrow heligible hhidden
    have hstale : ∀ row, (run.scanned c).row id = some row → row.isEligible = true →
        run.stale row = true := by
      intro row hrow' hvisible
      by_contra hnot
      refine hhidden ⟨row, ?_, hvisible⟩
      rw [hrefresh, hrow', Option.map_some, if_neg hnot]
    rcases scanned_traced hrow heligible with ⟨row, hrow', hvisible, hsystem, htrace⟩ | hevidence
    · have hswept := hstale row hrow' hvisible
      simp only [stale, Bool.and_eq_true, Bool.not_eq_true', Bool.or_eq_true,
        decide_eq_true_eq] at hswept
      obtain ⟨⟨hprevious, hselected⟩, hgone⟩ := hswept
      obtain rfl : row = game := htrace.resolve_right fun hcurrent =>
        absurd (hprevious.symm.trans hcurrent) (by simp)
      by_cases hlive : run.live = true
      · refine .replaced hlive hprevious (hgone.imp_left fun hcompleted => ?_)
        simp only [completed, Bool.and_eq_true, decide_eq_true_eq] at hcompleted
        obtain ⟨scan, hscan⟩ := Option.isSome_iff_exists.mp hcompleted.1.2
        exact ⟨scan, hcompleted.1.1, hscan⟩
      · have hforgotten := hcondition.resolve_left hlive id row hrow heligible
        rw [Bool.not_eq_true] at hlive
        rcases hgone with hcompleted | hgone
        · obtain ⟨scan, hscan⟩ : ∃ scan, run.scan row.system = some scan := by
            simp only [completed, Bool.and_eq_true] at hcompleted
            exact Option.isSome_iff_exists.mp hcompleted.1.2
          -- a row that was seen is written, and then one of the source
          have hseen : ¬ Unseen c scan id row := fun hunseen =>
            hforgotten ⟨hprevious, hselected, .inr ⟨hcompleted, scan, hscan, hunseen⟩⟩
          rcases scanned_seen hlive hrow heligible hprevious hcompleted hscan hseen with
            ⟨row', hrow'', hvisible', -, hcurrent⟩ | hevidence
          · cases hrow'.symm.trans hrow''
            exact absurd (hprevious.symm.trans hcurrent) (by simp)
          · exact hevidence
        · exact absurd ⟨hprevious, hselected, .inl hgone⟩ hforgotten
    · exact hevidence

/-- A scan that has rejected nothing. -/
def Scan.ofGames (games : List Found) (distinct : (games.filterMap Found.path).Nodup) : Scan where
  games := games
  ineligible := []
  directories := []
  distinct := distinct
  accepted _ _ _ _ := List.not_mem_nil
  rejected _ h := absurd h List.not_mem_nil

/-- A game of an earlier source. -/
def earlierGame : Game where
  system := "nes"
  title := "A"
  sourceProvider := "local"
  sourceRoot := "/old"
  assets := [⟨"a.nes", ["nes", "a.nes"], true⟩]
  addedAt := 0
  lastPlayed := none
  isEligible := true

/-- A refresh from a new source, with the last-known-good registry, that finds nothing. -/
def fallbackRun : Run where
  provider := "sftp"
  sourceRoot := "/new"
  selectedSystems := none
  writesProxies := true
  registry := ⟨["nes"], true⟩
  remoteSystems := ["nes"]
  distinct := List.nodup_singleton _
  scan _ := some (.ofGames [] List.nodup_nil)
  stop _ := none
  names _ found _ := found.title
  canonical _ _ := none

theorem fallbackRegistry_hides :
    ¬ HiddenOnEvidence fallbackRun (Rows.empty.save 0 earlierGame) := by
  intro h
  have hrow : (fallbackRun.refresh (Rows.empty.save 0 earlierGame)).row 0
      = some { earlierGame with isEligible := false } := by decide +kernel
  refine @Run.no_evidence fallbackRun (Rows.empty.save 0 earlierGame) 0 earlierGame rfl ?_
    (h 0 earlierGame rfl rfl ?_)
  · exact ⟨rfl, rfl, .inr ⟨rfl, _, rfl, by simp [Scan.consumed, Scan.ofGames],
      by simp [Scan.ofGames], by simp [Scan.ofGames]⟩⟩
  · rintro ⟨game, hgame, hvisible⟩
    cases hrow.symm.trans hgame
    exact absurd hvisible (by simp)

end RomCloud.Catalog
