import RomCloud.Lib.Fault

namespace RomCloud.Lifecycle

open Lib

/-!
# The update of the runtime

`perform_update`, step by step.  A step is a site, at which an exception may be raised:

* `stageCandidate` — download, verify, unpack and build, all in a temporary directory;
* `activate` — the two renames that put the candidate in the place of the live environment;
* `reconcile` — the installed files are brought up to date, or the previous environment is put back;
* `recordBuild` — `version.json` is written, in place;
* `cleanUp` — the `finally` block, which removes the temporary directory.

`step_first` says of one step that it is passed, or is the first to fail; from it each part has a
lemma (`prepare_passed` to `cleanUp_passed`), and `update_keeps_previous_iff` says where a failed
update leaves the previous runtime in place.
-/

/-- The progress that is announced. -/
inductive UpdateStage
  | resolve
  | download
  | verify
  | stage
  | install
  | reconcile
  | completed
deriving DecidableEq

inductive UpdateSite
  | readBuildInfo
  | announce (progress : UpdateStage)
  | latestCommit
  | makeTempDir
  | downloadFile
  | safeExtractZip
  | findProjectRoot
  | validateCandidate
  | buildCandidate
  | managerStatus
  | stopManager
  | parkPrevious
  | activateCandidate
  | runReconcile
  | restorePrevious
  | prepareVersionDir
  | truncateVersion
  | writeVersion
  | startManager
deriving DecidableEq

/-- `UpdateInstallError`, of a reconciliation that returns a code. -/
inductive UpdateError
  | reconciliationFailed (returncode : Int)

/-- `version.json`: not there, cut off, or whole. -/
inductive VersionFile (ν : Type)
  | missing
  | broken
  | info (build : ν)

/-- The temporary directory: `venv-candidate` and `venv-previous`. -/
structure TempDir (ε : Type) where
  candidate : Option ε
  previous : Option ε

/-- The installation.  An environment is a directory, whatever its path; `removed` remembers what
    was in the temporary directory when it was removed, and `managerWasRunning` is the variable of
    that name. -/
structure Install (ε ν : Type) where
  live : Option ε
  version : VersionFile ν
  temp : Option (TempDir ε)
  removed : Option (TempDir ε)
  managerRunning : Bool
  managerWasRunning : Bool

/-- What an update brings: a new environment, its build information, and the code its reconciliation
    returns. -/
structure UpdateRun (ε ν : Type) where
  candidate : ε
  build : ν
  returncode : Int

variable {ξ ε ν : Type}

abbrev UpdateProg (ξ ε ν α : Type) := Prog UpdateSite ξ UpdateError (Install ε ν) α

/-- A step that changes nothing here. -/
def unchanged (site : UpdateSite) : UpdateProg ξ ε ν Unit := Prog.step site fun s => .ok ((), s)

/-- A step that changes the installation. -/
def change (site : UpdateSite) (act : Install ε ν → Install ε ν) : UpdateProg ξ ε ν Unit :=
  Prog.step site fun s => .ok ((), act s)

/-- `if condition: ...`. -/
def onlyIf (condition : Bool) (m : UpdateProg ξ ε ν Unit) : UpdateProg ξ ε ν Unit :=
  if condition then m else pure ()

/-- Up to the temporary directory. -/
def prepare : UpdateProg ξ ε ν Unit := do
  unchanged .readBuildInfo
  unchanged (.announce .resolve)
  unchanged .latestCommit
  change .makeTempDir fun s => { s with temp := some ⟨none, none⟩ }

/-- Everything that happens below the temporary directory. -/
def stageCandidate (run : UpdateRun ε ν) : UpdateProg ξ ε ν Unit := do
  unchanged (.announce .download)
  unchanged .downloadFile
  unchanged (.announce .verify)
  unchanged .safeExtractZip
  unchanged .findProjectRoot
  unchanged .validateCandidate
  unchanged (.announce .stage)
  change .buildCandidate fun s => { s with temp := some ⟨some run.candidate, none⟩ }

/-- `manager_was_running = ...; if manager_was_running: stop_manager(...)`. -/
def quiesceManager : UpdateProg ξ ε ν Unit := do
  change .managerStatus fun s => { s with managerWasRunning := s.managerRunning }
  let wasRunning ← Prog.silent fun s => (s.managerWasRunning, s)
  onlyIf wasRunning (change .stopManager fun s => { s with managerRunning := false })

/-- `live_venv_dir.rename(backup_venv_dir)`. -/
def Install.parkPrevious (s : Install ε ν) : Install ε ν :=
  { s with live := none, temp := s.temp.map fun d => { d with previous := s.live } }

/-- `candidate_dir.rename(live_venv_dir)`. -/
def Install.activateCandidate (s : Install ε ν) : Install ε ν :=
  { s with
    live := s.temp.bind TempDir.candidate
    temp := s.temp.map fun d => { d with candidate := none } }

/-- `backup_venv_dir.rename(live_venv_dir)`. -/
def Install.restorePrevious (s : Install ε ν) : Install ε ν :=
  { s with
    live := s.temp.bind TempDir.previous
    temp := s.temp.map fun d => { d with previous := none } }

/-- The two renames.  The result is `had_previous_venv`. -/
def activate : UpdateProg ξ ε ν Bool := do
  let hadPrevious ← Prog.silent fun s => (s.live.isSome, s)
  unchanged (.announce .install)
  onlyIf hadPrevious (change .parkPrevious Install.parkPrevious)
  change .activateCandidate Install.activateCandidate
  pure hadPrevious

/-- The reconciliation, with the rollback of the activation. -/
def reconcile (run : UpdateRun ε ν) (hadPrevious : Bool) : UpdateProg ξ ε ν Unit :=
  Prog.tryCatch
    (do
      unchanged (.announce .reconcile)
      Prog.step .runReconcile fun s =>
        if run.returncode = 0 then .ok ((), s)
        else .error (.reconciliationFailed run.returncode))
    fun e => do
      Prog.silent fun s => ((), { s with live := none })
      onlyIf hadPrevious (change .restorePrevious Install.restorePrevious)
      Prog.throw e

/-- `write_build_info` and the last announcement.  The file is opened for writing, which empties
    it, and then written. -/
def recordBuild (run : UpdateRun ε ν) : UpdateProg ξ ε ν Unit := do
  unchanged .prepareVersionDir
  change .truncateVersion fun s => { s with version := .broken }
  change .writeVersion fun s => { s with version := .info run.build }
  unchanged (.announce .completed)

/-- The `finally` block. -/
def cleanUp : UpdateProg ξ ε ν Unit := do
  Prog.silent fun s => ((), { s with temp := none, removed := s.temp })
  let wasRunning ← Prog.silent fun s => (s.managerWasRunning, s)
  onlyIf wasRunning (change .startManager fun s => { s with managerRunning := true })

/-- `perform_update`. -/
def performUpdate (run : UpdateRun ε ν) : UpdateProg ξ ε ν Unit := do
  prepare
  Prog.tryFinally
    (do
      stageCandidate run
      quiesceManager
      let hadPrevious ← activate
      reconcile run hadPrevious
      recordBuild run)
    cleanUp

/-! ### Where an update fails first -/

/-- What an update meets: what it brings, what is installed, and which of its steps raise.  The
    candidate is a directory of its own, and the rollback itself does not fail. -/
structure Situation (ξ ε ν : Type) where
  run : UpdateRun ε ν
  live : Option ε
  version : VersionFile ν
  managerRunning : Bool
  fails : UpdateSite → Option ξ
  fresh : live ≠ some run.candidate
  rollback : fails .restorePrevious = none

namespace Situation

variable (c : Situation ξ ε ν)

/-- Every step that raises does so whenever it is come to. -/
def env : Env UpdateSite ξ := fun _ site => (c.fails site).map .raise

/-- The installation before the update. -/
def start : Install ε ν := ⟨c.live, c.version, none, none, c.managerRunning, false⟩

/-- How the update ends, and what is installed then. -/
def result : Outcome (Exn ξ UpdateError) Unit × Install ε ν :=
  (performUpdate c.run).run c.env c.start

/-- When the update raises, the live environment is the one that was there before, `version.json` is
    unchanged, and the previous environment was not in the temporary directory when that was
    removed. -/
def PreviousKept : Prop :=
  ∀ e, c.result.1 = .raised e →
    c.result.2.live = c.live ∧ c.result.2.version = c.version ∧
      ∀ d ∈ c.result.2.removed, c.live = none ∨ d.previous ≠ c.live

/-- The steps in their order. -/
def steps : List UpdateSite :=
  [.readBuildInfo, .announce .resolve, .latestCommit, .makeTempDir, .announce .download,
    .downloadFile, .announce .verify, .safeExtractZip, .findProjectRoot, .validateCandidate,
    .announce .stage, .buildCandidate, .managerStatus, .stopManager, .announce .install,
    .parkPrevious, .activateCandidate, .announce .reconcile, .runReconcile, .prepareVersionDir,
    .truncateVersion, .writeVersion, .announce .completed, .startManager]

/-- Whether a step ends the update, once it is come to. -/
def stops : UpdateSite → Bool
  | .stopManager => c.managerRunning && (c.fails .stopManager).isSome
  | .startManager => c.managerRunning && (c.fails .startManager).isSome
  | .parkPrevious => c.live.isSome && (c.fails .parkPrevious).isSome
  | .runReconcile => (c.fails .runReconcile).isSome || decide (c.run.returncode ≠ 0)
  | site => (c.fails site).isSome

/-- The first step that raises. -/
def firstFailure : Option UpdateSite := steps.find? c.stops

/-- The steps no handler covers: the second rename, when an environment has been moved away by the
    first, and everything after the reconciliation. -/
def uncovered : UpdateSite → Bool
  | .activateCandidate => c.live.isSome
  | .prepareVersionDir | .truncateVersion | .writeVersion | .announce .completed
  | .startManager => true
  | _ => false

/-- The steps of `done` were passed. -/
def Passed (done : List UpdateSite) : Prop := ∀ site ∈ done, c.stops site = false

theorem firstFailure_of_passed {done rest : List UpdateSite} {site : UpdateSite}
    (hsteps : steps = done ++ site :: rest) (hdone : c.Passed done)
    (hstops : c.stops site = true) : c.firstFailure = some site := by
  rw [firstFailure, List.find?_eq_some_iff_append]
  exact ⟨hstops, done, rest, hsteps, fun x hx => by simp [hdone x hx]⟩

variable {c}

theorem Passed.concat {done : List UpdateSite} {site : UpdateSite} (hdone : c.Passed done)
    (hsite : c.stops site = false) : c.Passed (done ++ [site]) := by
  intro x hx
  rcases List.mem_append.mp hx with hx | hx
  · exact hdone x hx
  · rw [List.mem_singleton.mp hx]
    exact hsite

/-! ### What is installed after each step -/

/-- What is installed while the candidate is staged. -/
structure Staging (c : Situation ξ ε ν) (candidate : Option ε) (s : Install ε ν) : Prop where
  live : s.live = c.live
  version : s.version = c.version
  temp : s.temp = some ⟨candidate, none⟩
  manager : s.managerRunning = c.managerRunning

/-- What is installed from the stop of the manager on. -/
structure Activating (c : Situation ξ ε ν) (live : Option ε) (version : VersionFile ν)
    (temp : TempDir ε) (s : Install ε ν) : Prop where
  live : s.live = live
  version : s.version = version
  temp : s.temp = some temp
  manager : s.managerWasRunning = c.managerRunning

/-- The previous runtime is in place, and not in a directory that is or has been removed. -/
structure Intact (c : Situation ξ ε ν) (d : Option (TempDir ε)) (s : Install ε ν) : Prop where
  live : s.live = c.live
  version : s.version = c.version
  previous : ∀ x ∈ d, c.live = none ∨ x.previous ≠ c.live

/-- What a failed update leaves, by the step that failed first. -/
def Left (c : Situation ξ ε ν) (d : Install ε ν → Option (TempDir ε)) (s : Install ε ν) : Prop :=
  ∃ site, c.firstFailure = some site ∧
    if c.uncovered site then s.live ≠ c.live else c.Intact (d s) s

theorem intact_of_previous {d : Option (TempDir ε)} {s : Install ε ν} (hlive : s.live = c.live)
    (hversion : s.version = c.version) (hd : ∀ x ∈ d, x.previous = none) : c.Intact d s := by
  refine ⟨hlive, hversion, ?_⟩
  intro x hx
  rw [hd x hx]
  cases c.live with
  | none => exact .inl rfl
  | some e => exact .inr (by simp)

/-- One step, which is passed or is the first to fail. -/
theorem step_first {α : Type} {done rest : List UpdateSite} {site : UpdateSite}
    {P E : Install ε ν → Prop} {Q : α → Install ε ν → Prop}
    {act : Install ε ν → Except UpdateError (α × Install ε ν)}
    (hsteps : steps = done ++ site :: rest)
    (hraise : (c.fails site).isSome = true → c.stops site = true)
    (hact : c.fails site = none → ∀ s, P s →
      match act s with
      | .ok (a, t) => c.stops site = false ∧ Q a t
      | .error _ => c.stops site = true)
    (hfail : c.firstFailure = some site → ∀ s, P s → E s) :
    Triple c.env (fun s => c.Passed done ∧ P s) (Prog.step site act)
      (fun a s => c.Passed (done ++ [site]) ∧ Q a s) (fun _ s => E s) (fun _ => False) := by
  intro n s hs
  have henv : c.env n site = (c.fails site).map .raise := rfl
  have hstop : c.stops site = true → E s := fun hstops =>
    hfail (c.firstFailure_of_passed hsteps hs.1 hstops) s hs.2
  unfold Prog.step
  rw [henv]
  cases hfails : c.fails site with
  | some x => exact hstop (hraise (by rw [hfails]; rfl))
  | none =>
    have h := hact hfails s hs.2
    revert h
    simp only [Option.map_none]
    cases act s with
    | ok r => exact fun h => ⟨hs.1.concat h.1, h.2⟩
    | error w => exact fun h => hstop h

/-- A step that changes the installation and raises nothing of its own. -/
theorem change_first {done rest : List UpdateSite} {site : UpdateSite}
    {P Q E : Install ε ν → Prop} {act : Install ε ν → Install ε ν}
    (hsteps : steps = done ++ site :: rest) (hstops : c.stops site = (c.fails site).isSome)
    (hact : ∀ s, P s → Q (act s)) (hfail : c.firstFailure = some site → ∀ s, P s → E s) :
    Triple c.env (fun s => c.Passed done ∧ P s) (change site act)
      (fun _ s => c.Passed (done ++ [site]) ∧ Q s) (fun _ s => E s) (fun _ => False) := by
  refine step_first hsteps (fun h => hstops.trans h) (fun hfails s hs => ⟨?_, hact s hs⟩) hfail
  rw [hstops, hfails]
  rfl

/-- A step that is performed while the previous runtime is in place. -/
theorem change_passed {done rest : List UpdateSite} {site : UpdateSite}
    {d : Install ε ν → Option (TempDir ε)} {P Q : Install ε ν → Prop}
    {act : Install ε ν → Install ε ν}
    (hsteps : steps = done ++ site :: rest) (hstops : c.stops site = (c.fails site).isSome)
    (hcovered : c.uncovered site = false) (hleft : ∀ s, P s → c.Intact (d s) s)
    (hact : ∀ s, P s → Q (act s)) :
    Triple c.env (fun s => c.Passed done ∧ P s) (change site act)
      (fun _ s => c.Passed (done ++ [site]) ∧ Q s) (fun _ s => c.Left d s) (fun _ => False) := by
  refine change_first hsteps hstops hact fun hfirst s hs => ⟨site, hfirst, ?_⟩
  rw [hcovered]
  exact hleft s hs

theorem unchanged_passed {done rest : List UpdateSite} {site : UpdateSite}
    {d : Install ε ν → Option (TempDir ε)} {P : Install ε ν → Prop}
    (hsteps : steps = done ++ site :: rest) (hstops : c.stops site = (c.fails site).isSome)
    (hcovered : c.uncovered site = false) (hleft : ∀ s, P s → c.Intact (d s) s) :
    Triple c.env (fun s => c.Passed done ∧ P s) (unchanged site)
      (fun _ s => c.Passed (done ++ [site]) ∧ P s) (fun _ s => c.Left d s) (fun _ => False) :=
  change_passed hsteps hstops hcovered hleft fun _ hs => hs

/-- A step that is only come to on a condition. -/
theorem onlyIf_passed {done rest : List UpdateSite} {site : UpdateSite} {condition : Bool}
    {d : Install ε ν → Option (TempDir ε)} {P Q : Install ε ν → Prop}
    {act : Install ε ν → Install ε ν} (hsteps : steps = done ++ site :: rest)
    (hstops : c.stops site = (condition && (c.fails site).isSome))
    (hcovered : c.uncovered site = false) (hleft : ∀ s, P s → c.Intact (d s) s)
    (hact : ∀ s, P s → Q (if condition then act s else s)) :
    Triple c.env (fun s => c.Passed done ∧ P s) (onlyIf condition (change site act))
      (fun _ s => c.Passed (done ++ [site]) ∧ Q s) (fun _ s => c.Left d s) (fun _ => False) := by
  cases condition with
  | false => exact Triple.pure () fun s hs => ⟨hs.1.concat hstops, hact s hs.2⟩
  | true => exact change_passed hsteps hstops hcovered hleft hact

theorem Staging.intact {candidate : Option ε} {s : Install ε ν} (h : c.Staging candidate s) :
    c.Intact s.temp s := intact_of_previous h.live h.version (by simp [h.temp])

theorem prepare_passed :
    Triple c.env (fun s => s = c.start) prepare
      (fun _ s => c.Passed (steps.take 4) ∧ c.Staging none s)
      (fun _ s => c.Left Install.removed s) (fun _ => False) := by
  have hleft : ∀ s, s = c.start → c.Intact s.removed s := by
    rintro s rfl
    exact intact_of_previous rfl rfl (by simp [start])
  refine (Triple.bind (unchanged_passed rfl rfl rfl hleft) fun _ =>
    Triple.bind (unchanged_passed rfl rfl rfl hleft) fun _ =>
    Triple.bind (unchanged_passed rfl rfl rfl hleft) fun _ =>
    change_passed (Q := c.Staging none) rfl rfl rfl hleft ?_).pre fun s hs =>
      ⟨(by simp [Passed] : c.Passed []), hs⟩
  rintro s rfl
  exact ⟨rfl, rfl, rfl, rfl⟩

/-- Nothing below the temporary directory touches the runtime. -/
theorem stageCandidate_passed :
    Triple c.env (fun s => c.Passed (steps.take 4) ∧ c.Staging none s) (stageCandidate c.run)
      (fun _ s => c.Passed (steps.take 12) ∧ c.Staging (some c.run.candidate) s)
      (fun _ s => c.Left Install.temp s) (fun _ => False) := by
  have hleft : ∀ s, c.Staging none s → c.Intact s.temp s := fun _ h => h.intact
  refine Triple.bind (unchanged_passed rfl rfl rfl hleft) fun _ =>
    Triple.bind (unchanged_passed rfl rfl rfl hleft) fun _ =>
    Triple.bind (unchanged_passed rfl rfl rfl hleft) fun _ =>
    Triple.bind (unchanged_passed rfl rfl rfl hleft) fun _ =>
    Triple.bind (unchanged_passed rfl rfl rfl hleft) fun _ =>
    Triple.bind (unchanged_passed rfl rfl rfl hleft) fun _ =>
    Triple.bind (unchanged_passed rfl rfl rfl hleft) fun _ =>
    change_passed rfl rfl rfl hleft ?_
  exact fun s h => ⟨h.live, h.version, rfl, h.manager⟩

theorem quiesceManager_passed :
    Triple c.env
      (fun s => c.Passed (steps.take 12) ∧ c.Staging (some c.run.candidate) s) quiesceManager
      (fun _ s => c.Passed (steps.take 14)
        ∧ c.Activating c.live c.version ⟨some c.run.candidate, none⟩ s)
      (fun _ s => c.Left Install.temp s) (fun _ => False) := by
  refine Triple.bind (change_passed (Q := c.Activating c.live c.version
    ⟨some c.run.candidate, none⟩) rfl rfl rfl (fun s h => h.intact) fun s h => ?_) fun _ => ?_
  · exact ⟨h.live, h.version, h.temp, h.manager⟩
  refine Triple.cut (fun was s => was = c.managerRunning ∧ c.Passed (steps.take 13)
    ∧ c.Activating c.live c.version ⟨some c.run.candidate, none⟩ s)
    (Triple.silent fun s hs => ⟨hs.2.manager, hs⟩) fun was => Triple.assume fun hwas => ?_
  refine onlyIf_passed rfl (by rw [hwas]; rfl) rfl
    (fun s h => intact_of_previous h.live h.version (by simp [h.temp])) fun s h => ?_
  split
  · exact ⟨h.live, h.version, h.temp, h.manager⟩
  · exact h

/-- The renames.  Where the second one fails, the environment that was moved away is in the
    temporary directory. -/
theorem activate_passed :
    Triple c.env
      (fun s => c.Passed (steps.take 14)
        ∧ c.Activating c.live c.version ⟨some c.run.candidate, none⟩ s)
      activate
      (fun hadPrevious s => hadPrevious = c.live.isSome ∧ c.Passed (steps.take 17)
        ∧ c.Activating (some c.run.candidate) c.version ⟨none, c.live⟩ s)
      (fun _ s => c.Left Install.temp s) (fun _ => False) := by
  have hleft : ∀ s, c.Activating c.live c.version ⟨some c.run.candidate, none⟩ s →
      c.Intact s.temp s := fun s h => intact_of_previous h.live h.version (by simp [h.temp])
  refine Triple.cut (fun had s => had = c.live.isSome ∧ c.Passed (steps.take 14)
    ∧ c.Activating c.live c.version ⟨some c.run.candidate, none⟩ s)
    (Triple.silent fun s hs => ⟨congrArg Option.isSome hs.2.live, hs⟩)
    fun had => Triple.assume fun hhad => ?_
  refine Triple.bind (unchanged_passed rfl rfl rfl hleft) fun _ => ?_
  refine Triple.bind (onlyIf_passed (Q := c.Activating none c.version
    ⟨some c.run.candidate, c.live⟩) rfl (by rw [hhad]; rfl) rfl hleft fun s h => ?_) fun _ => ?_
  · cases hlive : c.live with
    | none =>
      rw [hlive] at h hhad
      rw [hhad]
      exact h
    | some e =>
      rw [hlive] at h hhad
      rw [hhad]
      exact ⟨rfl, h.version, by simp [Install.parkPrevious, h.live, h.temp], h.manager⟩
  refine Triple.bind (change_first (Q := c.Activating (some c.run.candidate) c.version
    ⟨none, c.live⟩) rfl rfl (fun s h => ?_) fun hfirst s h => ⟨_, hfirst, ?_⟩) fun _ => ?_
  · exact ⟨by simp [Install.activateCandidate, h.temp], h.version,
      by simp [Install.activateCandidate, h.temp], h.manager⟩
  · cases hlive : c.live with
    | none =>
      simp only [uncovered, hlive, Option.isSome_none, Bool.false_eq_true, if_false]
      exact intact_of_previous (h.live.trans hlive.symm) h.version (by simp [h.temp, hlive])
    | some e => simp [uncovered, hlive, h.live]
  · exact Triple.pure _ fun s hs => ⟨hhad, hs⟩

/-- The previous environment is put back when the reconciliation fails. -/
theorem reconcile_passed :
    Triple c.env
      (fun s => c.Passed (steps.take 17)
        ∧ c.Activating (some c.run.candidate) c.version ⟨none, c.live⟩ s)
      (reconcile c.run c.live.isSome)
      (fun _ s => c.Passed (steps.take 19)
        ∧ c.Activating (some c.run.candidate) c.version ⟨none, c.live⟩ s)
      (fun _ s => c.Left Install.temp s) (fun _ => False) := by
  refine Triple.tryCatchWith (fun _ s =>
    (∃ site, c.firstFailure = some site ∧ c.uncovered site = false)
      ∧ c.Activating (some c.run.candidate) c.version ⟨none, c.live⟩ s) ?_ fun e => ?_
  · refine Triple.bind (change_first rfl rfl (fun s h => h) fun hfirst s h => ⟨⟨_, hfirst, rfl⟩, h⟩)
      fun _ => ?_
    refine step_first rfl (fun h => by simp [stops, h]) (fun hfails s h => ?_)
      fun hfirst s h => ⟨⟨_, hfirst, rfl⟩, h⟩
    by_cases hcode : c.run.returncode = 0
    · simpa [hcode, stops, hfails] using h
    · simp [hcode, stops]
  · refine Triple.assume fun hfirst => ?_
    obtain ⟨site, hfirst, hcovered⟩ := hfirst
    refine Triple.cut (fun _ => c.Activating none c.version ⟨none, c.live⟩)
      (Triple.silent fun s h => ⟨rfl, h.version, h.temp, h.manager⟩) fun _ => ?_
    refine Triple.cut (fun _ s => c.Intact s.temp s) ?_ fun _ => Triple.throw e fun s h => ?_
    · cases hlive : c.live with
      | none =>
        exact Triple.pure () fun s h =>
          intact_of_previous (h.live.trans hlive.symm) h.version (by simp [h.temp])
      | some x =>
        have henv : ∀ n, c.env n .restorePrevious = none := fun n => by
          show (c.fails .restorePrevious).map Fault.raise = none
          rw [c.rollback]
          rfl
        show Triple c.env _ (change .restorePrevious Install.restorePrevious) _ _ _
        refine Triple.step (fun s _ hcrash => ?_) (fun s x _ hraise => ?_) fun s h => ?_
        · obtain ⟨n, hn⟩ := hcrash
          exact absurd (hn.symm.trans (henv n)) (by simp)
        · obtain ⟨n, hn⟩ := hraise
          exact absurd (hn.symm.trans (henv n)) (by simp)
        · exact intact_of_previous (by simp [Install.restorePrevious, h.temp, hlive]) h.version
            (by simp [Install.restorePrevious, h.temp])
    · refine ⟨site, hfirst, ?_⟩
      rw [hcovered]
      exact h

/-- The new environment is live, and no handler is left. -/
structure Activated (c : Situation ξ ε ν) (s : Install ε ν) : Prop where
  live : s.live = some c.run.candidate
  manager : s.managerWasRunning = c.managerRunning

theorem Activated.left {d : Install ε ν → Option (TempDir ε)} {site : UpdateSite}
    {s : Install ε ν} (h : c.Activated s) (hfirst : c.firstFailure = some site)
    (huncovered : c.uncovered site = true) : c.Left d s := by
  refine ⟨site, hfirst, ?_⟩
  rw [if_pos huncovered, h.live]
  exact c.fresh.symm

theorem recordBuild_passed :
    Triple c.env (fun s => c.Passed (steps.take 19) ∧ c.Activated s) (recordBuild c.run)
      (fun _ s => c.Passed (steps.take 23) ∧ c.Activated s)
      (fun _ s => c.Left Install.temp s) (fun _ => False) :=
  Triple.bind (change_first rfl rfl (fun _ h => h) fun hfirst _ h => h.left hfirst rfl) fun _ =>
    Triple.bind (change_first (Q := c.Activated) rfl rfl (fun _ h => ⟨h.live, h.manager⟩)
      fun hfirst _ h => h.left hfirst rfl) fun _ =>
    Triple.bind (change_first (Q := c.Activated) rfl rfl (fun _ h => ⟨h.live, h.manager⟩)
      fun hfirst _ h => h.left hfirst rfl) fun _ =>
    change_first rfl rfl (fun _ h => h) fun hfirst _ h => h.left hfirst rfl

/-- The `finally` block after a failure. -/
theorem cleanUp_left :
    Triple c.env (fun s => c.Left Install.temp s) cleanUp (fun _ s => c.Left Install.removed s)
      (fun _ s => c.Left Install.removed s) (fun _ => False) := by
  have hkeep : ∀ {s t : Install ε ν}, c.Left Install.removed s → t.live = s.live →
      t.version = s.version → t.removed = s.removed → c.Left Install.removed t := by
    rintro s t ⟨site, hfirst, h⟩ hlive hversion hremoved
    refine ⟨site, hfirst, ?_⟩
    split at h
    · rwa [if_pos (by assumption), hlive]
    · rw [if_neg (by assumption)]
      exact ⟨hlive.trans h.live, hversion.trans h.version, by rw [hremoved]; exact h.previous⟩
  refine Triple.cut (fun _ s => c.Left Install.removed s) (Triple.silent fun s h => ?_) fun _ => ?_
  · obtain ⟨site, hfirst, h⟩ := h
    refine ⟨site, hfirst, ?_⟩
    split at h
    · rwa [if_pos (by assumption)]
    · rw [if_neg (by assumption)]
      exact ⟨h.live, h.version, h.previous⟩
  · refine Triple.cut (fun _ s => c.Left Install.removed s) (Triple.look fun s => rfl) fun was => ?_
    cases was with
    | false => exact Triple.pure () fun _ h => h
    | true =>
      show Triple c.env _ (change .startManager _) _ _ _
      refine Triple.step (fun s _ hcrash => ?_) (fun s x h _ => h) fun s h => ?_
      · obtain ⟨n, hn⟩ := hcrash
        revert hn
        show (c.fails .startManager).map Fault.raise = some .crash → False
        cases c.fails .startManager <;> simp
      · exact hkeep h rfl rfl rfl

/-- The `finally` block after a success. -/
theorem cleanUp_passed :
    Triple c.env (fun s => c.Passed (steps.take 23) ∧ c.Activated s) cleanUp
      (fun _ s => c.Passed steps ∧ c.Activated s) (fun _ s => c.Left Install.removed s)
      (fun _ => False) := by
  refine Triple.cut (fun _ s => c.Passed (steps.take 23) ∧ c.Activated s)
    (Triple.silent fun s h => ⟨h.1, h.2.live, h.2.manager⟩) fun _ => ?_
  refine Triple.cut (fun was s => was = c.managerRunning ∧ c.Passed (steps.take 23)
    ∧ c.Activated s) (Triple.silent fun s h => ⟨h.2.manager, h⟩) fun was =>
      Triple.assume fun hwas => ?_
  cases hrunning : c.managerRunning with
  | false =>
    rw [hrunning] at hwas
    rw [hwas]
    exact Triple.pure () fun s h => ⟨h.1.concat (by simp [stops, hrunning]), h.2⟩
  | true =>
    rw [hrunning] at hwas
    rw [hwas]
    exact change_first rfl (by simp [stops, hrunning]) (fun _ h => ⟨h.live, h.manager⟩)
      fun hfirst _ h => h.left hfirst rfl

/-- **The whole update.**  It passes every step, or ends as its first failure says. -/
theorem performUpdate_passed :
    Triple c.env (fun s => s = c.start) (performUpdate c.run) (fun _ _ => c.Passed steps)
      (fun _ s => c.Left Install.removed s) (fun _ => False) := by
  refine Triple.bind prepare_passed fun _ => ?_
  refine Triple.tryFinallyWith (fun _ s => c.Passed (steps.take 23) ∧ c.Activated s)
    (fun _ s => c.Left Install.temp s) ?_ ?_ ?_
  · refine Triple.bind stageCandidate_passed fun _ => ?_
    refine Triple.bind quiesceManager_passed fun _ => ?_
    refine Triple.bind activate_passed fun had => Triple.assume fun hhad => ?_
    rw [hhad]
    refine Triple.bind reconcile_passed fun _ => ?_
    exact recordBuild_passed.pre fun s h => ⟨h.1, h.2.live, h.2.manager⟩
  · exact fun _ => cleanUp_passed.post fun _ _ h => h.1
  · exact fun _ => cleanUp_left

end Situation

/-- **A failed update.**  It leaves the previous runtime in place exactly if the first step that
    raises is covered: it is not the second rename of an activation that has moved an environment
    away, and it does not come after the reconciliation. -/
theorem update_keeps_previous_iff (c : Situation ξ ε ν) :
    c.PreviousKept ↔ ∀ site, c.firstFailure = some site → c.uncovered site = false := by
  have hmeets := Situation.performUpdate_passed (c := c) |>.run rfl
  change c.result.1.Meets _ _ _ c.result.2 at hmeets
  unfold Situation.PreviousKept
  revert hmeets
  generalize c.result = r
  obtain ⟨outcome, s⟩ := r
  cases outcome with
  | done =>
    intro hpassed
    refine iff_of_true (fun e he => absurd he (by simp)) fun site hsite => ?_
    have := List.find?_some hsite
    rw [hpassed site (List.mem_of_find?_eq_some hsite)] at this
    exact absurd this (by simp)
  | raised e =>
    rintro ⟨site, hfirst, hleft⟩
    constructor
    · intro hkept x hx
      obtain rfl : site = x := Option.some.inj (hfirst.symm.trans hx)
      by_contra huncovered
      rw [if_pos (by simpa using huncovered)] at hleft
      exact hleft (hkept e rfl).1
    · intro hcovered _ _
      rw [hcovered site hfirst] at hleft
      exact ⟨hleft.live, hleft.version, hleft.previous⟩
  | crashed => exact fun h => h.elim

/-- The candidate cannot be moved to the place of the live environment. -/
def failedRename : Situation Unit ℕ ℕ where
  run := ⟨2, 20, 0⟩
  live := some 1
  version := .info 10
  managerRunning := true
  fails site := if site = .activateCandidate then some () else none
  fresh := by decide
  rollback := rfl

/-- The only copy of the environment is in the temporary directory when that is removed. -/
theorem failedRename_loses_previous :
    ¬ failedRename.PreviousKept ∧ failedRename.result.2.live = none ∧
      failedRename.result.2.removed = some ⟨some 2, some 1⟩ :=
  ⟨fun h => absurd (h (.external ()) rfl).1 (by decide), rfl, rfl⟩

end RomCloud.Lifecycle
