import RomCloud.Lib.Fault
import RomCloud.Lib.FileTree
import RomCloud.SaveSync.Manifest
import Mathlib.Logic.Function.Basic

namespace RomCloud.SaveSync.Transaction

open RomCloud.Lib

/-!
# Selected-content transactions

The journaled replacement of save files (`infrastructure/save_transaction.py`), as programs
whose every file operation may raise or never happen.  A transaction covers several **views**,
each a destination root with the manifests of what stands there and of what shall stand there.

Beside each root lie the trees the transaction owns: the **stage** (the new content), the
**candidate** (a copy of the old content) and **previous** (the last completed candidate).

* `prepareTransaction` — stage and copy everything, and write the journal;
* `applyTransaction` — promote the staged files, roll back on any failure;
* `rollback`, `finalize`, `recoverTransaction` — the ways a transaction ends.

A file's content is its size and digest, the two things the code ever compares.  What is not
modelled of the file system: links in the roots' own ancestors, permissions, and diagnostics.
-/

abbrev OperationId := String

/-- An absolute, normalized destination root. -/
abbrev Root := String

/-- The content of a file, as far as the code looks at it. -/
structure Content where
  sizeBytes : ℕ
  contentHash : String
deriving DecidableEq

abbrev Tree := FileTree Content

/-- The content a file has while it is being written. -/
def partialContent : Content := ⟨0, ""⟩

/-! ### The data of a transaction -/

/-- One physical destination participating in a logical transaction. -/
structure SelectedView where
  root : Root
  current : Manifest
  desired : Manifest
  /-- What `source_for` points at holds, when it is a file. -/
  sourceFor : Path → SaveArtifact → Option Content

/-- A view as the journal records it. -/
structure JournalView where
  root : Root
  current : Manifest
  desired : Manifest
deriving DecidableEq

/-- A prepared view: only changed paths in `current` and `desired`. -/
structure PreparedView extends JournalView where
  verificationCurrent : Manifest
  verificationDesired : Manifest

inductive Phase
  | preparing
  | prepared
  | applying
  | promoted
deriving DecidableEq

structure JournalRecord where
  operationId : OperationId
  phase : Phase
  views : List JournalView
deriving DecidableEq

/-- The journal file: missing, half written, or a record. -/
inductive JournalFile
  | absent
  | torn
  | written (record : JournalRecord)
deriving DecidableEq

structure SelectedTransaction where
  operationId : OperationId
  views : List PreparedView

/-- The views of a transaction as its journal records them. -/
def SelectedTransaction.journalViews (t : SelectedTransaction) : List JournalView :=
  t.views.map PreparedView.toJournalView

/-! ### The state -/

/-- The trees a transaction owns beside a root. -/
inductive Owned
  | stage
  | candidate
  | previous
deriving DecidableEq

/-- The file system at one root: the live tree, the owned trees (when their directory exists),
    and the temporaries of a restoration, by the path they are for. -/
structure Area where
  live : Tree
  stage : Option Tree
  candidate : Option Tree
  previous : Option Tree
  restoreTmp : Dict Path Content

def Area.owned (area : Area) : Owned → Option Tree
  | .stage => area.stage
  | .candidate => area.candidate
  | .previous => area.previous

def Area.setOwned (area : Area) (tree : Option Tree) : Owned → Area
  | .stage => { area with stage := tree }
  | .candidate => { area with candidate := tree }
  | .previous => { area with previous := tree }

/-- What only the process knows: `_live_touched` and `_finished` of the transaction object, and
    the variables of `prepare_transaction` its handler reads. -/
structure Memory where
  liveTouched : Bool
  finished : Bool
  journalCreated : Bool
  createdOwned : List (Root × Owned)

structure TxState where
  fs : Root → Area
  journal : JournalFile
  memory : Memory

/-- An exception from outside: an operating-system error, or an interruption of the process
    that is no `Exception`. -/
inductive Interruption
  | osError
  | interrupt
deriving DecidableEq

/-- The exceptions the transaction code raises itself. -/
inductive TxError
  | invalidOperationId
  | noViews
  | noChangedPaths
  | overlappingRoots
  | unsafePath
  | invalidArtifact
  | ownedPathExists
  | journalExists
  | journalChanged
  | journalInvalid
  | parentNotDirectory
  | verificationFailed
  | destinationChanged
  | thirdVersion
  | cannotRollBack
  | rollbackIncomplete
  | rollbackVerificationFailed
  | snapshotMismatch
  | cleanupFailed
  /-- A file operation fails with an `OSError` of its own accord. -/
  | fileError
deriving DecidableEq

/-- Where in the code a step is. -/
inductive TxSite
  | prepare
  | abortPrepare
  | apply
  | restore
  | probe
  | cleanup
  | finalize
  | recover
deriving DecidableEq

/-- Programs of a whole transaction. -/
abbrev Tx (α : Type) := Prog TxSite Interruption TxError TxState α

/-- What the work on one view can touch: the area at its root, and the process's memory. -/
structure Local where
  area : Area
  memory : Memory

/-- Programs that work on one view. -/
abbrev Lx (α : Type) := Prog TxSite Interruption TxError Local α

def TxState.toLocal (s : TxState) (root : Root) : Local := ⟨s.fs root, s.memory⟩

/-- The state after work on the view at a root. -/
def TxState.setLocal (s : TxState) (root : Root) (l : Local) : TxState :=
  ⟨Function.update s.fs root l.area, s.journal, l.memory⟩

/-- Work on the view at a root. -/
def atView {α : Type} (root : Root) (m : Lx α) : Tx α :=
  Prog.zoom id (fun s => s.toLocal root) (fun l s => s.setLocal root l) m

/-- One step on the area of a view. -/
def onArea {α : Type} (site : TxSite) (act : Area → Except TxError (α × Area)) : Lx α :=
  Prog.step site (fun l =>
    match act l.area with
    | .ok (a, area) => .ok (a, { l with area := area })
    | .error w => .error w)

/-- One step that only checks the area of a view. -/
def check (site : TxSite) (verdict : Area → Except TxError Unit) : Lx Unit :=
  onArea site (fun area => (verdict area).map (fun _ => ((), area)))

/-- `_live_touched = True`. -/
def touchLive : Lx Unit :=
  Prog.silent (fun l => ((), { l with memory := { l.memory with liveTouched := true } }))

/-- A change of the process's memory. -/
def remember (f : Memory → Memory) : Tx Unit :=
  Prog.silent (fun s => ((), { s with memory := f s.memory }))

/-- A look at the process's memory. -/
def recollect {α : Type} (f : Memory → α) : Tx α := Prog.silent (fun s => (f s.memory, s))

/-! ### Checks -/

/-- `_verify_one`: a regular file of the artifact's size and digest. -/
def verifyOne (node : Option (Node Content)) (artifact : SaveArtifact) : Bool :=
  match node with
  | some (.file content) =>
    content.sizeBytes = artifact.sizeBytes && content.contentHash = artifact.contentHash
  | _ => false

/-- `_path_matches`, without its reading errors. -/
def pathMatches (node : Option (Node Content)) : Option SaveArtifact → Bool
  | none => node.isNone
  | some artifact => verifyOne node artifact

/-- `_same_artifact` of the transaction engine: the contents are compared, not the paths. -/
def sameContent (left right : Option SaveArtifact) : Bool :=
  match left, right with
  | some l, some r => l.sizeBytes = r.sizeBytes && l.contentHash = r.contentHash
  | none, none => true
  | _, _ => false

/-- `_changed_paths`, in the order the loops go through them. -/
def changedPaths (current desired : Manifest) : List Path :=
  (sortedSet (current.paths ++ desired.paths)).filter
    (fun p => !sameContent (current.get? p) (desired.get? p))

def JournalView.changed (v : JournalView) : List Path := changedPaths v.current v.desired

/-- The components of a path. -/
def splitSlash : List Char → List (List Char)
  | [] => [[]]
  | c :: rest =>
    if c = '/' then [] :: splitSlash rest
    else
      match splitSlash rest with
      | part :: parts => (c :: part) :: parts
      | [] => [[c]]

/-- A Windows drive, `[A-Za-z]:`. -/
def isDrive : List Char → Bool
  | [c, ':'] => c.isAlpha
  | _ => false

/-- `_canonical_relative_parts` accepts the path. -/
def canonicalRelative (relative : Path) : Bool :=
  let parts := splitSlash relative.toList
  relative ≠ "" && !relative.toList.contains '\\' && !relative.toList.contains (Char.ofNat 0)
    && parts.all (fun part => part ≠ [] && part ≠ ['.'] && part ≠ ['.', '.'])
    && !(parts.head?.map isDrive).getD false

def isHexDigit (c : Char) : Bool := c.isDigit || ('a' ≤ c && c ≤ 'f') || ('A' ≤ c && c ≤ 'F')

/-- `_SHA256.fullmatch`. -/
def isSha256 (digest : String) : Bool :=
  digest.toList.length = 64 && digest.toList.all isHexDigit

/-- `_validate_operation_id` accepts the token. -/
def isOperationId (operationId : OperationId) : Bool :=
  operationId.toList.length = 32 && operationId.toList.all isHexDigit

/-- `_validate_manifest`; an artifact is filed under its own path by construction. -/
def validateManifest (manifest : Manifest) : Except TxError Unit :=
  if !manifest.paths.all canonicalRelative then .error .unsafePath
  else if !manifest.artifacts.all (fun a => isSha256 a.contentHash) then .error .invalidArtifact
  else .ok ()

/-- `_validate_distinct_root`: neither root is the other or contains it. -/
def distinctRoot (root : Root) (prior : List Root) : Bool :=
  prior.all (fun other => root ≠ other && !(ancestors root).contains other
    && !(ancestors other).contains root)

/-- `_verify_manifest`: every artifact of the manifest stands in the tree. -/
def verifyManifest (tree : Tree) (manifest : Manifest) : Except TxError Unit :=
  if !manifest.paths.all (fun p => decide (tree.Open p)) then .error .parentNotDirectory
  else if !manifest.artifacts.all (fun a => verifyOne (tree.get? a.relativePath) a) then
    .error .verificationFailed
  else .ok ()

/-- `_verify_owned_manifest_exact`: the files of an owned tree are exactly the manifest's. -/
def verifyExact (tree : Option Tree) (manifest : Manifest) : Except TxError Unit :=
  match tree with
  | none => .error .verificationFailed
  | some tree =>
    if tree.fileNames ≠ manifest.paths then .error .snapshotMismatch
    else verifyManifest tree manifest

/-! ### Journal and owned trees -/

/-- `_create_journal`: the file is created first and filled then; on failure it is removed. -/
def createJournal (site : TxSite) (record : JournalRecord) : Tx Unit := do
  Prog.step site (fun s =>
    match s.journal with
    | .absent => .ok ((), { s with journal := .torn })
    | _ => .error .journalExists)
  Prog.tryCatch
    (Prog.step site (fun s => .ok ((), { s with journal := .written record })))
    (fun e => do
      Prog.tryCatch (Prog.step site (fun s => .ok ((), { s with journal := .absent })))
        (fun e' => if e' = .external .osError then pure () else Prog.throw e')
      Prog.throw e)

/-- `_write_journal`: an atomic replacement of a journal the operation owns. -/
def writeJournal (site : TxSite) (operationId : OperationId) (phase : Phase)
    (views : List JournalView) : Tx Unit :=
  Prog.step site (fun s =>
    match s.journal with
    | .written record =>
      if record.operationId = operationId then
        .ok ((), { s with journal := .written ⟨operationId, phase, views⟩ })
      else .error .journalChanged
    | _ => .error .journalChanged)

/-- `_durable_unlink` of the journal. -/
def unlinkJournal (site : TxSite) : Tx Unit :=
  Prog.step site (fun s => .ok ((), { s with journal := .absent }))

/-- `mkdir` of an owned directory, which must not exist. -/
def mkdirOwned (place : Owned) : Lx Unit :=
  onArea .prepare (fun area =>
    match area.owned place with
    | none => .ok ((), area.setOwned (some ∅) place)
    | some _ => .error .fileError)

/-- `_remove_owned_tree`: node by node, the directory itself last. -/
def removeOwnedTree (site : TxSite) (place : Owned) : Lx Unit := do
  let tree ← Prog.silent (fun l => (l.area.owned place, l))
  match tree with
  | none => pure ()
  | some tree =>
    Prog.forEach (fun name => onArea site (fun area =>
      .ok ((), area.setOwned ((area.owned place).map (fun t => t.erase name)) place)))
      tree.keys.reverse
    onArea site (fun area => .ok ((), area.setOwned none place))

/-- The parents `_safe_target(create_parents=True)` makes in the live tree. -/
def ensureParents (site : TxSite) (path : Path) : Lx Unit :=
  Prog.forEach (fun dir => onArea site (fun area =>
    match area.live.mkdir dir with
    | some live => .ok ((), { area with live := live })
    | none => .error .parentNotDirectory)) (ancestors path)

/-- `_safe_target(create_parents=False)` in a tree. -/
def safeTarget (tree : Tree) (path : Path) : Except TxError Unit :=
  if tree.Open path then .ok () else .error .parentNotDirectory

/-- The parents `_safe_target(create_parents=True)` makes in an owned tree. -/
def ensureOwnedParents (place : Owned) (path : Path) : Lx Unit :=
  Prog.forEach (fun dir => onArea .prepare (fun area =>
    match ((area.owned place).getD ∅).mkdir dir with
    | some tree => .ok ((), area.setOwned (some tree) place)
    | none => .error .parentNotDirectory)) (ancestors path)

/-- Write a file of an owned tree, in place. -/
def writeOwned (place : Owned) (path : Path) (content : Area → Option Content) : Lx Unit :=
  onArea .prepare (fun area =>
    match content area with
    | none => .error .fileError
    | some content =>
      match ((area.owned place).getD ∅).place path content with
      | some tree => .ok ((), area.setOwned (some tree) place)
      | none => .error .fileError)

/-- `_materialize_manifest`: copy each artifact from its source, after verifying the source.
    The copy is a truncated file first. -/
def materializeManifest (place : Owned) (manifest : Manifest)
    (source : Area → Path → SaveArtifact → Option Content) : Lx Unit :=
  Prog.forEach (fun artifact => do
    let path := artifact.relativePath
    ensureOwnedParents place path
    check .prepare (fun area =>
      if verifyOne ((source area path artifact).map .file) artifact then .ok ()
      else .error .verificationFailed)
    writeOwned place path (fun _ => some partialContent)
    writeOwned place path (fun area => source area path artifact)) manifest.artifacts

/-! ### Preparing -/

/-- The view `prepare_transaction` keeps of a selected view, when it changes something: the
    manifests cropped to the changed paths. -/
def prepareView (v : SelectedView) : Option PreparedView :=
  let changed := changedPaths v.current v.desired
  if changed = [] then none
  else some
    { root := v.root
      current := v.current.restrict (fun p => changed.contains p)
      desired := v.desired.restrict (fun p => changed.contains p)
      verificationCurrent := v.current
      verificationDesired := v.desired }

/-- The loop of `prepare_transaction` over the selected views. -/
def prepareViews (views : List SelectedView) (priorRoots : List Root) :
    Tx (List (SelectedView × PreparedView)) :=
  match views with
  | [] => pure []
  | v :: rest => do
    if !distinctRoot v.root priorRoots then Prog.throw (.own .overlappingRoots)
    match validateManifest v.current with
    | .error w => Prog.throw (.own w)
    | .ok _ =>
    match validateManifest v.desired with
    | .error w => Prog.throw (.own w)
    | .ok _ =>
    match prepareView v with
    | none => prepareViews rest (v.root :: priorRoots)
    | some prepared => do
      atView v.root (check .prepare (fun area =>
        if area.stage.isSome || area.candidate.isSome then .error .ownedPathExists
        else .ok ()))
      let others ← prepareViews rest (v.root :: priorRoots)
      pure ((v, prepared) :: others)

/-- What `prepare_transaction` does for one view after the journal exists. -/
def stageView (v : SelectedView) (prepared : PreparedView) : Lx Unit := do
  Prog.forEach (fun place => do
    mkdirOwned place
    Prog.silent (fun l => ((), { l with
      memory := { l.memory with createdOwned := l.memory.createdOwned ++ [(v.root, place)] } })))
    [.stage, .candidate]
  materializeManifest .stage prepared.desired (fun _ => v.sourceFor)
  check .prepare (fun area => verifyManifest (area.stage.getD ∅) prepared.desired)
  materializeManifest .candidate prepared.current (fun area path _ =>
    match area.live.get? path with
    | some (.file content) => some content
    | _ => none)
  check .prepare (fun area => verifyManifest (area.candidate.getD ∅) prepared.current)
  -- `_fsync_tree` of both owned trees
  check .prepare (fun _ => .ok ())

/-- `except OSError`. -/
def isOsError : Exn Interruption TxError → Bool
  | .external .osError => true
  | .own .fileError => true
  | _ => false

/-- The handler of `prepare_transaction`. -/
def abortPrepare (e : Exn Interruption TxError) : Tx SelectedTransaction := do
  let owned ← recollect (fun m => m.createdOwned.reverse)
  let errors ← Prog.collect (fun place : Root × Owned =>
    Prog.tryCatch (do atView place.1 (removeOwnedTree .abortPrepare place.2); pure false)
      (fun e' => if isOsError e' then pure true else Prog.throw e')) owned
  let created ← recollect (fun m => m.journalCreated)
  if created && !errors.contains true then unlinkJournal .abortPrepare
  if errors.contains true then Prog.throw (.own .cleanupFailed)
  Prog.throw e

/-- `prepare_transaction`. -/
def prepareTransaction (views : List SelectedView) (operationId : OperationId) :
    Tx SelectedTransaction := do
  if !isOperationId operationId then Prog.throw (.own .invalidOperationId)
  if views = [] then Prog.throw (.own .noViews)
  Prog.step .prepare (fun s =>
    if s.journal = .absent then .ok ((), s) else .error .journalExists)
  remember (fun _ => ⟨false, false, false, []⟩)
  Prog.tryCatch
    (do
      let prepared ← prepareViews views []
      if prepared = [] then Prog.throw (.own .noChangedPaths)
      let transaction : SelectedTransaction := ⟨operationId, prepared.map Prod.snd⟩
      createJournal .prepare ⟨operationId, .preparing, transaction.journalViews⟩
      remember (fun m => { m with journalCreated := true })
      Prog.forEach (fun v => atView v.1.root (stageView v.1 v.2)) prepared
      writeJournal .prepare operationId .prepared transaction.journalViews
      pure transaction)
    abortPrepare

/-! ### Rolling back -/

/-- `_path_matches`: a reading error of a file counts as a mismatch. -/
def probePath (path : Path) (artifact : Option SaveArtifact) : Lx Bool :=
  let look : Lx Bool := onArea .probe (fun area =>
    .ok (pathMatches (area.live.get? path) artifact, area))
  match artifact with
  | none => look
  | some _ => Prog.tryCatch look (fun e => if isOsError e then pure false else Prog.throw e)

/-- A path to restore, with its original artifact. -/
structure RestoreAction where
  relative : Path
  original : Option SaveArtifact

/-- The turn of `_plan_restore` for one changed path. -/
def planPath (v : JournalView) (path : Path) : Lx (Option RestoreAction) := do
  check .restore (fun area => safeTarget area.live path)
  let matchesOriginal ← probePath path (v.current.get? path)
  let matchesDesired ← probePath path (v.desired.get? path)
  if matchesOriginal then pure none
  else if !matchesDesired then Prog.throw (.own .thirdVersion)
  else
    match v.current.get? path with
    | none => pure (some ⟨path, none⟩)
    | some original => do
      check .restore (fun area => safeTarget (area.candidate.getD ∅) path)
      check .restore (fun area =>
        if verifyOne ((area.candidate.getD ∅).get? path) original then .ok ()
        else .error .verificationFailed)
      pure (some ⟨path, some original⟩)

/-- `_plan_restore`. -/
def planRestore (v : JournalView) : Lx (List RestoreAction) := do
  let actions ← Prog.collect (planPath v) v.changed
  pure (actions.filterMap id)

/-- `target.unlink(missing_ok=True)` in the live tree. -/
def unlinkLive (site : TxSite) (path : Path) : Lx Unit :=
  onArea site (fun area =>
    match area.live.unlink path with
    | some live => .ok ((), { area with live := live })
    | none => .error .fileError)

/-- Restore one file from the candidate, through a temporary beside it. -/
def restoreFile (path : Path) (original : SaveArtifact) : Lx Unit := do
  check .restore (fun area => safeTarget (area.candidate.getD ∅) path)
  Prog.tryFinally
    (do
      onArea .restore (fun area =>
        .ok ((), { area with restoreTmp := area.restoreTmp.insert path partialContent }))
      onArea .restore (fun area =>
        match (area.candidate.getD ∅).get? path with
        | some (.file content) =>
          .ok ((), { area with restoreTmp := area.restoreTmp.insert path content })
        | _ => .error .fileError)
      check .restore (fun area =>
        if verifyOne ((area.restoreTmp.get? path).map .file) original then .ok ()
        else .error .verificationFailed)
      -- `_fsync_file` of the temporary
      check .restore (fun _ => .ok ())
      onArea .restore (fun area =>
        match area.restoreTmp.get? path with
        | none => .error .fileError
        | some content =>
          match area.live.place path content with
          | some live =>
            .ok ((), { area with live := live, restoreTmp := area.restoreTmp.erase path })
          | none => .error .fileError))
    (onArea .restore (fun area =>
      .ok ((), { area with restoreTmp := area.restoreTmp.erase path })))

/-- The turn of `_restore_view` for one action. -/
def restorePath (action : RestoreAction) : Lx Unit := do
  ensureParents .restore action.relative
  match action.original with
  | none => unlinkLive .restore action.relative
  | some original => restoreFile action.relative original

/-- `_fsync_changed_live_paths`, of which only the checks of the paths matter here. -/
def fsyncChangedLivePaths (site : TxSite) (v : JournalView) : Lx Unit :=
  check site (fun area =>
    if v.changed.all (fun p => decide (area.live.Open p)) then .ok ()
    else .error .parentNotDirectory)

/-- `_restore_view`. -/
def restoreView (v : JournalView) (actions : List RestoreAction) : Lx Unit := do
  Prog.forEach restorePath actions
  check .restore (fun area => verifyManifest area.live v.current)
  Prog.forEach (fun path => do
    check .restore (fun area => safeTarget area.live path)
    let restored ← probePath path (v.current.get? path)
    if restored then pure () else Prog.throw (.own .rollbackVerificationFailed)) v.changed
  fsyncChangedLivePaths .restore v

/-- `_cleanup(remove_journal=True)`. -/
def cleanup (views : List JournalView) : Tx Unit := do
  Prog.forEach (fun v : JournalView => atView v.root (do
    removeOwnedTree .cleanup .stage
    removeOwnedTree .cleanup .candidate)) views
  unlinkJournal .cleanup

/-- `SelectedTransaction.rollback`. -/
def rollback (views : List JournalView) : Tx Unit := do
  let finished ← recollect Memory.finished
  if finished then pure ()
  else do
    let touched ← recollect Memory.liveTouched
    if !touched then do
      cleanup views
      remember (fun m => { m with finished := true })
    else do
      let plans ← Prog.tryCatch
        (Prog.collect (fun v : JournalView => do
          let plan ← atView v.root (planRestore v)
          pure (v, plan)) views.reverse)
        (fun e =>
          match e with
          | .external .interrupt => Prog.throw e
          | .own .thirdVersion => Prog.throw e
          | _ => Prog.throw (.own .cannotRollBack))
      let errors ← Prog.collect (fun plan : JournalView × List RestoreAction =>
        Prog.tryCatch (do atView plan.1.root (restoreView plan.1 plan.2); pure false)
          (fun e =>
            match e with
            | .external .interrupt => Prog.throw e
            | _ => pure true)) plans
      if errors.contains true then Prog.throw (.own .rollbackIncomplete)
      else do
        cleanup views
        remember (fun m => { m with finished := true })

/-! ### Applying -/

/-- The turn of `_apply_view` for one changed path. -/
def applyPath (v : JournalView) (path : Path) : Lx Unit := do
  ensureParents .apply path
  check .apply (fun area =>
    match v.current.get? path with
    | some before =>
      if verifyOne (area.live.get? path) before then .ok () else .error .verificationFailed
    | none => if (area.live.get? path).isNone then .ok () else .error .destinationChanged)
  match v.desired.get? path with
  | none => do
    touchLive
    unlinkLive .apply path
  | some desired => do
    check .apply (fun area => safeTarget (area.stage.getD ∅) path)
    check .apply (fun area =>
      if verifyOne ((area.stage.getD ∅).get? path) desired then .ok ()
      else .error .verificationFailed)
    touchLive
    onArea .apply (fun area =>
      match (area.stage.getD ∅).get? path with
      | some (.file content) =>
        match area.live.place path content with
        | some live =>
          .ok ((), { area with live := live, stage := area.stage.map (fun t => t.erase path) })
        | none => .error .fileError
      | _ => .error .fileError)

/-- `_apply_view`. -/
def applyView (v : JournalView) : Lx Unit := Prog.forEach (applyPath v) v.changed

/-- The guarded part of `apply_transaction`.  The two verifications are the caller's: any
    predicates of a root, its live tree and the manifest to verify. -/
def applyBody (t : SelectedTransaction)
    (verifyCurrent verifyDesired : Root → Tree → Manifest → Bool) : Tx Unit := do
  Prog.forEach (fun v : PreparedView => atView v.root (check .apply (fun area =>
    if verifyCurrent v.root area.live v.verificationCurrent then .ok ()
    else .error .verificationFailed))) t.views
  Prog.forEach (fun v : JournalView => atView v.root (applyView v)) t.journalViews
  Prog.forEach (fun v : PreparedView => atView v.root (check .apply (fun area =>
    if verifyDesired v.root area.live v.verificationDesired then .ok ()
    else .error .verificationFailed))) t.views
  Prog.forEach (fun v : JournalView => atView v.root (fsyncChangedLivePaths .apply v))
    t.journalViews
  writeJournal .apply t.operationId .promoted t.journalViews

/-- `apply_transaction`. -/
def applyTransaction (t : SelectedTransaction)
    (verifyCurrent verifyDesired : Root → Tree → Manifest → Bool) : Tx Unit := do
  writeJournal .apply t.operationId .applying t.journalViews
  Prog.tryCatch (applyBody t verifyCurrent verifyDesired) (fun e => do
    rollback t.journalViews
    Prog.throw e)

/-! ### Finalizing and recovering -/

/-- `_validate_finalize_snapshot`. -/
def validateFinalizeSnapshot (v : JournalView) : Lx Unit :=
  check .finalize (fun area =>
    verifyExact (if area.candidate.isSome then area.candidate else area.previous) v.current)

/-- `_install_previous`. -/
def installPrevious (v : JournalView) : Lx Unit := do
  let candidate ← Prog.silent (fun l => (l.area.candidate, l))
  match candidate with
  | none => check .finalize (fun area => verifyExact area.previous v.current)
  | some _ => do
    check .finalize (fun area => verifyExact area.candidate v.current)
    removeOwnedTree .finalize .previous
    onArea .finalize (fun area =>
      .ok ((), { area with previous := area.candidate, candidate := none }))
    check .finalize (fun area => verifyExact area.previous v.current)

/-- `SelectedTransaction.finalize`. -/
def finalize (views : List JournalView) : Tx Unit := do
  let finished ← recollect Memory.finished
  if finished then pure ()
  else do
    Prog.forEach (fun v => atView v.root (validateFinalizeSnapshot v)) views
    Prog.forEach (fun v => atView v.root (installPrevious v)) views
    cleanup views
    remember (fun m => { m with finished := true })

/-- `recover_transaction`: whether there was a journal. -/
def recoverTransaction (allowedRoots : List Root) (completedOperationId : Option OperationId) :
    Tx Bool := do
  let journal ← Prog.step .recover (fun s => .ok (s.journal, s))
  match journal with
  | .absent => pure false
  | .torn => Prog.throw (.own .journalInvalid)
  | .written record => do
    if !record.views.all (fun v => allowedRoots.contains v.root) then
      Prog.throw (.own .journalInvalid)
    remember (fun _ =>
      ⟨record.phase = .applying || record.phase = .promoted, false, false, []⟩)
    if record.phase = .promoted ∧ completedOperationId = some record.operationId then
      finalize record.views
    else
      rollback record.views
    pure true

end RomCloud.SaveSync.Transaction
