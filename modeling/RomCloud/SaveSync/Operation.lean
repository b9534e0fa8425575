import RomCloud.SaveSync.Deliberate
import RomCloud.SaveSync.RemoteCommit

namespace RomCloud.SaveSync.Commit

open RomCloud.Lib RomCloud.SaveSync.Index

/-!
# The operations step by step

`_reconcile_once` as a program every file access of which can fail, with the handlers of the
source: the transaction on the files of both sides, the commit on the remote, the durable state and
the shared journal.

* `OpenTransaction`, `Device` — a transaction on disk, and everything an operation can change;
* `prepareTransaction`, `applyTransaction`, `rollback`, `recover` — the transaction;
* `reconcileProgram` — the operation.

What it decides is computed as in `reconcileOnce`.
Staging, the promotion of all views and a rollback are one step each here, and the bytes and the
containers behind a manifest are those the transaction modules are about.
-/

/-! ### The state of a device -/

/-- The paths a transaction changes on one side: what they hold, and what they are to hold. -/
structure SideChange where
  current : Manifest
  desired : Manifest

/-- A transaction with its journal on disk. -/
structure OpenTransaction where
  operationId : String
  localView : Option SideChange
  remoteView : Option SideChange
  promoted : Bool

/-- A device with the shared remote: its save files, its durable state, the transaction it has
    open, and what a commit works on. -/
structure Device where
  localSide : Manifest
  durable : SaveSyncState
  transaction : Option OpenTransaction
  shared : CommitState

/-- The two sides and the durable state, as an operation reads them. -/
def Device.sides (s : Device) : Sides := ⟨s.localSide, s.shared.remote.payload, s.durable⟩

/-- Replace the remote save files. -/
def setPayload (payload : Manifest) (shared : CommitState) : CommitState :=
  { shared with remote := { shared.remote with payload := payload } }

/-- The file accesses of an operation. -/
inductive OperationSite
  | commit (site : CommitSite)
  | prepare
  | scan
  | apply
  | rollback
  | recover
  | finalize
  | state
deriving DecidableEq

inductive OperationError
  | commit (error : CommitError)
  | saveSync (error : SaveSyncError)
  | unresolvedTransaction
  | thirdVersion
deriving DecidableEq

/-- Programs of an operation. -/
abbrev OperationProg (α : Type) := Prog OperationSite Interruption OperationError Device α

/-- The state as it is now. -/
def readDevice : OperationProg Device := Prog.silent (fun s => (s, s))

/-- A look at a state that is known. -/
theorem readAt {α : Type} {env : Env OperationSite Interruption} {s₀ : Device}
    {f : Device → OperationProg α} {Q : α → Device → Prop}
    {E : Exn Interruption OperationError → Device → Prop} {C : Device → Prop}
    (h : Triple env (fun s => s = s₀) (f s₀) Q E C) :
    Triple env (fun s => s = s₀) (readDevice >>= f) Q E C := Triple.lookAt (fun _ => rfl) h

/-- A program of the commit, in an operation. -/
def onCommit {α : Type} (m : CommitProg α) : OperationProg α :=
  Prog.zoom .commit Device.shared (fun shared s => { s with shared := shared })
    (m.mapOwn .commit)

/-- A program that is run only where a condition holds. -/
def onlyIf (condition : Prop) [Decidable condition] (m : OperationProg Unit) :
    OperationProg Unit :=
  if condition then m else pure ()

/-- Raise a SaveSync error. -/
def refuse {α : Type} (error : SaveSyncError) : OperationProg α :=
  Prog.throw (.own (.saveSync error))

/-! ### The transaction -/

/-- The side after the changed paths were replaced. -/
def SideChange.apply (change : Option SideChange) (side : Manifest) : Manifest :=
  match change with
  | none => side
  | some change => promote side change.current change.desired

/-- The side after the changed paths were put back. -/
def SideChange.restore (change : Option SideChange) (side : Manifest) : Manifest :=
  match change with
  | none => side
  | some change => promote side change.desired change.current

/-- Whether every changed path holds one of its two versions. -/
def SideChange.restorable (change : Option SideChange) (side : Manifest) : Bool :=
  match change with
  | none => true
  | some change => (change.current.paths ++ change.desired.paths).all (fun path =>
      side.get? path = change.current.get? path || side.get? path = change.desired.get? path)

/-- A device with the changed paths of both sides put back, and no transaction. -/
def Device.restored (t : OpenTransaction) (s : Device) : Device :=
  { s with
    localSide := SideChange.restore t.localView s.localSide
    transaction := none
    shared := setPayload (SideChange.restore t.remoteView s.shared.remote.payload) s.shared }

/-- `prepare_transaction`, for a transaction with something to change. -/
def prepareTransaction (t : OpenTransaction) : OperationProg Unit :=
  if t.localView.isNone ∧ t.remoteView.isNone then pure ()
  else Prog.step .prepare (fun s =>
    match s.transaction with
    | some _ => .error .unresolvedTransaction
    | none => .ok ((), { s with transaction := some t }))

/-- A device with all views of its transaction promoted. -/
def Device.promoted (t : OpenTransaction) (s : Device) : Device :=
  { s with
    localSide := SideChange.apply t.localView s.localSide
    transaction := some { t with promoted := true }
    shared := setPayload (SideChange.apply t.remoteView s.shared.remote.payload) s.shared }

/-- `_apply_selected_transaction`: all views are promoted, or none. -/
def applyTransaction : OperationProg Unit :=
  readDevice >>= fun s =>
  match s.transaction with
  | none => pure ()
  | some t => Prog.step .apply (fun s => .ok ((), s.promoted t))

/-- What a rollback makes of a device: a path with a third version is refused. -/
def rolledBack (s : Device) : Except OperationError (Unit × Device) :=
  match s.transaction with
  | none => .ok ((), s)
  | some t =>
    if !t.promoted then .ok ((), { s with transaction := none })
    else if !SideChange.restorable t.localView s.localSide
        || !SideChange.restorable t.remoteView s.shared.remote.payload then .error .thirdVersion
    else .ok ((), s.restored t)

/-- `SelectedTransaction.rollback`, of the transaction of an operation. -/
def rollback : OperationProg Unit :=
  readDevice >>= fun s =>
  onlyIf (s.transaction.isSome = true) (Prog.step .rollback rolledBack)

/-- What `_recover` makes of a device: a promoted transaction whose receipt is in the durable
    state is kept. -/
def recovered (s : Device) : Except OperationError (Unit × Device) :=
  match s.transaction with
  | none => .ok ((), s)
  | some t =>
    if t.promoted ∧ s.durable.lastCompletedOperationId = some t.operationId then
      .ok ((), { s with transaction := none })
    else rolledBack s

/-- `_recover`. -/
def recover : OperationProg Unit := Prog.step .recover recovered

/-- `SelectedTransaction.finalize`, whose I/O errors are logged only. -/
def finalize : OperationProg Unit :=
  readDevice >>= fun s =>
  onlyIf (s.transaction.isSome = true)
    (Prog.tryCatch (Prog.step .finalize (fun s => .ok ((), { s with transaction := none })))
      (fun error =>
        match error with
        | .external .interrupt => Prog.throw error
        | _ => pure ()))

/-- `_write_state`. -/
def writeState (state : SaveSyncState) : OperationProg Unit :=
  Prog.step .state (fun s => .ok ((), { s with durable := state }))

/-- A scan of both sides, which must find what it has to. -/
def verifySides (holds : Sides → Bool) (message : String) : OperationProg Unit :=
  Prog.step .scan (fun s =>
    if holds s.sides then .ok ((), s) else .error (.saveSync (.verification message)))

/-! ### The shared journal -/

/-- `_journal_mutations_for_remote_transition`. -/
def journalMutations (service : Service) (before after : Manifest) : List Journal.Mutation :=
  (changedRemoteGroups service before after).filterMap (fun changed =>
    ((if changed.2.2 ≠ [] then changed.2.2 else changed.2.1).head?.bind (fun first =>
      service.registry.groupForPath first.relativePath)).map (fun descriptor =>
        { system := descriptor.system
          layoutId := descriptor.layoutId
          groupId := some descriptor.groupId
          objectId :=
            if changed.2.2.length = 1 then changed.2.2.head?.map SaveArtifact.relativePath
            else if changed.2.1.length = 1 then changed.2.1.head?.map SaveArtifact.relativePath
            else none
          operation :=
            if changed.2.1 = [] ∧ changed.2.2 ≠ [] then "create"
            else if changed.2.1 ≠ [] ∧ changed.2.2 = [] then "delete"
            else "update" }))

/-- The cursor after an append, in the state the device has then. -/
def writeCursor (generation : Option ℕ) : OperationProg Unit :=
  match generation with
  | none => pure ()
  | some generation =>
    readDevice >>= fun s =>
    onlyIf (s.durable.quickSyncReady = true)
      (writeState { s.durable with quickSyncCursorGeneration := some generation })

/-- The arguments that the surroundings give an operation. -/
structure OperationRun where
  operationId : Text
  deferred : Bool
  startedAt : String
  env : ReconcileEnv

/-- The surroundings with the operation id the receipt is about. -/
def OperationRun.reconcileEnv (run : OperationRun) : ReconcileEnv :=
  { run.env with operationId := run.operationId.val }

/-- `append_compatibility_journal`, of the changes from one remote manifest to another. -/
def appendTransition (service : Service) (run : OperationRun) (before after : Manifest) :
    OperationProg (Option ℕ) :=
  onCommit (appendCompatibilityJournal run.env.revision run.env.timestamp
    (journalMutations service before after))

/-- `_open_remote_commit`, and `begin`. -/
def openAndBegin (service : Service) (run : OperationRun) (before after : Manifest) :
    OperationProg Unit :=
  readDevice >>= fun s =>
  onCommit (note (fun _ =>
    openRemoteCommit service run.operationId s.durable.deviceId before after)) >>= fun _ =>
  onCommit (begin service run.deferred run.startedAt)

/-! ### Reconciliations -/

section Reconcile

variable (service : Service) (call : ReconcileCall) (run : OperationRun)

/-- What `_reconcile_once` decides before it scans anything: an error, nothing to do, or the
    conflicts it is to retire. -/
def reconcilable (state : SaveSyncState) :
    Except SaveSyncError (Option (List SaveConflictRecord)) :=
  if (effectiveGroups call).any (fun groups => groups = ∅) then .ok none
  else if (effectiveGroups call).isNone
      && (effectiveLayouts service call).any (fun layouts => layouts = ∅) then .ok none
  else if !run.env.reachable then .error (.connectivity "Remote save location is not reachable")
  else match service.obsoleteWholeLayoutConflicts state ∅
      (fun id => id ∈ call.obsoleteConflictIds) with
  | .error error => .error error
  | .ok obsolete =>
    if !obsolete.isEmpty && (effectiveLayouts service call).all (fun layouts =>
        obsolete.any (fun conflict => conflict.layoutId ∉ layouts)) then
      .error (.verification ("Legacy SaveSync conflict migration requires a complete current "
        ++ "layout scan; the conflict was preserved."))
    else .ok (some obsolete)

/-- Whether a session on something the call selects has started since it was planned. -/
def activeLater : Prop :=
  (effectiveGroups call).any (fun groups => ∃ gid ∈ groups, run.env.groupActiveLater gid) = true
    ∨ (effectiveLayouts service call).any (fun layouts =>
      ∃ layoutId ∈ layouts, run.env.layoutActiveLater layoutId) = true

instance : Decidable (activeLater service call run) :=
  inferInstanceAs (Decidable (_ ∨ _))

variable {service call} (c : Comparison service call)

/-- The transaction of a comparison. -/
def reconcileTransaction : OpenTransaction where
  operationId := run.operationId.val
  localView :=
    if c.desiredLocal ≠ c.originalLocal ∧ call.uploadOnly = false then
      some ⟨c.originalLocal, c.desiredLocal⟩
    else none
  remoteView :=
    if c.desiredRemote ≠ c.originalRemote then some ⟨c.originalRemote, c.desiredRemote⟩ else none
  promoted := false

/-- Whether the sides are as the call planned with. -/
def asCompared (state : SaveSyncState) (sides : Sides) : Bool :=
  (service.scanLayouts (covers service call state) none sides.localSide).artifacts
      = c.completeLocal
    && (service.scanLayouts (covers service call state) c.remoteScope sides.remoteSide).artifacts
      = c.completeRemote

/-- Whether the sides are as the call wants them. -/
def asDesired (state : SaveSyncState) (sides : Sides) : Bool :=
  (service.scanLayouts (covers service call state) none sides.localSide).artifacts
      = replaceSelectedGroups service call c.completeLocal c.desiredLocal
    && (service.scanLayouts (covers service call state) c.remoteScope sides.remoteSide).artifacts
      = replaceSelectedGroups service call c.completeRemote c.desiredRemote

/-- The guarded part of `_reconcile_once`, up to the publication: whether the call goes on. -/
def promoteComparison (state : SaveSyncState) : OperationProg Bool :=
  onlyIf (c.desiredRemote ≠ c.originalRemote)
    (openAndBegin service run c.originalRemote c.desiredRemote) >>= fun _ =>
  prepareTransaction (reconcileTransaction run c) >>= fun _ =>
  verifySides (asCompared c state)
    "Save/state data changed while staging; reconciliation was abandoned." >>= fun _ =>
  if activeLater service call run then rollback >>= fun _ => pure false
  else
    onlyIf (c.desiredRemote ≠ c.originalRemote) (onCommit promoting) >>= fun _ =>
    applyTransaction >>= fun _ =>
    verifySides (asDesired c state)
      "Save/state data changed before reconciliation completed." >>= fun _ =>
    onlyIf (c.desiredRemote ≠ c.originalRemote) (onCommit publish) >>= fun _ =>
    pure true

/-- What `_reconcile_once` does after the publication. -/
def settleComparison (state : SaveSyncState) (obsolete : List SaveConflictRecord) :
    OperationProg SaveReconcileReport :=
  Prog.tryCatch (writeState (nextState run.reconcileEnv state c obsolete))
    (fun error => rollback >>= fun _ => Prog.throw error) >>= fun _ =>
  onlyIf (c.desiredRemote ≠ c.originalRemote)
    (Prog.tryCatch (appendTransition service run c.originalRemote c.desiredRemote)
      (fun error =>
        rollback >>= fun _ =>
        writeState state >>= fun _ =>
        onCommit abandon >>= fun _ => Prog.throw error) >>= writeCursor) >>= fun _ =>
  onlyIf (c.desiredRemote ≠ c.originalRemote) (onCommit close) >>= fun _ =>
  finalize >>= fun _ =>
  pure (reconcileReport run.reconcileEnv c)

/-- `_reconcile_once`, from the scans on.  The `index_committed` of the first handler is set when
    `publish` has returned, and nothing in the guarded part comes after that. -/
def commitComparisonProgram (state : SaveSyncState) (obsolete : List SaveConflictRecord) :
    OperationProg (Option SaveReconcileReport) :=
  Prog.tryCatch (promoteComparison run c state)
    (fun error =>
      rollback >>= fun _ =>
      onlyIf (c.desiredRemote ≠ c.originalRemote) (onCommit abandon) >>= fun _ =>
      Prog.throw error) >>= fun goesOn =>
  if goesOn then
    settleComparison run c state obsolete >>= fun report => pure (some report)
  else pure none

variable (service call)

/-- `_reconcile_once`. -/
def reconcileProgram : OperationProg (Option SaveReconcileReport) :=
  readDevice >>= fun s =>
  match reconcilable service call run s.durable with
  | .error error => refuse error
  | .ok none => pure none
  | .ok (some obsolete) =>
    recover >>= fun _ =>
    readDevice >>= fun s =>
    commitComparisonProgram run (compare service call s.sides) s.durable obsolete

end Reconcile

end RomCloud.SaveSync.Commit
