import RomCloud.SaveSync.Index
import RomCloud.SaveSync.Journal
import RomCloud.SaveSync.Service

namespace RomCloud.SaveSync.Commit

open RomCloud.Lib RomCloud.SaveSync.Index

/-!
# The protected remote commit

The cross-device half of a mutation: the shared intent of `infrastructure/savesync_commit.py` and
the publication primitive `_RemoteCommit` of `services/saves.py`.

* `CommitIntent`, `classifyBy` — the record of a commit in flight, and what the payload says
  about one that was left behind;
* `Remote` — everything the devices share, `CommitState` — that and what one device has in memory;
* `RemoteCommit.begin`, `promoting`, `publish`, `appendCompatibilityJournal`, `close`, `abandon` —
  the primitive, as programs every file access of which can fail.

All of it runs under the remote commit lock, which is taken to be mutual exclusion: between two
steps of such a program nobody else writes.  What a peer did before the lock was acquired is in the
state the program starts from.
-/

/-! ### The shared intent -/

/-- How far a commit had progressed when its intent was last written. -/
inductive IntentPhase
  | prepared
  | promoting
  | payloadVerified
  | indexPublished
  | journaled
deriving DecidableEq

/-- Where an interrupted commit's actual payload is. -/
inductive PayloadState
  | before
  | desired
  | unknown
deriving DecidableEq

/-- What the operation of an intent was entitled to publish. -/
inductive PublicationScope
  | group
  | fullSync
deriving DecidableEq

structure IntentGroup where
  groupId : GroupId
  layoutId : LayoutId
  system : String
  expectedGroupGeneration : ℕ
  before : List IndexArtifact
  desired : List IndexArtifact
deriving DecidableEq

/-- The paths an intent group is about. -/
def IntentGroup.paths (group : IntentGroup) : List Path :=
  (group.before ++ group.desired).map IndexArtifact.path

structure CommitIntent where
  operationId : Text
  originDevice : String
  datasetId : Text
  baseIndexGeneration : ℕ
  baseJournalGeneration : ℕ
  phase : IntentPhase
  startedAt : String
  groups : List IntentGroup
  publicationScope : PublicationScope
deriving DecidableEq

/-- `with_phase`. -/
def CommitIntent.withPhase (intent : CommitIntent) (phase : IntentPhase) : CommitIntent :=
  { intent with phase := phase }

/-- `_artifacts_from_list`: whether the artifacts of a stored intent are accepted. -/
def artifactsAccepted (artifacts : List IndexArtifact) : Bool :=
  artifacts.all (fun artifact => artifact.path ≠ "" && artifact.sha256.length = 64)
    && (artifacts.map IndexArtifact.path).Nodup

/-- `intent_from_dict`: whether a stored intent is accepted. -/
def CommitIntent.accepted (intent : CommitIntent) : Bool :=
  strip intent.originDevice ≠ "" && strip intent.startedAt ≠ ""
    && (intent.groups.map IntentGroup.groupId).Nodup
    && intent.groups.all (fun group =>
      group.groupId ≠ "" && group.layoutId ≠ "" && group.system ≠ ""
        && artifactsAccepted group.before && artifactsAccepted group.desired)

/-- `load_intent`: `none` when there is no intent, an error when it cannot be read. -/
def loadIntent (file : Stored CommitIntent) : Except Unit (Option CommitIntent) :=
  match file with
  | .absent => .ok none
  | .damaged => .error ()
  | .valid intent => if intent.accepted then .ok (some intent) else .error ()

/-- The artifacts that a scan saw of the before and the desired set of a group, merged in the order
    of their paths. -/
def mergedArtifacts (observed : Dict Path IndexArtifact) (group : IntentGroup) :
    List IndexArtifact :=
  ((group.before ++ group.desired).filterMap (fun artifact => observed.get? artifact.path))
    |>.insertionSort (fun a b => a.path ≤ b.path)

/-- The artifacts whose path is not the one before, `previous` standing before the first. -/
def uniqueAfter : Option Path → List IndexArtifact → List IndexArtifact
  | _, [] => []
  | previous, artifact :: rest =>
    if previous = some artifact.path then uniqueAfter previous rest
    else artifact :: uniqueAfter (some artifact.path) rest

/-- What a scan saw of an intent group's paths, in their order, each once. -/
def actualManifest (observed : Dict Path IndexArtifact) (group : IntentGroup) :
    List IndexArtifact :=
  uniqueAfter none (mergedArtifacts observed group)

/-- `classify_payload`, with the hash of a manifest as a parameter. -/
def classifyBy {δ : Type} [DecidableEq δ] (manifestHash : List IndexArtifact → δ)
    (intent : CommitIntent) (observed : Dict Path IndexArtifact) : PayloadState :=
  let finds (manifest : IntentGroup → List IndexArtifact) : Bool :=
    intent.groups.all (fun group =>
      manifestHash (actualManifest observed group) = manifestHash (manifest group))
  if finds IntentGroup.desired then .desired
  else if finds IntentGroup.before then .before
  else .unknown

/-! ### The shared state -/

/-- What the devices share: the save files, the index, the intent and the legacy journal. -/
structure Remote where
  payload : Manifest
  index : IndexDir
  intent : Stored CommitIntent
  journal : Journal.File

/-- The memory of a `_RemoteCommit`. -/
structure RemoteCommit where
  operationId : Text
  deviceId : String
  groups : List IntentGroup
  intent : Option CommitIntent
  owned : Bool
  deferred : Bool
  datasetId : Option Text
  baseJournalGeneration : ℕ
  indexCommitted : Bool

/-- The shared state, whether the device has recorded that the dataset was owned, and the commit
    in its memory. -/
structure CommitState where
  remote : Remote
  ownershipRecorded : Bool
  commit : RemoteCommit

/-- The file accesses of a commit. -/
inductive CommitSite
  | index (site : Site)
  | writeIntent
  | clearIntent
  | setIntentAside
  | scan
  | journal
  | protocolRecord
deriving DecidableEq

/-- What a commit raises. -/
inductive CommitError
  | index (error : IndexError)
  | damagedDataset
  | casConflict (conflicts : List CasConflict)
  | indexPayloadMismatch (groups : List GroupId)
  | recoveryEvidence
  | recoveryRequiresFullSync
  | journal (message : String)
deriving DecidableEq

/-- Programs of a commit. -/
abbrev CommitProg (α : Type) := Prog CommitSite Interruption CommitError CommitState α

/-- The state as it is now. -/
def look : CommitProg CommitState := Prog.silent (fun s => (s, s))

/-- Change the commit in memory. -/
def note (f : RemoteCommit → RemoteCommit) : CommitProg Unit :=
  Prog.silent (fun s => ((), { s with commit := f s.commit }))

/-- A result that may be an error of the index. -/
def orIndexError {α : Type} (result : Except IndexError α) : CommitProg α :=
  match result with
  | .error error => Prog.throw (.own (.index error))
  | .ok a => pure a

theorem orIndexError_ok_bind {α β : Type} (a : α) (f : α → CommitProg β) :
    (orIndexError (.ok a) >>= f) = f a := rfl

theorem orIndexError_error_bind {α β : Type} (error : IndexError) (f : α → CommitProg β) :
    (orIndexError (.error error) >>= f) = Prog.throw (.own (.index error)) := rfl

/-- A write whose I/O errors are swallowed. -/
def swallowing (m : CommitProg Unit) : CommitProg Unit :=
  Prog.tryCatch m (fun error =>
    match error with
    | .external .interrupt => Prog.throw error
    | _ => pure ())

/-- Replace the intent file. -/
def setIntent (file : Stored CommitIntent) (s : CommitState) : CommitState :=
  { s with remote := { s.remote with intent := file } }

/-- Replace the index directory. -/
def setIndex (dir : IndexDir) (s : CommitState) : CommitState :=
  { s with remote := { s.remote with index := dir } }

/-- A program on the index directory, its own errors those of a commit. -/
def onIndex {α : Type} (m : IndexProg α) : CommitProg α :=
  Prog.zoom .index (fun s => s.remote.index) setIndex (m.mapOwn .index)

/-- `write_intent`. -/
def writeIntent (intent : CommitIntent) : CommitProg Unit :=
  Prog.step .writeIntent (fun s => .ok ((), setIntent (.valid intent) s))

/-- `clear_intent`: an intent that cannot be deleted is moved aside, if possible. -/
def clearIntent : CommitProg Unit :=
  Prog.tryCatch (Prog.step .clearIntent (fun s => .ok ((), setIntent .absent s)))
    (fun error =>
      match error with
      | .external .ioError =>
        swallowing (Prog.step .setIntentAside (fun s => .ok ((), setIntent .absent s)))
      | error => Prog.throw error)

/-- `preserve_unresolved_intent`. -/
def preserveUnresolvedIntent : CommitProg Unit :=
  swallowing (Prog.step .setIntentAside (fun s => .ok ((), setIntent .absent s)))

/-! ### Ownership -/

/-- `_remember_dataset_ownership`. -/
def rememberDatasetOwnership : CommitProg Unit :=
  swallowing (Prog.step .protocolRecord (fun s => .ok ((), { s with ownershipRecorded := true })))

/-- `_resolve_dataset_state`: a dataset that was owned and has lost its marker is damaged. -/
def resolveDataset : CommitProg DatasetState :=
  look >>= fun s =>
  match resolveDatasetState s.remote.index with
  | .owned marker head => rememberDatasetOwnership >>= fun _ => pure (.owned marker head)
  | .unowned => pure (if s.ownershipRecorded then .damaged else .unowned)
  | .damaged => pure .damaged

/-- `_require_commit_ready_dataset`: whether the dataset is owned. -/
def requireCommitReadyDataset : CommitProg Bool :=
  resolveDataset >>= fun dataset =>
  match dataset with
  | .damaged => Prog.throw (.own .damagedDataset)
  | .unowned => pure false
  | .owned _ _ => pure true

/-! ### Observations -/

/-- `IndexArtifact` of a scanned file. -/
def indexArtifact (artifact : SaveArtifact) : IndexArtifact :=
  ⟨artifact.relativePath, artifact.sizeBytes, artifact.contentHash⟩

section Observation

variable (service : Service) (groups : List IntentGroup)

/-- A scan of the layouts of some intent groups, narrowed to their paths.  `watch_roots` leaves a
    layout out that has to be opted into and is not. -/
def intentScan (payload : Manifest) : Manifest :=
  (service.scanLayouts (fun layoutId =>
      layoutId ∈ groups.map IntentGroup.layoutId && service.layoutEnabled layoutId)
    (some (groups.flatMap IntentGroup.paths).toFinset) payload).artifacts

/-- `_observe_intent_payload`. -/
def observeIntentPayload (payload : Manifest) : Dict Path IndexArtifact :=
  Dict.ofKeys (intentScan service groups payload).paths
    (fun path => ((intentScan service groups payload).get? path).map indexArtifact)

/-- `_observe_remote_group_manifests`. -/
def observeRemoteGroupManifests (payload : Manifest) : Dict GroupId (List IndexArtifact) :=
  Dict.ofKeys (groups.map IntentGroup.groupId) (fun gid =>
    some (computeManifestHash (((intentScan service groups payload).artifacts.filter
      (fun artifact => service.groupId artifact.relativePath = gid)).map indexArtifact)))

/-- A scan of the payload, which may fail. -/
def scanning {α : Type} (observe : Manifest → α) : CommitProg α :=
  Prog.step .scan (fun s => .ok (observe s.remote.payload, s))

end Observation

/-! ### Publication -/

/-- The updates `_publish_index_for_groups` publishes. -/
def indexUpdates (operationId : Text) (originDevice : String) (groups : List IntentGroup) :
    List IndexGroup :=
  groups.map (fun group =>
    { groupId := group.groupId
      layoutId := group.layoutId
      system := group.system
      groupGeneration := 0
      artifacts := group.desired
      tombstoned := group.desired.isEmpty
      originDevice := originDevice
      completedTransactionId := some operationId.val
      containerHead := none })

/-- `_publish_index_for_groups`.  A HEAD exists wherever it is called, so that the dataset id is
    never a fresh one. -/
def publishIndexForGroups (groups : List IntentGroup) (operationId : Text) (originDevice : String)
    (datasetIdHint : Option Text) (journalGeneration : ℕ) : CommitProg IndexHead :=
  onIndex (publishGroupUpdates operationId originDevice datasetIdHint operationId
    journalGeneration (indexUpdates operationId originDevice groups))

/-- `committed_transaction_ids`: the operations some readable shard of HEAD has a receipt of. -/
def committedTransactionIds (dir : IndexDir) : List String :=
  ((loadHeadSafe dir).map (fun head => head.layouts.entries.flatMap (fun entry =>
    match loadShard dir entry.1 entry.2 with
    | .error _ => []
    | .ok shard => shard.groups.toList.filterMap IndexGroup.completedTransactionId))).getD []

/-- `_current_journal_generation`. -/
def currentJournalGeneration (journal : Journal.File) : ℕ :=
  match Journal.load journal with
  | .error _ => 0
  | .ok document => document.generation

/-! ### Recovery of another device's commit -/

/-- The resolution of an intent whose payload was classified. -/
def resolveClassified (owned repairing : Bool) (intent : CommitIntent) (receipts : List String) :
    PayloadState → CommitProg Unit
  | .unknown => preserveUnresolvedIntent >>= fun _ => Prog.throw (.own .recoveryEvidence)
  | .desired =>
    if intent.publicationScope = .fullSync then
      if repairing then clearIntent else Prog.throw (.own .recoveryRequiresFullSync)
    else if owned ∧ intent.operationId.val ∉ receipts then
      publishIndexForGroups intent.groups intent.operationId intent.originDevice
        (some intent.datasetId) intent.baseJournalGeneration >>= fun _ => clearIntent
    else clearIntent
  | .before => clearIntent

/-- `_resolve_shared_intent`, with the hash of a manifest as a parameter. -/
def resolveSharedIntentBy {δ : Type} [DecidableEq δ] (manifestHash : List IndexArtifact → δ)
    (service : Service) (owned repairing : Bool) : CommitProg Unit :=
  look >>= fun s =>
  match loadIntent s.remote.intent with
  | .error _ => pure ()
  | .ok none => pure ()
  | .ok (some intent) =>
    scanning (observeIntentPayload service intent.groups) >>= fun observed =>
    resolveClassified owned repairing intent (committedTransactionIds s.remote.index)
      (classifyBy manifestHash intent observed)

/-- `_resolve_shared_intent`. -/
def resolveSharedIntent (service : Service) (owned repairing : Bool) : CommitProg Unit :=
  resolveSharedIntentBy computeManifestHash service owned repairing

/-! ### The primitive -/

section Commit

variable (service : Service)

/-- `_changed_remote_groups`, with the manifests before and after. -/
def changedRemoteGroups (before after : Manifest) :
    List (GroupId × List SaveArtifact × List SaveArtifact) :=
  let groupOf (manifest : Manifest) (gid : GroupId) : List SaveArtifact :=
    manifest.artifacts.filter (fun artifact => service.groupId artifact.relativePath = gid)
  ((sortedSet ((before.paths ++ after.paths).map service.groupId)).filter (fun gid =>
    !"unsupported:".toList.isPrefixOf gid.toList && groupOf before gid ≠ groupOf after gid)).map
      (fun gid => (gid, groupOf before gid, groupOf after gid))

/-- `_group_descriptor_for`. -/
def groupDescriptorFor (artifacts : List SaveArtifact) : Option SaveGroupDescriptor :=
  artifacts.findSome? (fun artifact => service.registry.groupForPath artifact.relativePath)

/-- The intent group of a changed group. -/
def intentGroup (changed : GroupId × List SaveArtifact × List SaveArtifact) : Option IntentGroup :=
  (groupDescriptorFor service (if changed.2.2 ≠ [] then changed.2.2 else changed.2.1)).map
    (fun descriptor =>
      { groupId := changed.1
        layoutId := descriptor.layoutId
        system := descriptor.system
        expectedGroupGeneration := 0
        before := changed.2.1.map indexArtifact
        desired := changed.2.2.map indexArtifact })

/-- `_open_remote_commit`. -/
def openRemoteCommit (operationId : Text) (deviceId : String) (before desired : Manifest) :
    RemoteCommit where
  operationId := operationId
  deviceId := deviceId
  groups := (changedRemoteGroups service before desired).filterMap (intentGroup service)
  intent := none
  owned := false
  deferred := false
  datasetId := none
  baseJournalGeneration := 0
  indexCommitted := false

/-- `_assert_cas`. -/
def assertCas (expectations : List GroupExpectation) : CommitProg Unit :=
  look >>= fun s =>
  orIndexError (loadHeadStrict s.remote.index) >>= fun head =>
  orIndexError (validateGroupCas s.remote.index head expectations) >>= fun conflicts =>
  if conflicts = [] then pure () else Prog.throw (.own (.casConflict conflicts))

/-- `_assert_index_matches_payload`. -/
def assertIndexMatchesPayload (expectations : List GroupExpectation)
    (observed : Dict GroupId (List IndexArtifact)) : CommitProg Unit :=
  if verifyIndexMatchesPayload expectations observed = [] then pure ()
  else Prog.throw (.own (.indexPayloadMismatch (verifyIndexMatchesPayload expectations observed)))

/-- The checks of `begin` against the index: the expectations are those of the HEAD it found, and
    the payload has to be what they say. -/
def assertCommitted (groups : List IntentGroup) (dir : IndexDir) (head : IndexHead) :
    CommitProg Unit :=
  orIndexError (readGroupExpectations dir head
      (groups.map (fun group => (group.groupId, group.layoutId)))) >>= fun expectations =>
  assertCas expectations >>= fun _ =>
  scanning (observeRemoteGroupManifests service groups) >>= fun observed =>
  assertIndexMatchesPayload expectations observed

/-- The intent `begin` writes. -/
def preparedIntent (commit : RemoteCommit) (head : IndexHead) (startedAt : String) :
    CommitIntent where
  operationId := commit.operationId
  originDevice := commit.deviceId
  datasetId := head.datasetId
  baseIndexGeneration := head.indexGeneration
  baseJournalGeneration := commit.baseJournalGeneration
  phase := .prepared
  startedAt := startedAt
  groups := commit.groups
  publicationScope := if commit.deferred then .fullSync else .group

/-- The second half of `begin`, for a commit that changes groups of an owned dataset. -/
def prepareIntent (startedAt : String) : CommitProg Unit :=
  look >>= fun s =>
  orIndexError (loadHeadStrict s.remote.index) >>= fun head =>
  note (fun commit => { commit with datasetId := some head.datasetId }) >>= fun _ =>
  (if s.commit.deferred then pure ()
    else assertCommitted service s.commit.groups s.remote.index head) >>= fun _ =>
  note (fun commit => { commit with intent := some (preparedIntent commit head startedAt) }) >>=
    fun _ =>
  writeIntent (preparedIntent s.commit head startedAt)

/-- `_RemoteCommit.begin`, once the lock is held; `deferred` when a Full Sync owns the
    publication. -/
def begin (deferred : Bool) (startedAt : String) : CommitProg Unit :=
  requireCommitReadyDataset >>= fun owned =>
  note (fun commit => { commit with owned := owned, deferred := deferred }) >>= fun _ =>
  resolveSharedIntent service (owned && !deferred) deferred >>= fun _ =>
  look >>= fun s =>
  note (fun commit =>
    { commit with
      baseJournalGeneration := currentJournalGeneration s.remote.journal }) >>= fun _ =>
  if s.commit.groups = [] ∨ !owned then pure () else prepareIntent service startedAt

end Commit

/-- `_advance`. -/
def advance (phase : IntentPhase) : CommitProg Unit :=
  look >>= fun s =>
  match s.commit.intent with
  | none => pure ()
  | some intent =>
    note (fun commit => { commit with intent := some (intent.withPhase phase) }) >>= fun _ =>
    writeIntent (intent.withPhase phase)

/-- `_RemoteCommit.promoting`. -/
def promoting : CommitProg Unit := advance .promoting

/-- `_RemoteCommit.publish`: the commit point. -/
def publish : CommitProg Unit :=
  look >>= fun s =>
  if !s.commit.owned ∨ s.commit.groups = [] then pure ()
  else
    advance .payloadVerified >>= fun _ =>
    if s.commit.deferred then pure ()
    else
      publishIndexForGroups s.commit.groups s.commit.operationId s.commit.deviceId
        s.commit.datasetId s.commit.baseJournalGeneration >>= fun _ =>
      note (fun commit => { commit with indexCommitted := true }) >>= fun _ =>
      advance .indexPublished

/-- `_append_remote_journal`. -/
def appendRemoteJournal (deviceId revision timestamp : String)
    (mutations : List Journal.Mutation) : CommitProg ℕ :=
  Prog.step .journal (fun s =>
    let (result, file) :=
      Journal.appendMutations s.remote.journal deviceId revision timestamp mutations 512
    .ok (result, { s with remote := { s.remote with journal := file } })) >>= fun result =>
  match result with
  | .error message => Prog.throw (.own (.journal message))
  | .ok generation => pure generation

/-- `_record_committed_journal_generation`. -/
def recordCommittedJournalGeneration (generation : ℕ) : CommitProg Unit :=
  swallowing (onIndex (updateJournalGeneration generation) >>= fun _ => pure ())

/-- One attempt to append: the generation, or the error that is not fatal yet. -/
def appendAttempt (deviceId revision timestamp : String) (mutations : List Journal.Mutation) :
    CommitProg (Except (Exn Interruption CommitError) ℕ) :=
  Prog.tryCatch
    (appendRemoteJournal deviceId revision timestamp mutations >>= fun generation =>
      pure (Except.ok generation))
    (fun error =>
      match error with
      | .external .interrupt => Prog.throw error
      | _ => pure (Except.error error))

/-- The loop of `append_compatibility_journal`: the appended generation, or the last error. -/
def appendAttempts (deviceId revision timestamp : String) (mutations : List Journal.Mutation) :
    ℕ → Exn Interruption CommitError → CommitProg (Except (Exn Interruption CommitError) ℕ)
  | 0, lastError => pure (Except.error lastError)
  | attempts + 1, _ =>
    appendAttempt deviceId revision timestamp mutations >>= fun result =>
    match result with
    | .ok generation =>
      recordCommittedJournalGeneration generation >>= fun _ =>
      advance .journaled >>= fun _ => pure (Except.ok generation)
    | .error error => appendAttempts deviceId revision timestamp mutations attempts error

/-- `append_compatibility_journal`: three attempts, fatal only where nothing was published. -/
def appendCompatibilityJournal (revision timestamp : String) (mutations : List Journal.Mutation) :
    CommitProg (Option ℕ) :=
  if mutations = [] then pure none
  else
    look >>= fun s =>
    appendAttempts s.commit.deviceId revision timestamp mutations 3 (.external .ioError) >>=
      fun result =>
    match result with
    | .ok generation => pure (some generation)
    | .error error => if s.commit.indexCommitted then pure none else Prog.throw error

/-- `_RemoteCommit.close`: the intent of a deferred commit stays. -/
def close : CommitProg Unit :=
  look >>= fun s =>
  if s.commit.intent.isNone ∨ s.commit.deferred then pure ()
  else clearIntent >>= fun _ => note (fun commit => { commit with intent := none })

/-- `_RemoteCommit.abandon`. -/
def abandon : CommitProg Unit :=
  look >>= fun s => if s.commit.indexCommitted then pure () else close

end RomCloud.SaveSync.Commit
