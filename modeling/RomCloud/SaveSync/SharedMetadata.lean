import RomCloud.Lib.PyJson

namespace RomCloud.SaveSync.SharedMetadata

open RomCloud.Lib

/-!
# The shared documents of save synchronization

Other devices and other versions write the journal, HEAD, the shards, the ownership marker and the
intent.  Each has a reader that checks every field before it uses it, and fails with
`SaveSyncError` where a check does.

* `Content` — what a file holds, as far as a reader can tell;
* `Interpreter` — the recursion limits, `repr`, `json.dumps` and SHA-256;
* `LoadError` — a `SaveSyncError`, or whatever else was raised;
* `Journal.load`, `Journal.loadOrReset` — `savesync_journal`;
* `loadHead`, `loadShard`, `loadOwnership` — `savesync_index`;
* `loadIntent` — `savesync_commit`.
-/

/-! ### The interpreter -/

def text (s : String) : PyText := PyText.ofString s

/-- `payload.get(key)`. -/
def get (fields : List (PyText × PyJson)) (key : String) : PyJson := PyJson.getOr fields key .null

/-- `[0-9a-f]{64}`. -/
def isSha256Hex (t : PyText) : Bool :=
  t.length == 64 && t.all fun c => (48 ≤ c && c ≤ 57) || (97 ≤ c && c ≤ 102)

/-- The interpreter. Recursion ends at some depth of its own in the JSON scanner, in the JSON writer
    and in `repr`. -/
structure Interpreter where
  scanDepth : ℕ
  dumpDepth : ℕ
  reprDepth : ℕ
  /-- The documents that are written fit. -/
  scans : 5 ≤ scanDepth
  dumps : 5 ≤ dumpDepth
  /-- `repr(value)`, where it ends. -/
  render : PyJson → PyText
  /-- The bytes of `json.dumps(value, indent=2, sort_keys=True) + "\n"`, which are ASCII. -/
  canonical : PyJson → List ℕ
  /-- `hashlib.sha256(data).hexdigest()`. -/
  sha256 : List ℕ → PyText
  digests : ∀ data, isSha256Hex (sha256 data) = true

inductive LoadError
  /-- A `SaveSyncError`, with its message. -/
  | saveSync (message : PyText)
  | raised (e : PyError)

def fail {α : Type} (message : PyText) : Except LoadError α := .error (.saveSync message)

/-- An exception that no handler took. -/
def raising {α : Type} : Except PyError α → Except LoadError α
  | .ok a => .ok a
  | .error e => .error (.raised e)

/-! ### Files -/

/-- A text that was read: JSON, or not JSON from some depth on. -/
inductive Document
  | malformed (depth : ℕ)
  | json (value : PyJson)

/-- A file: the system refuses to read it, it is not UTF-8, or there is a text. -/
inductive Content
  | unreadable
  | undecodable
  | text (document : Document)

/-- `path.read_text(encoding="utf-8")`. -/
def Content.readText : Content → Except PyError Document
  | .unreadable => .error .osError
  | .undecodable => .error .valueError
  | .text document => .ok document

namespace Interpreter

variable (I : Interpreter)

/-- `json.loads(text)`. -/
def loads : Document → Except PyError PyJson
  | .malformed depth => if I.scanDepth < depth then .error .recursionError else .error .valueError
  | .json value => if I.scanDepth < value.depth then .error .recursionError else .ok value

/-- `f"{value!r}"`. -/
def repr (value : PyJson) : Except LoadError PyText :=
  if I.reprDepth < value.depth then .error (.raised .recursionError) else .ok (I.render value)

/-- `f"{text!r}"`. -/
def quoted (t : PyText) : PyText := I.render (.str t)

/-- `str(value)`. -/
def str : PyJson → Except LoadError PyText
  | .str t => .ok t
  | value => I.repr value

end Interpreter

/-- `except …: raise SaveSyncError(message)`. -/
def handledAs {α : Type} (caught : PyError → Bool) (message : PyText) :
    Except PyError α → Except LoadError α
  | .ok a => .ok a
  | .error e => if caught e then fail message else .error (.raised e)

/-- `except (OSError, ValueError)`. -/
def fileErrors : PyError → Bool
  | .osError => true
  | .valueError => true
  | _ => false

/-- `json.loads(path.read_text(encoding="utf-8"))`, where both kinds of error mean that the file is
    corrupt. -/
def Interpreter.readJson (I : Interpreter) (corrupt : PyText) (content : Content) :
    Except LoadError PyJson :=
  handledAs fileErrors corrupt (content.readText >>= I.loads)

/-! ### Fields -/

/-- `if not isinstance(value, dict): raise`. -/
def dictOr (value : PyJson) (message : PyText) : Except LoadError (List (PyText × PyJson)) :=
  match value with
  | .dict fields => .ok fields
  | _ => fail message

def listOr (value : PyJson) (message : PyText) : Except LoadError (List PyJson) :=
  match value with
  | .list items => .ok items
  | _ => fail message

/-- An integer that is no Boolean and not below `least`. -/
def intFrom (least : ℤ) (value : PyJson) (message : PyText) : Except LoadError ℤ :=
  match value with
  | .int n => if n < least then fail message else .ok n
  | _ => fail message

/-- A text for which `bad` does not hold. -/
def textUnless (bad : PyText → Bool) (value : PyJson) (message : PyText) :
    Except LoadError PyText :=
  match value with
  | .str t => if bad t then fail message else .ok t
  | _ => fail message

/-- `if value not in {…}: raise`. The set hashes the value first. -/
def nameIn (names : List String) (value : PyJson) (message : PyText) : Except LoadError PyText :=
  match value with
  | .list _ => .error (.raised .typeError)
  | .dict _ => .error (.raised .typeError)
  | .str t => if names.any (text · == t) then .ok t else fail message
  | _ => fail message

/-- `if version != SCHEMA_VERSION: raise SaveSyncError(f"…{version!r}…")`. -/
def checkVersion (I : Interpreter) (version : PyJson) (before after : PyText) :
    Except LoadError Unit :=
  if version.isOne then .ok ()
  else do
    let shown ← I.repr version
    fail (before ++ shown ++ after)

/-! ### The journal -/

namespace Journal

structure Entry where
  generation : ℤ
  timestamp : PyText
  deviceId : PyText
  revision : PyText
  system : PyText
  layoutId : PyText
  groupId : Option PyText
  objectId : Option PyText
  operation : PyText

structure Validated where
  generation : ℤ
  history : List Entry

def requiredText (value : PyJson) (label : String) : Except LoadError PyText :=
  textUnless PyText.blank value (text label ++ text " must be non-empty text")

def optionalText (value : PyJson) : Except LoadError (Option PyText) :=
  match value with
  | .null => .ok none
  | .str t => .ok (if t.strip.isEmpty then none else some t.strip)
  | _ => fail (text "SaveSync journal optional text field is invalid")

def requiredOperation (value : PyJson) : Except LoadError PyText :=
  nameIn ["create", "update", "delete"] value
    (text "SaveSync journal operation must be create/update/delete")

/-- The entry at an index, after a generation. -/
def validateEntry (index : ℕ) (last : ℤ) (item : PyJson) : Except LoadError Entry := do
  let here := text "SaveSync journal entry " ++ text (toString index)
  let fields ← dictOr item (here ++ text " is invalid")
  let generation ← intFrom 1 (get fields "generation") (here ++ text " generation is invalid")
  if generation ≤ last then
    fail (text "SaveSync journal history must be strictly increasing")
  else
    let timestamp ← requiredText (get fields "timestamp") "entry.timestamp"
    let deviceId ← requiredText (get fields "device_id") "entry.device_id"
    let revision ← requiredText (get fields "revision") "entry.revision"
    let system ← requiredText (get fields "system") "entry.system"
    let layoutId ← requiredText (get fields "layout_id") "entry.layout_id"
    let groupId ← optionalText (get fields "group_id")
    let objectId ← optionalText (get fields "object_id")
    let operation ← requiredOperation (get fields "operation")
    .ok ⟨generation, timestamp, deviceId, revision, system, layoutId, groupId, objectId, operation⟩

/-- The generation of the last entry. -/
def lastGeneration (entries : List Entry) : ℤ := (entries.getLast?.map Entry.generation).getD 0

/-- One step of the loop over the history: the entries so far, and one more. -/
def historyStep (normalized : List Entry) (item : PyJson) : Except LoadError (List Entry) := do
  let entry ← validateEntry normalized.length (lastGeneration normalized) item
  .ok (normalized ++ [entry])

def validateDocument (I : Interpreter) (path : PyText) (payload : PyJson) :
    Except LoadError Validated := do
  let fields ← dictOr payload (text "SaveSync journal is invalid: " ++ path)
  checkVersion I (get fields "schema_version") (text "SaveSync journal schema version ")
    (text " is not supported")
  let generation ← intFrom 0 (get fields "generation")
    (text "SaveSync journal generation must be a non-negative integer")
  let history ← listOr (get fields "history") (text "SaveSync journal history must be a list")
  let normalized ← history.foldlM historyStep []
  if generation < lastGeneration normalized then
    fail (text "SaveSync journal generation is behind retained history")
  else .ok ⟨generation, normalized⟩

/-- No entry was made. -/
def empty : Validated := ⟨0, []⟩

def optionalJson : Option PyText → PyJson
  | none => .null
  | some t => .str t

def Entry.toJson (entry : Entry) : PyJson :=
  .dict [(text "device_id", .str entry.deviceId), (text "generation", .int entry.generation),
    (text "group_id", optionalJson entry.groupId), (text "layout_id", .str entry.layoutId),
    (text "object_id", optionalJson entry.objectId), (text "operation", .str entry.operation),
    (text "revision", .str entry.revision), (text "system", .str entry.system),
    (text "timestamp", .str entry.timestamp)]

def Validated.toJson (document : Validated) : PyJson :=
  .dict [(text "generation", .int document.generation),
    (text "history", .list (document.history.map Entry.toJson)),
    (text "schema_version", .int 1)]

def load (I : Interpreter) (path : PyText) : Option Content → Except LoadError Validated
  | none => .ok empty
  | some content => do
    let payload ← I.readJson (text "SaveSync journal is corrupt: " ++ path) content
    validateDocument I path payload

/-- The journal, and what is set aside beside it. -/
structure Files where
  journal : Option Content
  corrupt : Option Content

/-- `save`: the text that is written. -/
def save (I : Interpreter) (path : PyText) (document : PyJson) : Except LoadError Content := do
  let validated ← validateDocument I path document
  if I.dumpDepth < validated.toJson.depth then .error (.raised .recursionError)
  else .ok (.text (.json validated.toJson))

/-- `load_or_reset`. A file that cannot be moved away is written over. -/
def loadOrReset (I : Interpreter) (path : PyText) (movable : Bool) (files : Files) :
    Except LoadError Validated × Files :=
  match load I path files.journal with
  | .ok document => (.ok document, files)
  | .error (.raised e) => (.error (.raised e), files)
  | .error (.saveSync _) =>
    let moved : Files :=
      if files.journal.isSome && movable then ⟨none, files.journal⟩ else files
    match save I path empty.toJson with
    | .ok content => (.ok empty, { moved with journal := some content })
    | .error e => (.error e, moved)

end Journal

/-! ### The index -/

namespace Index

structure Artifact where
  path : PyText
  sizeBytes : ℤ
  sha256 : PyText

structure Group where
  groupId : PyText
  layoutId : PyText
  system : PyText
  groupGeneration : ℤ
  artifacts : List Artifact
  tombstoned : Bool
  originDevice : PyText
  completedTransactionId : Option PyText
  containerHead : Option PyText

structure Shard where
  schemaVersion : PyJson
  datasetId : PyText
  layoutId : PyText
  generation : ℤ
  groups : List Group

structure LayoutHead where
  generation : ℤ
  object : PyText
  digest : PyText

structure Head where
  schemaVersion : PyJson
  datasetId : PyText
  indexGeneration : ℤ
  journalGeneration : ℤ
  layouts : List (PyText × LayoutHead)

structure OwnershipMarker where
  schemaVersion : PyJson
  protocolVersion : ℤ
  datasetId : PyText
  establishedAt : PyText
  establishedByDevice : PyText

/-- What one artifact adds to the digest. -/
def artifactBytes (artifact : Artifact) : Except PyError (List ℕ) := do
  let path ← artifact.path.encodeUtf8
  let sha256 ← artifact.sha256.encodeAscii
  .ok (path ++ [0] ++ text (toString artifact.sizeBytes) ++ [0] ++ sha256 ++ [10])

/-- `compute_manifest_hash`. -/
def computeManifestHash (I : Interpreter) (artifacts : List Artifact) : Except PyError PyText := do
  let parts ← mapEach artifactBytes
    (artifacts.mergeSort fun a b => PyText.notAfter a.path b.path)
  .ok (I.sha256 parts.flatten)

def nonemptyText (value : PyJson) (label : String) : Except LoadError PyText :=
  textUnless PyText.blank value
    (text "SaveSync index " ++ text label ++ text " must be non-empty text")

def nonnegInt (value : PyJson) (label : String) : Except LoadError ℤ :=
  intFrom 0 value
    (text "SaveSync index " ++ text label ++ text " must be a non-negative integer")

def sha256Hex (value : PyJson) (label : String) : Except LoadError PyText :=
  textUnless (fun t => !isSha256Hex t) value
    (text "SaveSync index " ++ text label ++ text " must be a sha256 hex digest")

/-- `[A-Za-z0-9_-]+`. -/
def isSafeLayoutId (t : PyText) : Bool :=
  !t.isEmpty && t.all fun c =>
    (65 ≤ c && c ≤ 90) || (97 ≤ c && c ≤ 122) || (48 ≤ c && c ≤ 57) || c == 95 || c == 45

def safeLayoutId (I : Interpreter) (layoutId : PyText) : Except LoadError PyText :=
  if isSafeLayoutId layoutId then .ok layoutId
  else fail (text "Unsafe SaveSync index layout ID: " ++ I.quoted layoutId)

/-- The parts of a path between its slashes. -/
def parts (path : PyText) : List PyText := path.splitOn 47

/-- A backslash, a slash at an end, or an empty part, `.` or `..`. -/
def isUnsafePath (path : PyText) : Bool :=
  path.contains 92 || path.head? == some 47 || path.getLast? == some 47
    || (parts path).any fun part => part == [] || part == [46] || part == [46, 46]

/-- The path is the system's folder, or in it. -/
def isWithin (system path : PyText) : Bool :=
  path == system || (system ++ [47]).isPrefixOf path

def canonicalArtifactPath (I : Interpreter) (system : PyText) (value : PyJson) :
    Except LoadError PyText := do
  let path ← textUnless List.isEmpty value
    (text "SaveSync index artifact path must be non-empty text")
  if isUnsafePath path then
    fail (text "Unsafe SaveSync index artifact path: " ++ I.quoted path)
  else if isWithin system path then .ok path
  else
    fail (text "SaveSync index artifact path " ++ I.quoted path
      ++ text " is outside its group's system " ++ I.quoted system)

def artifactFromDict (I : Interpreter) (system : PyText) (payload : PyJson) :
    Except LoadError Artifact := do
  let fields ← dictOr payload (text "SaveSync index artifact entry must be an object")
  let path ← canonicalArtifactPath I system (get fields "path")
  let sizeBytes ← nonnegInt (get fields "size_bytes") "artifact.size_bytes"
  let sha256 ← sha256Hex (get fields "sha256") "artifact.sha256"
  .ok ⟨path, sizeBytes, sha256⟩

/-- One step of the loop over the artifacts of a group. -/
def artifactStep (I : Interpreter) (groupId system : PyText) (artifacts : List Artifact)
    (entry : PyJson) : Except LoadError (List Artifact) := do
  let artifact ← artifactFromDict I system entry
  if (artifacts.map Artifact.path).contains artifact.path then
    fail (text "SaveSync index group " ++ I.quoted groupId
      ++ text " has a duplicate artifact path: " ++ I.quoted artifact.path)
  else .ok (artifacts ++ [artifact])

/-- `str(payload.get("origin_device") or "")`. -/
def originDevice (I : Interpreter) (value : PyJson) : Except LoadError PyText :=
  if value.truthy then I.str value else .ok []

def optionalNonempty (value : PyJson) (label : String) : Except LoadError (Option PyText) :=
  match value with
  | .null => .ok none
  | value => do
    let t ← nonemptyText value label
    .ok (some t)

/-- `_group_from_dict`, up to the digest: the group, and the digest it declares. -/
def groupFields (I : Interpreter) (layoutId groupId : PyText) (payload : PyJson) :
    Except LoadError (Group × PyText) := do
  let here := text "SaveSync index group " ++ I.quoted groupId
  let fields ← dictOr payload (here ++ text " must be an object")
  require ((layoutId ++ [47]).isPrefixOf groupId = true)
    (.saveSync (text "SaveSync index group ID " ++ I.quoted groupId
      ++ text " does not belong to layout " ++ I.quoted layoutId))
  let declared ← nonemptyText (get fields "layout_id") "group.layout_id"
  require (declared = layoutId)
    (.saveSync (here ++ text " layout_id " ++ I.quoted declared
      ++ text " does not match its shard's layout " ++ I.quoted layoutId))
  let system ← nonemptyText (get fields "system") "group.system"
  let entries ← listOr (get fields "artifacts") (here ++ text " artifacts must be a list")
  let artifacts ← entries.foldlM (artifactStep I groupId system) []
  let groupGeneration ← nonnegInt (get fields "group_generation") "group.group_generation"
  let tombstoned := (PyJson.getOr fields "tombstoned" (.bool false)).truthy
  let origin ← originDevice I (get fields "origin_device")
  let completed ← optionalNonempty (get fields "completed_transaction_id")
    "group.completed_transaction_id"
  let container ← optionalNonempty (get fields "container_head") "group.container_head"
  let declaredHash ← sha256Hex (get fields "manifest_hash") "group.manifest_hash"
  .ok (⟨groupId, layoutId, system, groupGeneration, artifacts, tombstoned, origin, completed,
    container⟩, declaredHash)

/-- `_group_from_dict`. -/
def groupFromDict (I : Interpreter) (layoutId groupId : PyText) (payload : PyJson) :
    Except LoadError Group := do
  let (group, declaredHash) ← groupFields I layoutId groupId payload
  let manifestHash ← raising (computeManifestHash I group.artifacts)
  require (declaredHash = manifestHash)
    (.saveSync (text "SaveSync index group " ++ I.quoted groupId
      ++ text " manifest_hash does not match its artifacts"))
  require (group.tombstoned = false ∨ group.artifacts = [])
    (.saveSync (text "SaveSync index group " ++ I.quoted groupId
      ++ text " cannot be tombstoned with artifacts present"))
  .ok group

def validateShardDocument (I : Interpreter) (path : PyText) (payload : PyJson) :
    Except LoadError Shard := do
  let fields ← dictOr payload (text "SaveSync index shard is invalid: " ++ path)
  let version := get fields "schema_version"
  checkVersion I version (text "SaveSync index shard schema version ")
    (text " is not supported: " ++ path)
  let datasetId ← nonemptyText (get fields "dataset_id") "shard.dataset_id"
  let declared ← nonemptyText (get fields "layout_id") "shard.layout_id"
  let layoutId ← safeLayoutId I declared
  let generation ← intFrom 1 (get fields "generation")
    (text "SaveSync index shard generation must be a positive integer: " ++ path)
  let rawGroups ← dictOr (get fields "groups")
    (text "SaveSync index shard groups must be an object: " ++ path)
  let groups ← mapEach (fun entry => groupFromDict I layoutId entry.1 entry.2) rawGroups
  .ok ⟨version, datasetId, layoutId, generation, groups⟩

/-- `path.read_text()` under `except OSError`: a name the system does not take is refused by
    Python. -/
def readShard (path object : PyText) (file : Option Content) : Except LoadError Document :=
  if object.isFileName then
    handledAs (· == .osError) (text "Cannot read SaveSync index shard: " ++ path)
      (match file with
        | none => .error .osError
        | some content => content.readText)
  else .error (.raised .valueError)

/-- `hashlib.sha256(_canonical_json(payload).encode("utf-8")).hexdigest()`. -/
def documentDigest (I : Interpreter) (payload : PyJson) : Except LoadError PyText :=
  if I.dumpDepth < payload.depth then .error (.raised .recursionError)
  else .ok (I.sha256 (I.canonical payload))

def loadShard (I : Interpreter) (path layoutId : PyText) (layoutHead : LayoutHead)
    (file : Option Content) : Except LoadError Shard := do
  let raw ← readShard path layoutHead.object file
  let payload ← handledAs (· == .valueError) (text "SaveSync index shard is corrupt: " ++ path)
    (I.loads raw)
  let digest ← documentDigest I payload
  require (digest = layoutHead.digest)
    (.saveSync (text "SaveSync index shard digest mismatch: " ++ path))
  let shard ← validateShardDocument I path payload
  require (shard.layoutId = layoutId ∧ shard.generation = layoutHead.generation)
    (.saveSync (text "SaveSync index shard identity mismatch: " ++ path))
  .ok shard

def layoutHeadFromDict (I : Interpreter) (layoutId : PyText) (payload : PyJson) :
    Except LoadError LayoutHead := do
  let here := text "SaveSync index HEAD layout " ++ I.quoted layoutId
  let fields ← dictOr payload
    (text "SaveSync index HEAD layout entry " ++ I.quoted layoutId ++ text " must be an object")
  let generation ← intFrom 1 (get fields "generation")
    (here ++ text " generation must be a positive integer")
  let object ← nonemptyText (get fields "object") "HEAD layout.object"
  let layoutId ← safeLayoutId I layoutId
  require ((layoutId ++ [46]).isPrefixOf object = true ∧ object.contains 47 = false
      ∧ object.contains 92 = false)
    (.saveSync (here ++ text " object name is unsafe: " ++ I.quoted object))
  let digest ← sha256Hex (get fields "digest") "HEAD layout.digest"
  .ok ⟨generation, object, digest⟩

/-- One item of the dictionary of layouts: its key is evaluated first. -/
def headLayout (I : Interpreter) (entry : PyText × PyJson) :
    Except LoadError (PyText × LayoutHead) := do
  let layoutId ← safeLayoutId I entry.1
  let layoutHead ← layoutHeadFromDict I entry.1 entry.2
  .ok (layoutId, layoutHead)

def validateHeadDocument (I : Interpreter) (path : PyText) (payload : PyJson) :
    Except LoadError Head := do
  let fields ← dictOr payload (text "SaveSync index HEAD is invalid: " ++ path)
  let version := get fields "schema_version"
  checkVersion I version (text "SaveSync index HEAD schema version ")
    (text " is not supported: " ++ path)
  let datasetId ← nonemptyText (get fields "dataset_id") "HEAD.dataset_id"
  let indexGeneration ← nonnegInt (get fields "index_generation") "HEAD.index_generation"
  let journalGeneration ← nonnegInt (get fields "journal_generation") "HEAD.journal_generation"
  let rawLayouts ← dictOr (get fields "layouts")
    (text "SaveSync index HEAD layouts must be an object: " ++ path)
  let layouts ← mapEach (headLayout I) rawLayouts
  .ok ⟨version, datasetId, indexGeneration, journalGeneration, layouts⟩

def loadHead (I : Interpreter) (path : PyText) :
    Option Content → Except LoadError (Option Head)
  | none => .ok none
  | some content => do
    let payload ← I.readJson (text "SaveSync index HEAD is corrupt: " ++ path) content
    let head ← validateHeadDocument I path payload
    .ok (some head)

def protocolVersion : ℤ := 1

def ownershipText (fields : List (PyText × PyJson)) (key : String) : Except LoadError PyText :=
  textUnless PyText.blank (get fields key)
    (text "SaveSync ownership marker " ++ text key ++ text " must be non-empty text")

def validateOwnershipDocument (I : Interpreter) (path : PyText) (payload : PyJson) :
    Except LoadError OwnershipMarker := do
  let fields ← dictOr payload (text "SaveSync ownership marker is invalid: " ++ path)
  let version := get fields "schema_version"
  checkVersion I version (text "SaveSync ownership marker schema version ")
    (text " is not supported: " ++ path)
  let protocol ← intFrom 1 (get fields "protocol_version")
    (text "SaveSync ownership marker protocol_version is invalid: " ++ path)
  require (protocol ≤ protocolVersion)
    (.saveSync (text "SaveSync remote dataset uses protocol version " ++ text (toString protocol)
      ++ text ", newer than this build's " ++ text (toString protocolVersion) ++ text ": " ++ path))
  let datasetId ← ownershipText fields "dataset_id"
  let establishedAt ← ownershipText fields "established_at"
  let establishedByDevice ← ownershipText fields "established_by_device"
  .ok ⟨version, protocol, datasetId, establishedAt, establishedByDevice⟩

def loadOwnership (I : Interpreter) (path : PyText) :
    Option Content → Except LoadError (Option OwnershipMarker)
  | none => .ok none
  | some content => do
    let payload ← I.readJson (text "SaveSync ownership marker is corrupt: " ++ path) content
    let marker ← validateOwnershipDocument I path payload
    .ok (some marker)

end Index

/-! ### The intent -/

namespace Intent

open Index (Artifact computeManifestHash)

structure Group where
  groupId : PyText
  layoutId : PyText
  system : PyText
  expectedGroupGeneration : ℤ
  before : List Artifact
  desired : List Artifact

structure CommitIntent where
  schemaVersion : PyJson
  operationId : PyText
  originDevice : PyText
  datasetId : PyText
  baseIndexGeneration : ℤ
  baseJournalGeneration : ℤ
  phase : PyText
  startedAt : PyText
  groups : List Group
  publicationScope : PyText

/-- The values of `IntentPhase`. -/
def phases : List String :=
  ["prepared", "promoting", "payload-verified", "index-published", "journaled"]

/-- The values of `PublicationScope`. -/
def scopes : List String := ["group", "full-sync"]

/-- One step of the loop of `_artifacts_from_list`. -/
def artifactStep (I : Interpreter) (label : String) (artifacts : List Artifact) (entry : PyJson) :
    Except LoadError (List Artifact) := do
  let here := text "SaveSync intent " ++ text label
  let fields ← dictOr entry (here ++ text " entry must be an object")
  let path ← textUnless List.isEmpty (get fields "path")
    (here ++ text " path must be non-empty text")
  require ((artifacts.map Artifact.path).contains path = false)
    (.saveSync (here ++ text " has a duplicate path: " ++ I.quoted path))
  let sizeBytes ← intFrom 0 (get fields "size_bytes")
    (here ++ text " size_bytes must be a non-negative integer")
  let sha256 ← textUnless (fun t => t.length != 64) (get fields "sha256")
    (here ++ text " sha256 must be a sha256 hex digest")
  .ok (artifacts ++ [⟨path, sizeBytes, sha256⟩])

def artifactsFromList (I : Interpreter) (label : String) (payload : PyJson) :
    Except LoadError (List Artifact) := do
  let entries ← listOr payload (text "SaveSync intent " ++ text label ++ text " must be a list")
  entries.foldlM (artifactStep I label) []

/-- What an intent declares of a group, before its digests are computed. -/
def groupFields (I : Interpreter) (path : PyText) (groups : List Group) (entry : PyJson) :
    Except LoadError (Group × PyJson × PyJson) := do
  let fields ← dictOr entry (text "SaveSync intent group must be an object: " ++ path)
  let groupId ← textUnless List.isEmpty (get fields "group_id")
    (text "SaveSync intent group_id must be non-empty text")
  require ((groups.map Group.groupId).contains groupId = false)
    (.saveSync (text "SaveSync intent has a duplicate group: " ++ I.quoted groupId))
  let layoutId ← textUnless List.isEmpty (get fields "layout_id")
    (text "SaveSync intent layout_id must be non-empty text")
  let system ← textUnless List.isEmpty (get fields "system")
    (text "SaveSync intent system must be non-empty text")
  let expected ← intFrom 0 (get fields "expected_group_generation")
    (text "SaveSync intent expected_group_generation must be a non-negative integer")
  let before ← artifactsFromList I "group.before" (get fields "before")
  let desired ← artifactsFromList I "group.desired" (get fields "desired")
  .ok (⟨groupId, layoutId, system, expected, before, desired⟩,
    get fields "before_manifest_hash", get fields "desired_manifest_hash")

/-- `declared != actual`, for a text that was computed. -/
def declares (declared : PyJson) (actual : PyText) : Bool :=
  match declared with
  | .str t => t == actual
  | _ => false

/-- One step of the loop over the groups. Both digests are computed before either is compared. -/
def groupStep (I : Interpreter) (path : PyText) (groups : List Group) (entry : PyJson) :
    Except LoadError (List Group) := do
  let (group, declaredBefore, declaredDesired) ← groupFields I path groups entry
  let beforeHash ← raising (computeManifestHash I group.before)
  let desiredHash ← raising (computeManifestHash I group.desired)
  let here := text "SaveSync intent group " ++ I.quoted group.groupId
  require (declares declaredBefore beforeHash = true)
    (.saveSync (here ++ text " before_manifest_hash does not match its manifest"))
  require (declares declaredDesired desiredHash = true)
    (.saveSync (here ++ text " desired_manifest_hash does not match its manifest"))
  .ok (groups ++ [group])

def intentText (fields : List (PyText × PyJson)) (key : String) : Except LoadError PyText :=
  textUnless PyText.blank (get fields key)
    (text "SaveSync intent " ++ text key ++ text " must be non-empty text")

def intentGeneration (fields : List (PyText × PyJson)) (key : String) : Except LoadError ℤ :=
  intFrom 0 (get fields key)
    (text "SaveSync intent " ++ text key ++ text " must be a non-negative integer")

def intentFromDict (I : Interpreter) (path : PyText) (payload : PyJson) :
    Except LoadError CommitIntent := do
  let fields ← dictOr payload (text "SaveSync intent is invalid: " ++ path)
  let version := get fields "schema_version"
  checkVersion I version (text "SaveSync intent schema version ")
    (text " is not supported: " ++ path)
  let phase ← nameIn phases (get fields "phase")
    (text "SaveSync intent phase " ++ I.render (get fields "phase")
      ++ text " is not recognized: " ++ path)
  let scope := PyJson.getOr fields "publication_scope" (.str (text "group"))
  let publicationScope ← nameIn scopes scope
    (text "SaveSync intent publication_scope " ++ I.render scope
      ++ text " is not recognized: " ++ path)
  let rawGroups ← listOr (get fields "groups")
    (text "SaveSync intent groups must be a list: " ++ path)
  let groups ← rawGroups.foldlM (groupStep I path) []
  let operationId ← intentText fields "operation_id"
  let originDevice ← intentText fields "origin_device"
  let datasetId ← intentText fields "dataset_id"
  let baseIndexGeneration ← intentGeneration fields "base_index_generation"
  let baseJournalGeneration ← intentGeneration fields "base_journal_generation"
  let startedAt ← intentText fields "started_at"
  .ok ⟨version, operationId, originDevice, datasetId, baseIndexGeneration, baseJournalGeneration,
    phase, startedAt, groups, publicationScope⟩

def loadIntent (I : Interpreter) (path : PyText) :
    Option Content → Except LoadError (Option CommitIntent)
  | none => .ok none
  | some content => do
    let payload ← I.readJson (text "SaveSync intent is corrupt: " ++ path) content
    let intent ← intentFromDict I path payload
    .ok (some intent)

end Intent

end RomCloud.SaveSync.SharedMetadata
