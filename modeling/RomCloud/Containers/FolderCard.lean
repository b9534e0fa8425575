import RomCloud.Containers.Ps1Card
import RomCloud.Lib.Dict
import RomCloud.SaveSync.Container

namespace RomCloud.Containers

open Lib
open SaveSync (ContainerEntry ContainerSnapshot sortedByIdentity)

/-!
# PCSX2 folder cards

A folder memory card is a directory with a marker file.  Each directory at its top is a save, whose
hash covers the files and the directories below it.

* `CardNode`, `FolderCard` — the nodes of a card;
* `treeRecords`, `entryHash`, `snapshot` — what the adapter reads;
* `GroupingPolicy` — the merge domains of the saves, with the two policies of the adapter;
* `findTop`, `extractEntry` — a save of a card, for another one.

The digest function is a parameter.  While a container is reconciled, no one else writes to it.
-/

/-- The names from the card on; the card itself is the empty path. -/
abbrev CardPath := List Bytes

inductive CardNode
  | file (content : Bytes)
  | directory
  /-- A symbolic link, wherever it leads. -/
  | symlink
  /-- Anything else: a device, a socket, a pipe. -/
  | special
deriving DecidableEq

/-- What stands at the path of a card, and below it. -/
structure FolderCard where
  nodes : Dict CardPath CardNode
  /-- Only directories hold nodes. -/
  parents : ∀ path name, nodes.get? (path ++ [name]) ≠ none → nodes.get? path = some .directory

/-- `PCSX2_FOLDER_CARD_MARKER`. -/
def marker : Bytes := "_pcsx2_superblock".toList.map fun c => UInt8.ofNat c.toNat

def unsupported : Raised := .opaqueContainer .unsupportedFormat ""
def substituted : Raised := .opaqueContainer .symlinkOrPathSubstitution ""
def sourceChanged : Raised := .opaqueContainer .sourceChangedDuringStaging ""
def ambiguousGrouping : Raised := .opaqueContainer .ambiguousPs2FolderGrouping ""

namespace FolderCard

theorem mem_keys (card : FolderCard) {path : CardPath} (h : card.nodes.get? path ≠ none) :
    path ∈ card.nodes.keys := by
  by_contra hmem
  exact h ((card.nodes.get?_eq_none_iff path).mpr hmem)

/-- A card from what is at its paths. -/
def ofLookup (paths : List CardPath) (look : CardPath → Option CardNode)
    (covers : ∀ path, look path ≠ none → path ∈ paths)
    (parents : ∀ path name, look (path ++ [name]) ≠ none → look path = some .directory) :
    FolderCard where
  nodes := Dict.ofKeys paths look
  parents path name h := by
    rw [Dict.get?_ofKeys] at h ⊢
    have hname : look (path ++ [name]) ≠ none := by
      intro hnone
      exact h (by rw [hnone, ite_self])
    have hpath := parents path name hname
    rw [if_pos (covers path (by rw [hpath]; exact Option.some_ne_none _)), hpath]

@[simp] theorem get?_ofLookup {paths : List CardPath} {look : CardPath → Option CardNode}
    (covers : ∀ path, look path ≠ none → path ∈ paths)
    (parents : ∀ path name, look (path ++ [name]) ≠ none → look path = some .directory)
    (path : CardPath) : (ofLookup paths look covers parents).nodes.get? path = look path := by
  rw [ofLookup, Dict.get?_ofKeys]
  by_cases hpath : path ∈ paths
  · rw [if_pos hpath]
  · rw [if_neg hpath]
    by_contra hnone
    exact hpath (covers path (Ne.symm hnone))

/-- `path.iterdir()` in the order of the names, with what stands there. -/
def children (card : FolderCard) (directory : CardPath) : List (Bytes × CardNode) :=
  (card.nodes.restrict fun path => path ≠ [] ∧ path.dropLast = directory).entries.map fun e =>
    (e.1.getLastD [], e.2)

/-- The directories at or below a top directory, from it on: each before those in it. -/
def directoriesBelow (card : FolderCard) (top : Bytes) : List CardPath :=
  ((card.nodes.restrict fun path => path.head? = some top).entries.filter fun e =>
    e.2 = .directory).map fun e => e.1.tail

def checkChild (child : Bytes × CardNode) : Except Raised Unit :=
  match child.2 with
  | .symlink => .error substituted
  | .special => .error unsupported
  | _ => .ok ()

/-- `_safe_children`. -/
def safeChildren (card : FolderCard) (directory : CardPath) :
    Except Raised (List (Bytes × CardNode)) := do
  checkAll checkChild (card.children directory)
  return card.children directory

def isFile (card : FolderCard) (path : CardPath) : Bool :=
  match card.nodes.get? path with
  | some (.file _) => true
  | _ => false

/-- `_top_directories`. -/
def topDirectories (card : FolderCard) : Except Raised (List Bytes) := do
  require (card.nodes.get? [] = some .directory) unsupported
  require (card.isFile [marker] = true) unsupported
  let children ← card.safeChildren []
  return (children.filter fun child => child.1 ≠ marker ∧ child.2 = .directory).map Prod.fst

end FolderCard

/-! ### Records -/

/-- `b"/".join(relative)`. -/
def joined (relative : CardPath) : Bytes := [0x2F].intercalate relative

inductive Record
  | directory (relative : Bytes)
  | file (relative content : Bytes)
deriving DecidableEq

def Record.relative : Record → Bytes
  | directory relative => relative
  | file relative _ => relative

/-- `kind.encode("ascii")`. -/
def Record.kind : Record → UInt8
  | directory _ => 0x64
  | file _ _ => 0x66

def Record.isFile : Record → Bool
  | directory _ => false
  | file _ _ => true

def Record.size : Record → ℕ
  | directory _ => 0
  | file _ content => content.length

/-- The order of the path, then of the kind. -/
def Record.le (a b : Record) : Prop :=
  a.relative < b.relative ∨ a.relative = b.relative ∧ a.kind ≤ b.kind

instance : DecidableRel Record.le := fun a b =>
  inferInstanceAs (Decidable (a.relative < b.relative ∨ a.relative = b.relative ∧ a.kind ≤ b.kind))

/-- A name that cannot be mistaken for a path. -/
def safeName (name : Bytes) : Bool :=
  name ≠ [] && name ≠ [0x2E] && name ≠ [0x2E, 0x2E] && !name.contains 0x2F && !name.contains 0

def fileRecord (relative : CardPath) (child : Bytes × CardNode) : Option Record :=
  match child.2 with
  | .file content => some (.file (joined (relative ++ [child.1])) content)
  | _ => none

/-- The records of a directory and of the files in it; the top directory has none of its own. -/
def directoryRecords (card : FolderCard) (top : Bytes) (relative : CardPath) :
    Except Raised (List Record) := do
  let children ← card.safeChildren (top :: relative)
  checkAll (fun child => require (safeName child.1 = true) substituted) children
  return (if relative = [] then [] else [.directory (joined relative)])
    ++ children.filterMap (fileRecord relative)

/-- `_tree_records`. -/
def treeRecords (card : FolderCard) (top : Bytes) : Except Raised (List Record) := do
  let records ← mapEach (directoryRecords card top) (card.directoriesBelow top)
  return records.flatten.insertionSort Record.le

/-- `n.to_bytes(width, "little")`. -/
def toBytes (n width : ℕ) : Except Raised Bytes :=
  if n < 256 ^ width then .ok (Bytes.littleBytes n width) else .error .overflowError

def encodeRecord : Record → Except Raised Bytes
  | .directory relative => do
    let pathLength ← toBytes relative.length 4
    return (0x64 : UInt8) :: pathLength ++ relative
  | .file relative content => do
    let pathLength ← toBytes relative.length 4
    let contentLength ← toBytes content.length 8
    return (0x66 : UInt8) :: pathLength ++ relative ++ contentLength ++ content

/-- `_entry_hash`: the digest, and the bytes of all files. -/
def entryHash (sha256 : Bytes → String) (records : List Record) : Except Raised (String × ℕ) := do
  let encoded ← mapEach encodeRecord records
  return (sha256 encoded.flatten, (records.map Record.size).sum)

/-! ### Snapshots -/

/-- `Ps2FolderGroupingPolicy`: the merge domains of all names, or a refusal. -/
structure GroupingPolicy where
  policyId : String
  schemaVersion : ℕ
  group : List Bytes → Except Raised (Bytes → String)

/-- `ConservativePs2FolderGroupingPolicy`: at most one save. -/
def conservativePolicy : GroupingPolicy where
  policyId := "pcsx2-folder-single-entry"
  schemaVersion := 1
  group names :=
    if 1 < names.length then .error ambiguousGrouping else .ok fun _ => "pcsx2-save:card"

/-- `ExplicitPs2FolderGroupingPolicy`: every name has a group. -/
def explicitPolicy (groups : Bytes → Option String) : GroupingPolicy where
  policyId := "pcsx2-folder-explicit"
  schemaVersion := 1
  group names :=
    if names.any fun name => (groups name).isNone then .error ambiguousGrouping
    else if names.any fun name => groups name = some "" then .error ambiguousGrouping
    else .ok fun name => (groups name).getD ""

section Adapter

variable (policy : GroupingPolicy) (sha256 : Bytes → String)

/-- The entry of a save. -/
def saveEntry (groups : Bytes → String) (recorded : Bytes × List Record) :
    Except Raised ContainerEntry := do
  let (canonicalHash, sizeBytes) ← entryHash sha256 recorded.2
  return {
    identity := hex recorded.1
    mergeDomainId := groups recorded.1
    canonicalHash := canonicalHash
    sizeBytes := sizeBytes }

/-- `snapshot`: a top directory below which there is no file is not a save. -/
def snapshot (card : FolderCard) (containerId : String) : Except Raised ContainerSnapshot := do
  let top ← card.topDirectories
  let trees ← mapEach (fun name => (treeRecords card name).map (Prod.mk name)) top
  let recorded := trees.filter fun r => r.2.any Record.isFile
  let groups ← policy.group ((recorded.map Prod.fst).insertionSort (· ≤ ·))
  let entries ← mapEach (saveEntry sha256 groups) recorded
  return {
    containerId := containerId
    adapterId := "pcsx2-folder-memory-card"
    schemaVersion := 1 * 1000 + policy.schemaVersion
    formatVariant := "pcsx2-folder-card:" ++ policy.policyId
    entries := sortedByIdentity entries }

/-- `_find_top`. -/
def findTop (card : FolderCard) (identity : String) : Except Raised Bytes := do
  let tops ← card.topDirectories
  match tops.find? fun name => hex name = identity with
  | some name => return name
  | none => .error sourceChanged

/-- `extract_entry`: the payload is the card itself. -/
def extractEntry (source : FolderCard) (expected : ContainerSnapshot) (identity : String) :
    Except Raised FolderCard := do
  let _ ← findTop source identity
  let current ← snapshot policy sha256 source expected.containerId
  let entry := current.entries.find? fun entry => entry.identity = identity
  let known := expected.entries.find? fun entry => entry.identity = identity
  require (entry.isSome ∧ known.isSome ∧ entry.map (·.canonicalHash) = known.map (·.canonicalHash))
    sourceChanged
  return source

end Adapter

end RomCloud.Containers
