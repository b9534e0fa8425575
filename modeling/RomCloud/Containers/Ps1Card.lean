import Mathlib.Data.List.FinRange
import Mathlib.Data.List.Sort
import Mathlib.Data.String.Basic
import RomCloud.Lib.Bytes
import RomCloud.Lib.Check

namespace RomCloud.Containers

open Lib

/-!
# PlayStation memory cards

The reader of raw 128 KiB cards: a directory of fifteen frames, one for each data block, in which
the blocks of a save are chained by next pointers.

* `Block`, `BlockState` — the data blocks, and what a directory frame says of its block;
* `Raised` — what the reader raises; `indexError` and `overflowError` are those of the language;
* `state`, `nextBlock`, `filename`, `commercialNamespace` — the fields of a frame;
* `canonicalHash` — the digest of a save, whatever blocks it is in;
* `parseChain`, `parse` — the chains of the directory, and the card.

The digest function is a parameter.
-/

def cardSize : ℕ := 128 * 1024
def blockSize : ℕ := 8192
def frameSize : ℕ := 128

/-- A data block: the first one is numbered 1. -/
abbrev Block := Fin 15

/-- `DATA_BLOCKS`. -/
def dataBlocks : List Block := List.finRange 15

/-- The number of a block. -/
def Block.number (block : Block) : ℕ := block.val + 1

inductive OpaqueReason
  | unsupportedFormat
  | unsupportedPs1CardSize
  | malformedChain
  | checksumFailure
  | duplicateIdentity
  | ambiguousNamespace
  | ps1BrokenSectorMapping
  | insufficientVerifiedFreeCapacity
  | ambiguousPs2FolderGrouping
  | sourceChangedDuringStaging
  | symlinkOrPathSubstitution
  | validationFailure
deriving DecidableEq

/-- What is raised. -/
inductive Raised
  /-- `OpaqueContainerError` -/
  | opaqueContainer (reason : OpaqueReason) (detail : String)
  /-- `SaveSyncVerificationError` -/
  | verification (message : String)
  | indexError
  | overflowError
deriving DecidableEq

/-- What a directory frame says of its block. -/
inductive BlockState
  | liveHeader
  | liveMiddle
  | liveEnd
  | free
  | deletedHeader
  | deletedMiddle
  | deletedEnd
deriving DecidableEq

def BlockState.byte : BlockState → UInt8
  | .liveHeader => 0x51
  | .liveMiddle => 0x52
  | .liveEnd => 0x53
  | .free => 0xA0
  | .deletedHeader => 0xA1
  | .deletedMiddle => 0xA2
  | .deletedEnd => 0xA3

/-- `_KNOWN_STATES`. -/
def knownStates : List BlockState :=
  [.liveHeader, .liveMiddle, .liveEnd, .free, .deletedHeader, .deletedMiddle, .deletedEnd]

def BlockState.ofByte? (byte : UInt8) : Option BlockState :=
  knownStates.find? fun state => state.byte = byte

/-- `frame[0x7F] = _xor_checksum(frame[:0x7F])`. -/
def setChecksum (frame : Bytes) : Except Raised Bytes :=
  if 0x7F < frame.length then .ok (frame.set 0x7F (Bytes.xorAll (frame.take 0x7F)))
  else .error .indexError

/-- `n.to_bytes(2, "little")`. -/
def toBytes2 (n : ℕ) : Except Raised Bytes :=
  if n < 65536 then .ok (Bytes.littleBytes n 2) else .error .overflowError

/-- `_directory_frame`: the frame of a block follows the header frame. -/
def directoryFrame (raw : Bytes) (block : Block) : Bytes :=
  Bytes.slice raw (block.number * frameSize) frameSize

/-- The data of a block. -/
def blockData (raw : Bytes) (block : Block) : Bytes :=
  Bytes.slice raw (block.number * blockSize) blockSize

def state (frame : Bytes) : Except Raised BlockState :=
  match frame.head?.bind BlockState.ofByte? with
  | some state =>
    if Bytes.slice frame 1 3 = [0, 0, 0] then .ok state
    else .error (.opaqueContainer .malformedChain "invalid directory state")
  | none => .error (.opaqueContainer .malformedChain "invalid directory state")

/-- `_next_block`: the pointer counts the data blocks from 0. -/
def nextBlock (frame : Bytes) : Except Raised (Option Block) :=
  let encoded := Bytes.little (Bytes.slice frame 8 2)
  if encoded = 0xFFFF then .ok none
  else if h : encoded < 15 then .ok (some ⟨encoded, h⟩)
  else .error (.opaqueContainer .malformedChain "invalid next pointer")

/-- `_filename`: the bytes before the first zero, and only zeros after it. -/
def filename (frame : Bytes) : Except Raised Bytes := do
  let field := Bytes.slice frame 0x0A 20
  let value := field.takeWhile (· ≠ 0)
  require (value ≠ []) (.opaqueContainer .ambiguousNamespace "empty filename")
  require ((field.drop (value.length + 1)).all (· = 0))
    (.opaqueContainer .ambiguousNamespace "nonzero filename padding")
  return value

/-- `_commercial_namespace`: the region and the code of the game. -/
def commercialNamespace (filename : Bytes) : Except Raised Bytes := do
  let code := Bytes.slice filename 2 10
  require (12 ≤ filename.length
    ∧ filename.take 2 ∈ ([[0x42, 0x41], [0x42, 0x45], [0x42, 0x49]] : List Bytes))
    (.opaqueContainer .ambiguousNamespace "")
  require (code.length = 10 ∧ Bytes.slice code 4 1 = [0x2D]
    ∧ (code.take 4).all (fun b => 65 ≤ b && b ≤ 90) ∧ (code.drop 5).all fun b => 48 ≤ b && b ≤ 57)
    (.opaqueContainer .ambiguousNamespace "")
  return filename.take 12

def hexDigit (n : ℕ) : Char := "0123456789abcdef".toList.getD n '0'

/-- `bytes.hex`. -/
def hex (raw : Bytes) : String :=
  String.ofList (raw.flatMap fun byte => [hexDigit (byte.toNat / 16), hexDigit (byte.toNat % 16)])

/-- The state of a live chain's frame: the first, the last, or one between. -/
def liveState (count index : ℕ) : BlockState :=
  if index = 0 then .liveHeader else if index = count - 1 then .liveEnd else .liveMiddle

/-- The pointer of a canonical frame: to the next place of the logical order. -/
def canonicalPointer (count index : ℕ) : Except Raised Bytes :=
  if index = count - 1 then .ok [0xFF, 0xFF] else toBytes2 index

/-- A frame with the state and the pointer of its place in the logical order. -/
def canonicalFrame (count index : ℕ) (source : Bytes) : Except Raised Bytes := do
  let pointer ← canonicalPointer count index
  let frame := Bytes.splice source 0 [(liveState count index).byte, 0, 0, 0]
  setChecksum (Bytes.splice frame 8 pointer)

/-- The frames from an index on, in their logical order. -/
def canonicalFrames (count : ℕ) : ℕ → List Bytes → Except Raised (List Bytes)
  | _, [] => .ok []
  | index, source :: rest => do
    let frame ← canonicalFrame count index source
    let frames ← canonicalFrames count (index + 1) rest
    return frame :: frames

/-- `_canonical_hash`. -/
def canonicalHash (sha256 : Bytes → String) (filename : Bytes) (frames dataBlocks : List Bytes) :
    Except Raised String := do
  let nameLength ← toBytes2 filename.length
  let count ← toBytes2 frames.length
  let canonical ← canonicalFrames frames.length 0 frames
  return sha256 (nameLength ++ filename ++ count ++ canonical.flatten ++ dataBlocks.flatten)

/-! ### Chains -/

/-- A chain of live blocks, or one of deleted blocks. -/
inductive ChainKind
  | live
  | deleted
deriving DecidableEq

def ChainKind.header : ChainKind → BlockState
  | .live => .liveHeader
  | .deleted => .deletedHeader

def ChainKind.middle : ChainKind → BlockState
  | .live => .liveMiddle
  | .deleted => .deletedMiddle

def ChainKind.last : ChainKind → BlockState
  | .live => .liveEnd
  | .deleted => .deletedEnd

def malformed (detail : String) : Raised := .opaqueContainer .malformedChain detail

/-- The state that a block of a chain must have: by its place in the chain, and by its pointer. -/
def ChainKind.expected (kind : ChainKind) (first : Bool) (next : Option Block) : BlockState :=
  if first then kind.header else if next.isNone then kind.last else kind.middle

/-- The loop of `_parse_chain`.  Fifteen blocks are all there are: the next one has been there. -/
def parseChainFrom (frames : Block → Bytes) (kind : ChainKind) :
    ℕ → List Block → Block → Except Raised (List Block)
  | 0, _, _ => .error (malformed "directory loop")
  | fuel + 1, chain, current => do
    require (current ∉ chain) (malformed "directory loop")
    let next ← nextBlock (frames current)
    let currentState ← state (frames current)
    require (currentState = kind.expected chain.isEmpty next) (malformed "")
    match next with
    | none => return chain ++ [current]
    | some next => parseChainFrom frames kind fuel (chain ++ [current]) next

/-- `_parse_chain`. -/
def parseChain (frames : Block → Bytes) (start : Block) (kind : ChainKind) :
    Except Raised (List Block) := do
  let startState ← state (frames start)
  require (startState = kind.header) (malformed "")
  parseChainFrom frames kind 16 [] start

/-! ### The card -/

/-- `_ParsedEntry`. -/
structure ParsedEntry where
  identity : String
  mergeDomainId : String
  filename : Bytes
  blocks : List Block
  frames : List Bytes
  dataBlocks : List Bytes
  canonicalHash : String
deriving DecidableEq

def ParsedEntry.sizeBytes (entry : ParsedEntry) : ℕ := entry.blocks.length * blockSize

/-- `_ParsedCard`. -/
structure ParsedCard where
  raw : Bytes
  live : List ParsedEntry
  deletedBlocks : List Block
  freeBlocks : List Block

/-- The blocks of some entries. -/
def consumed (entries : List ParsedEntry) : List Block := entries.flatMap (·.blocks)

/-- The entry that begins at a block. -/
def parseEntry (sha256 : Bytes → String) (frames data : Block → Bytes)
    (entries : List ParsedEntry) (block : Block) : Except Raised ParsedEntry := do
  let chain ← parseChain frames block .live
  require (chain.all (· ∉ consumed entries)) (malformed "cross-linked chain")
  let first := frames block
  require (Bytes.little (Bytes.slice first 4 4) = chain.length * blockSize)
    (malformed "invalid file size")
  let filename ← filename first
  let identity := hex filename
  require (identity ∉ entries.map (·.identity)) (.opaqueContainer .duplicateIdentity "")
  let gameNamespace ← commercialNamespace filename
  let entryFrames := chain.map frames
  let dataBlocks := chain.map data
  let hash ← canonicalHash sha256 filename entryFrames dataBlocks
  return {
    identity := identity
    mergeDomainId := "ps1-game:" ++ hex gameNamespace
    filename := filename
    blocks := chain
    frames := entryFrames
    dataBlocks := dataBlocks
    canonicalHash := hash }

/-- The live entries, from the headers among the blocks. -/
def parseLive (sha256 : Bytes → String) (frames data : Block → Bytes) :
    List ParsedEntry → List Block → Except Raised (List ParsedEntry)
  | entries, [] => .ok entries
  | entries, block :: rest => do
    let blockState ← state (frames block)
    if blockState = .liveHeader then do
      let entry ← parseEntry sha256 frames data entries block
      parseLive sha256 frames data (entries ++ [entry]) rest
    else parseLive sha256 frames data entries rest

/-- The blocks of the deleted chains. -/
def parseDeleted (frames : Block → Bytes) (live : List Block) :
    List Block → List Block → Except Raised (List Block)
  | deleted, [] => .ok deleted
  | deleted, block :: rest => do
    let blockState ← state (frames block)
    if blockState = .deletedHeader then do
      let chain ← parseChain frames block .deleted
      require (chain.all fun b => b ∉ live ∧ b ∉ deleted) (malformed "overlapping allocation")
      parseDeleted frames live (deleted ++ chain) rest
    else parseDeleted frames live deleted rest

def continuationStates : List BlockState := [.liveMiddle, .liveEnd, .deletedMiddle, .deletedEnd]

/-- Every block that continues a chain is in one, and a free block points nowhere. -/
def checkBlock (frames : Block → Bytes) (live deleted : List Block) (block : Block) :
    Except Raised Unit := do
  let blockState ← state (frames block)
  require (blockState ∈ continuationStates → block ∈ live ∨ block ∈ deleted)
    (malformed "orphan continuation")
  if blockState = .free then do
    let next ← nextBlock (frames block)
    require (next = none) (malformed "linked free block")

/-- The checksum and the state of a directory frame. -/
def checkFrame (frames : Block → Bytes) (block : Block) : Except Raised Unit := do
  require (Bytes.xorAll (frames block) = 0) (.opaqueContainer .checksumFailure
    ("directory-block-" ++ toString block.number))
  let _ ← state (frames block)

/-- A frame of the replacement table that maps nothing. -/
def checkSector (raw : Bytes) (index : ℕ) : Except Raised Unit :=
  require (Bytes.slice raw (index * frameSize) 4 = [0xFF, 0xFF, 0xFF, 0xFF])
    (.opaqueContainer .ps1BrokenSectorMapping "")

/-- The state of a block is the free one. -/
def isFree (frames : Block → Bytes) (block : Block) : Bool :=
  match state (frames block) with
  | .ok .free => true
  | _ => false

def parse (sha256 : Bytes → String) (raw : Bytes) : Except Raised ParsedCard := do
  require (raw.length = cardSize) (.opaqueContainer .unsupportedPs1CardSize "")
  let header := raw.take frameSize
  require (header.take 2 = [0x4D, 0x43]) (.opaqueContainer .unsupportedFormat "")
  require (Bytes.xorAll header = 0) (.opaqueContainer .checksumFailure "header")
  let frames := directoryFrame raw
  checkAll (checkFrame frames) dataBlocks
  checkAll (checkSector raw) (List.range' 16 20)
  let live ← parseLive sha256 frames (blockData raw) [] dataBlocks
  let deleted ← parseDeleted frames (consumed live) [] dataBlocks
  checkAll (checkBlock frames (consumed live) deleted) dataBlocks
  return {
    raw := raw
    live := live.insertionSort fun a b => a.identity ≤ b.identity
    deletedBlocks := deleted
    freeBlocks := dataBlocks.filter (isFree frames) }

end RomCloud.Containers
