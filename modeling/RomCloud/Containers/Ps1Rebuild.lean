import RomCloud.Containers.Ps1Partition
import RomCloud.Lib.Dict
import RomCloud.SaveSync.Container

namespace RomCloud.Containers.Ps1

open Lib
open SaveSync (ContainerEntry ContainerSnapshot)

/-!
# Writing a memory card

The adapter writes a card by its directory: a save that goes is marked deleted, a save that is
replaced is written over its own blocks and, where it has grown, over free ones.

* `linked` — a frame with the state and the pointer of a place in a chain;
* `markDeleted`, `writeChain` — the blocks of a chain, one after the other;
* `rebuild`, `validate` — the candidate for a plan, which has to read back as planned;
* `replaceEntry`, `removeEntry` — plans for one save;
* `Rewrites` — nothing but the frames and the data of some blocks has changed;
* `linked_spec`, `markDeleted_spec`, `writeChain_spec` — what the directory says afterwards.

A candidate is its bytes.
-/

/-! ### Entries and plans -/

/-- `_ExtractedPs1Entry`. -/
structure ExtractedPs1Entry where
  filename : Bytes
  frames : List Bytes
  dataBlocks : List Bytes
deriving DecidableEq

structure ExtractedEntry where
  identity : String
  canonicalHash : String
  payload : ExtractedPs1Entry
deriving DecidableEq

structure EntryReplacement where
  entry : ContainerEntry
  extracted : ExtractedEntry
deriving DecidableEq

structure RebuildPlan where
  expected : ContainerSnapshot
  replacements : List EntryReplacement
  removals : List String

/-- The entry of a snapshot. -/
def containerEntry (entry : ParsedEntry) : ContainerEntry where
  identity := entry.identity
  mergeDomainId := entry.mergeDomainId
  canonicalHash := entry.canonicalHash
  sizeBytes := entry.sizeBytes

def extracted (entry : ParsedEntry) : ExtractedEntry where
  identity := entry.identity
  canonicalHash := entry.canonicalHash
  payload := ⟨entry.filename, entry.frames, entry.dataBlocks⟩

/-- `_snapshot`. -/
def snapshotOf (parsed : ParsedCard) (containerId : String) : ContainerSnapshot where
  containerId := containerId
  adapterId := "ps1-raw-memory-card"
  schemaVersion := 1
  formatVariant := "ps1-raw-128k"
  entries := parsed.live.map containerEntry

def sourceChanged : Raised := .opaqueContainer .sourceChangedDuringStaging ""
def noCapacity : Raised := .opaqueContainer .insufficientVerifiedFreeCapacity ""
def invalid (detail : String) : Raised := .opaqueContainer .validationFailure detail

/-! ### Frames -/

/-- `raw[start : start + size] = part`. -/
def assign (raw : Bytes) (start size : ℕ) (part : Bytes) : Bytes :=
  raw.take start ++ part ++ raw.drop (start + size)

def putFrame (raw : Bytes) (block : Block) (frame : Bytes) : Bytes :=
  assign raw (block.number * frameSize) frameSize frame

def putData (raw : Bytes) (block : Block) (data : Bytes) : Bytes :=
  assign raw (block.number * blockSize) blockSize data

/-- The pointer of a frame: to the next block of its chain, if there is one. -/
def pointerTo : Option Block → Except Raised Bytes
  | none => .ok [0xFF, 0xFF]
  | some next => toBytes2 (next.number - 1)

/-- A frame with the state and the pointer of a place in a chain. -/
def linked (frame : Bytes) (blockState : BlockState) (next : Option Block) :
    Except Raised Bytes := do
  let frame := Bytes.splice frame 0 [blockState.byte, 0, 0, 0]
  let pointer ← pointerTo next
  setChecksum (Bytes.splice frame 8 pointer)

/-! ### Chains -/

/-- The loop of `_mark_deleted`. -/
def markDeletedFrom (raw : Bytes) (first : Bool) : List Block → Except Raised Bytes
  | [] => .ok raw
  | block :: rest => do
    let frame ← linked (directoryFrame raw block) (ChainKind.deleted.expected first rest.head?)
      rest.head?
    markDeletedFrom (putFrame raw block frame) false rest

/-- `_mark_deleted`. -/
def markDeleted (raw : Bytes) (blocks : List Block) : Except Raised Bytes :=
  markDeletedFrom raw true blocks

/-- The loop of `_write_chain`. -/
def writeChainFrom (raw : Bytes) (first : Bool) :
    List Block → List Bytes → List Bytes → Except Raised Bytes
  | [], _, _ => .ok raw
  | block :: rest, source :: frames, data :: dataBlocks => do
    let frame ← linked source (ChainKind.live.expected first rest.head?) rest.head?
    writeChainFrom (putData (putFrame raw block frame) block data) false rest frames dataBlocks
  | _ :: _, _, _ => .error .indexError

/-- `_write_chain`. -/
def writeChain (raw : Bytes) (blocks : List Block) (payload : ExtractedPs1Entry) :
    Except Raised Bytes := do
  require (blocks.length = payload.dataBlocks.length) (invalid "")
  writeChainFrom raw true blocks payload.frames payload.dataBlocks

/-! ### The adapter -/

section Adapter

variable (sha256 : Bytes → String)

def snapshot (source : Bytes) (containerId : String) : Except Raised ContainerSnapshot := do
  let parsed ← parse sha256 source
  return snapshotOf parsed containerId

/-- `extract_entry`. -/
def extractEntry (source : Bytes) (expected : ContainerSnapshot) (identity : String) :
    Except Raised ExtractedEntry := do
  let parsed ← parse sha256 source
  match parsed.live.find? fun entry => entry.identity = identity with
  | none => .error sourceChanged
  | some entry =>
    require (expected.entries.any fun value => value.identity = identity
      ∧ value.canonicalHash = entry.canonicalHash) sourceChanged
    return extracted entry

def validate (candidate : Bytes) (expected : ContainerSnapshot) : Except Raised Unit := do
  let actual ← snapshot sha256 candidate expected.containerId
  require (actual.entries = expected.entries)
    (invalid "candidate logical snapshot differs from plan")

end Adapter

namespace RebuildPlan

variable (plan : RebuildPlan)

/-- The identities that are replaced, in order. -/
def replaced : List String := sortedSet (plan.replacements.map (·.entry.identity))

/-- The replacement of an identity: the last one that the plan has of it. -/
def replacement? (identity : String) : Option EntryReplacement :=
  plan.replacements.reverse.find? fun item => item.entry.identity = identity

/-- The identities that go, in order: those the plan names, and those it does not expect. -/
def removed (parsed : ParsedCard) : List String :=
  sortedSet (plan.removals ++ (parsed.live.map (·.identity)).filter fun identity =>
    identity ∉ plan.expected.entries.map (·.identity))

end RebuildPlan

/-- The entry of an identity. -/
def existing (parsed : ParsedCard) (identity : String) : Option ParsedEntry :=
  parsed.live.find? fun entry => entry.identity = identity

/-- The round of a removal. -/
def removeIdentity (parsed : ParsedCard) (raw : Bytes) (identity : String) : Except Raised Bytes :=
  match existing parsed identity with
  | some old => markDeleted raw old.blocks
  | none => .ok raw

/-- The blocks of the entry that an identity has on the card. -/
def oldBlocks (parsed : ParsedCard) (identity : String) : List Block :=
  (existing parsed identity).elim [] (·.blocks)

/-- The round of a replacement: the bytes, and the free blocks that are left. -/
def replaceIdentity (parsed : ParsedCard) (plan : RebuildPlan) (state : Bytes × List Block)
    (identity : String) : Except Raised (Bytes × List Block) :=
  match plan.replacement? identity with
  | none => .ok state
  | some replacement => do
    let payload := replacement.extracted.payload
    require (replacement.extracted.canonicalHash = replacement.entry.canonicalHash) sourceChanged
    let old := oldBlocks parsed identity
    let required := payload.dataBlocks.length
    let reusable := old.take required
    let needed := required - reusable.length
    require (needed ≤ state.2.length) noCapacity
    let allocated := reusable ++ state.2.take needed
    let released ← (if required < old.length then markDeleted state.1 (old.drop required)
      else .ok state.1)
    let raw ← writeChain released allocated payload
    return (raw, state.2.drop needed)

/-- `rebuild`: the bytes of the candidate. -/
def rebuild (sha256 : Bytes → String) (destination : Bytes) (plan : RebuildPlan) :
    Except Raised Bytes := do
  let parsed ← parse sha256 destination
  require (plan.replaced.all (· ∈ plan.expected.entries.map (·.identity))) (invalid "")
  let removed ← (plan.removed parsed).foldlM (removeIdentity parsed) parsed.raw
  let written ← plan.replaced.foldlM (replaceIdentity parsed plan) (removed, parsed.freeBlocks)
  validate sha256 written.1 plan.expected
  return written.1

/-- `replace_entry`. -/
def replaceEntry (sha256 : Bytes → String) (candidate : Bytes) (replacement : EntryReplacement) :
    Except Raised Bytes := do
  let current ← snapshot sha256 candidate "staged-card"
  let others := current.entries.filter fun entry => entry.identity ≠ replacement.entry.identity
  rebuild sha256 candidate {
    expected := { current with entries := SaveSync.sortedByIdentity (replacement.entry :: others) }
    replacements := [replacement]
    removals := [] }

/-- `remove_entry`. -/
def removeEntry (sha256 : Bytes → String) (candidate : Bytes) (identity : String) :
    Except Raised Bytes := do
  let current ← snapshot sha256 candidate "staged-card"
  rebuild sha256 candidate {
    expected := { current with
      entries := SaveSync.sortedByIdentity (current.entries.filter (·.identity ≠ identity)) }
    replacements := []
    removals := [identity] }

/-! ### What is written over -/

/-- A byte of a block: one of its frame, or one of its data. -/
def Holds (block : Block) (i : ℕ) : Prop :=
  block.number * frameSize ≤ i ∧ i < (block.number + 1) * frameSize
    ∨ block.number * blockSize ≤ i ∧ i < (block.number + 1) * blockSize

/-- Nothing but the bytes of some blocks has changed. -/
structure Rewrites (raw raw' : Bytes) (blocks : List Block) : Prop where
  length : raw'.length = raw.length
  outside : ∀ i, (∀ block ∈ blocks, ¬ Holds block i) → raw'[i]? = raw[i]?

namespace Rewrites

variable {raw raw' last : Bytes} {blocks more : List Block} {block : Block}

theorem refl (raw : Bytes) : Rewrites raw raw [] := ⟨rfl, fun _ _ => rfl⟩

theorem mono (h : Rewrites raw raw' blocks) (hsub : ∀ block ∈ blocks, block ∈ more) :
    Rewrites raw raw' more :=
  ⟨h.length, fun i hi => h.outside i fun block hblock => hi block (hsub block hblock)⟩

theorem trans (h : Rewrites raw raw' blocks) (hmore : Rewrites raw' last more) :
    Rewrites raw last (blocks ++ more) := by
  refine ⟨hmore.length.trans h.length, fun i hi => ?_⟩
  rw [hmore.outside i fun block hblock => hi block (List.mem_append_right _ hblock),
    h.outside i fun block hblock => hi block (List.mem_append_left _ hblock)]

/-- A part of the card that holds no byte of the blocks. -/
theorem slice_eq (h : Rewrites raw raw' blocks) {start size : ℕ}
    (hapart : ∀ i, start ≤ i → i < start + size → ∀ block ∈ blocks, ¬ Holds block i) :
    Bytes.slice raw' start size = Bytes.slice raw start size := by
  refine List.ext_getElem? fun i => ?_
  rcases Nat.lt_or_ge i size with hlt | hge
  · rw [Bytes.getElem?_slice hlt, Bytes.getElem?_slice hlt]
    exact h.outside _ (hapart _ (by omega) (by omega))
  · rw [List.getElem?_eq_none, List.getElem?_eq_none]
    · exact Nat.le_trans (List.length_take_le _ _) hge
    · exact Nat.le_trans (List.length_take_le _ _) hge

theorem directoryFrame_eq (h : Rewrites raw raw' blocks) (hblock : block ∉ blocks) :
    directoryFrame raw' block = directoryFrame raw block := by
  refine h.slice_eq fun i hlow hhigh other hother => ?_
  have hne : other.val ≠ block.val := fun heq => hblock (Fin.ext heq ▸ hother)
  have hlt := block.isLt
  simp only [Holds, Block.number, frameSize, blockSize] at hlow hhigh ⊢
  omega

theorem blockData_eq (h : Rewrites raw raw' blocks) (hblock : block ∉ blocks) :
    blockData raw' block = blockData raw block := by
  refine h.slice_eq fun i hlow hhigh other hother => ?_
  have hne : other.val ≠ block.val := fun heq => hblock (Fin.ext heq ▸ hother)
  have hlt := other.isLt
  simp only [Holds, Block.number, frameSize, blockSize] at hlow hhigh ⊢
  omega

theorem header_eq (h : Rewrites raw raw' blocks) :
    raw'.take frameSize = raw.take frameSize := by
  have hslice := @slice_eq raw raw' blocks h 0 frameSize fun i _ hhigh other _ => by
    simp only [Holds, Block.number, frameSize, blockSize] at hhigh ⊢
    omega
  rwa [Bytes.slice, Bytes.slice, List.drop_zero, List.drop_zero] at hslice

theorem checkSector_eq (h : Rewrites raw raw' blocks) {index : ℕ}
    (hindex : index ∈ List.range' 16 20) : checkSector raw' index = checkSector raw index := by
  rw [checkSector, checkSector, h.slice_eq fun i hlow hhigh other _ => ?_]
  have hlt := other.isLt
  rw [List.mem_range'_1] at hindex
  simp only [Holds, Block.number, frameSize, blockSize] at hlow hhigh ⊢
  omega

end Rewrites

/-! ### Single writes -/

section Writes

variable {raw part : Bytes} {block other : Block}

theorem assign_eq_splice {start size : ℕ} (h : part.length = size) :
    assign raw start size part = Bytes.splice raw start part := by
  rw [assign, Bytes.splice, h]

theorem frame_end_le (hraw : raw.length = cardSize) (block : Block) :
    block.number * frameSize + frameSize ≤ raw.length := by
  have hlt := block.isLt
  rw [hraw]
  simp only [Block.number, frameSize, cardSize]
  omega

theorem data_end_le (hraw : raw.length = cardSize) (block : Block) :
    block.number * blockSize + blockSize ≤ raw.length := by
  have hlt := block.isLt
  rw [hraw]
  simp only [Block.number, blockSize, cardSize]
  omega

theorem rewrites_putFrame (hraw : raw.length = cardSize) (hpart : IsFrame part) (block : Block) :
    Rewrites raw (putFrame raw block part) [block] := by
  have hpart : part.length = frameSize := hpart
  have hend := frame_end_le hraw block
  rw [putFrame, assign_eq_splice hpart]
  refine ⟨Bytes.length_splice (by omega), fun i hi => ?_⟩
  have hnot := hi block List.mem_cons_self
  rw [Bytes.getElem?_splice (by omega), if_neg]
  rintro ⟨hlow, hhigh⟩
  refine hnot (Or.inl ⟨hlow, ?_⟩)
  rw [Nat.succ_mul]
  omega

theorem rewrites_putData (hraw : raw.length = cardSize) (hpart : part.length = blockSize)
    (block : Block) : Rewrites raw (putData raw block part) [block] := by
  have hend := data_end_le hraw block
  rw [putData, assign_eq_splice hpart]
  refine ⟨Bytes.length_splice (by omega), fun i hi => ?_⟩
  have hnot := hi block List.mem_cons_self
  rw [Bytes.getElem?_splice (by omega), if_neg]
  rintro ⟨hlow, hhigh⟩
  refine hnot (Or.inr ⟨hlow, ?_⟩)
  rw [Nat.succ_mul]
  omega

theorem directoryFrame_putFrame (hraw : raw.length = cardSize) (hpart : IsFrame part)
    (block : Block) : directoryFrame (putFrame raw block part) block = part := by
  have hpart : part.length = frameSize := hpart
  have hslice := @Bytes.slice_splice_self raw part
    (block.number * frameSize) (by rw [hpart]; exact frame_end_le hraw block)
  rw [directoryFrame, putFrame, assign_eq_splice hpart]
  rwa [hpart] at hslice

theorem blockData_putData (hraw : raw.length = cardSize) (hpart : part.length = blockSize)
    (block : Block) : blockData (putData raw block part) block = part := by
  have hslice := @Bytes.slice_splice_self raw part
    (block.number * blockSize) (by rw [hpart]; exact data_end_le hraw block)
  rw [blockData, putData, assign_eq_splice hpart]
  rwa [hpart] at hslice

/-- The directory is apart from the data. -/
theorem blockData_putFrame (hraw : raw.length = cardSize) (hpart : IsFrame part)
    (block other : Block) : blockData (putFrame raw block part) other = blockData raw other := by
  have hpart : part.length = frameSize := hpart
  have hend := frame_end_le hraw block
  rw [blockData, putFrame, assign_eq_splice hpart,
    Bytes.slice_splice_of_disjoint (by omega), blockData]
  have hlt := block.isLt
  simp only [Block.number, frameSize, blockSize] at hpart ⊢
  omega

theorem directoryFrame_putData (hraw : raw.length = cardSize) (hpart : part.length = blockSize)
    (block other : Block) :
    directoryFrame (putData raw block part) other = directoryFrame raw other := by
  have hend := data_end_le hraw block
  rw [directoryFrame, putData, assign_eq_splice hpart,
    Bytes.slice_splice_of_disjoint (by omega), directoryFrame]
  have hlt := other.isLt
  simp only [Block.number, frameSize, blockSize] at hpart ⊢
  omega

end Writes

/-! ### A frame in its place -/

/-- What a frame says once it is linked, and what it keeps. -/
structure Linked (source : Bytes) (blockState : BlockState) (next : Option Block) (frame : Bytes) :
    Prop where
  isFrame : IsFrame frame
  state : state frame = .ok blockState
  next : nextBlock frame = .ok next
  checksum : Bytes.xorAll frame = 0
  agree : AgreeOutside frame source

theorem pointerTo_ok (next : Option Block) : ∃ pointer, pointerTo next = .ok pointer
    ∧ pointer.length = 2 ∧ (next = none → Bytes.little pointer = 0xFFFF)
    ∧ ∀ block, next = some block → Bytes.little pointer = block.val := by
  cases next with
  | none => exact ⟨[0xFF, 0xFF], rfl, rfl, fun _ => rfl, fun _ h => (by cases h)⟩
  | some block =>
    have hlt := block.isLt
    have hnumber : block.number - 1 = block.val := by rw [Block.number, Nat.add_sub_cancel]
    refine ⟨Bytes.littleBytes block.val 2, ?_, Bytes.length_littleBytes _ _, fun h => absurd h
      (Option.some_ne_none _), fun other h => ?_⟩
    · rw [pointerTo, toBytes2, hnumber, if_pos (by omega)]
    · cases h
      exact Bytes.little_littleBytes (by omega)

theorem ofByte?_byte (blockState : BlockState) :
    BlockState.ofByte? blockState.byte = some blockState := by
  cases blockState <;> rfl

section Placed

variable {source pointer : Bytes} {blockState : BlockState}

/-- The frame before its checksum. -/
def placed (source : Bytes) (blockState : BlockState) (pointer : Bytes) : Bytes :=
  Bytes.splice (Bytes.splice source 0 [blockState.byte, 0, 0, 0]) 8 pointer

/-- The frame with its checksum. -/
def checksummed (body : Bytes) : Bytes := body.set 0x7F (Bytes.xorAll (body.take 0x7F))

theorem length_placed (h : IsFrame source) (hpointer : pointer.length = 2) :
    (placed source blockState pointer).length = 128 := by
  have hsource : source.length = 128 := h
  have hfirst : (Bytes.splice source 0 [blockState.byte, 0, 0, 0]).length = 128 := by
    rw [Bytes.length_splice (by simp [hsource]), hsource]
  rw [placed, Bytes.length_splice (by omega), hfirst]

theorem getElem?_placed (h : IsFrame source) (hpointer : pointer.length = 2) (i : ℕ) :
    (placed source blockState pointer)[i]? = if 8 ≤ i ∧ i < 10 then pointer[i - 8]?
      else if i < 4 then [blockState.byte, 0, 0, 0][i]? else source[i]? := by
  have hsource : source.length = 128 := h
  have hfirst : (Bytes.splice source 0 [blockState.byte, 0, 0, 0]).length = 128 := by
    rw [Bytes.length_splice (by simp [hsource]), hsource]
  rw [placed, Bytes.getElem?_splice (by omega), Bytes.getElem?_splice (by simp [hsource]), hpointer]
  simp only [List.length_cons, List.length_nil, Nat.zero_le, true_and, Nat.zero_add,
    Nat.sub_zero, Nat.reduceAdd]

theorem getElem?_checksummed (body : Bytes) {i : ℕ} (hi : i < 0x7F) :
    (checksummed body)[i]? = body[i]? := List.getElem?_set_ne (by omega)

theorem xorAll_checksummed {body : Bytes} (hbody : body.length = 128) :
    Bytes.xorAll (checksummed body) = 0 := by
  have hall : checksummed body = body.take 0x7F ++ [Bytes.xorAll (body.take 0x7F)] := by
    rw [checksummed, List.set_eq_take_append_cons_drop, if_pos (by omega),
      List.drop_eq_nil_of_le (by omega)]
  rw [hall, Bytes.xorAll_append]
  show _ ^^^ (0 ^^^ Bytes.xorAll (body.take 0x7F)) = 0
  rw [UInt8.zero_xor, UInt8.xor_self]

theorem state_placed (h : IsFrame source) (hpointer : pointer.length = 2) :
    state (checksummed (placed source blockState pointer)) = .ok blockState := by
  have hhead : (checksummed (placed source blockState pointer)).head? = some blockState.byte := by
    rw [List.head?_eq_getElem?, getElem?_checksummed _ (by omega), getElem?_placed h hpointer]
    rfl
  have hzeros : Bytes.slice (checksummed (placed source blockState pointer)) 1 3 = [0, 0, 0] := by
    apply List.ext_getElem?
    intro i
    rcases Nat.lt_or_ge i 3 with hlt | hge
    · rw [Bytes.getElem?_slice hlt, getElem?_checksummed _ (by omega), getElem?_placed h hpointer,
        if_neg (by omega), if_pos (by omega), Nat.add_comm]
      rfl
    · rw [List.getElem?_eq_none (show ([0, 0, 0] : Bytes).length ≤ i from hge),
        List.getElem?_eq_none]
      exact Nat.le_trans (List.length_take_le _ _) hge
  rw [state, hhead, Option.bind_some, ofByte?_byte]
  exact if_pos hzeros

theorem slice_placed (h : IsFrame source) (hpointer : pointer.length = 2) :
    Bytes.slice (checksummed (placed source blockState pointer)) 8 2 = pointer := by
  apply List.ext_getElem?
  intro i
  rcases Nat.lt_or_ge i 2 with hlt | hge
  · rw [Bytes.getElem?_slice hlt, getElem?_checksummed _ (by omega), getElem?_placed h hpointer,
      if_pos (by omega), Nat.add_sub_cancel_left]
  · rw [List.getElem?_eq_none (by omega : pointer.length ≤ i), List.getElem?_eq_none]
    exact Nat.le_trans (List.length_take_le _ _) hge

theorem linked_spec (h : IsFrame source) (blockState : BlockState) (next : Option Block) :
    ∃ frame, linked source blockState next = .ok frame ∧ Linked source blockState next frame := by
  obtain ⟨pointer, hpointer, hlength, hnone, hsome⟩ := pointerTo_ok next
  have hbody : (placed source blockState pointer).length = 128 := length_placed h hlength
  refine ⟨checksummed (placed source blockState pointer), ?_, ?_, state_placed h hlength, ?_,
    xorAll_checksummed hbody, ?_⟩
  · rw [linked, hpointer, ok_bind]
    show setChecksum (placed source blockState pointer) = _
    rw [setChecksum, if_pos (by omega)]
    rfl
  · show List.length (checksummed _) = 128
    rw [checksummed, List.length_set, hbody]
  · rw [nextBlock, slice_placed h hlength]
    cases next with
    | none => exact if_pos (hnone rfl)
    | some block =>
      have hlt := block.isLt
      simp only [hsome block rfl]
      rw [if_neg (by omega), dif_pos hlt]
  · intro i hi hplacing
    simp only [placing, List.mem_cons, List.not_mem_nil, or_false, not_or] at hplacing
    rw [getElem?_checksummed _ (by omega), getElem?_placed h hlength, if_neg (by omega),
      if_neg (by omega)]

end Placed

/-! ### A chain in its place -/

/-- The blocks of a chain, or what goes on from one. -/
def Chained (frames : Block → Bytes) (kind : ChainKind) (first : Bool) (blocks : List Block) :
    Prop :=
  if first then IsChain frames kind blocks else Continues frames kind blocks

theorem chained_cons_iff {frames : Block → Bytes} {kind : ChainKind} {first : Bool}
    {block : Block} {rest : List Block} : Chained frames kind first (block :: rest)
      ↔ nextBlock (frames block) = .ok rest.head?
        ∧ state (frames block) = .ok (kind.expected first rest.head?)
        ∧ (rest ≠ [] → Chained frames kind false rest) := by
  constructor
  · intro h
    cases first with
    | true =>
      have h : IsChain frames kind (block :: rest) := h
      cases h with
      | single hnext hstate => exact ⟨hnext, hstate, fun hne => absurd rfl hne⟩
      | more hnext hstate hrest => exact ⟨hnext, hstate, fun _ => hrest⟩
    | false =>
      have h : Continues frames kind (block :: rest) := h
      cases h with
      | last hnext hstate => exact ⟨hnext, hstate, fun hne => absurd rfl hne⟩
      | more hnext hstate hrest => exact ⟨hnext, hstate, fun _ => hrest⟩
  · rintro ⟨hnext, hstate, hrest⟩
    cases rest with
    | nil =>
      cases first with
      | true => exact IsChain.single hnext hstate
      | false => exact Continues.last hnext hstate
    | cons next more =>
      have hmore : Continues frames kind (next :: more) := hrest (List.cons_ne_nil _ _)
      cases first with
      | true => exact IsChain.more hnext hstate hmore
      | false => exact Continues.more hnext hstate hmore

/-- **Marking a chain.** The blocks are a deleted chain, and their data stays. -/
theorem markDeletedFrom_spec {raw : Bytes} {first : Bool} {blocks : List Block}
    (hraw : raw.length = cardSize) (hblocks : blocks.Nodup) :
    ∃ raw', markDeletedFrom raw first blocks = .ok raw' ∧ Rewrites raw raw' blocks
      ∧ (∀ block, blockData raw' block = blockData raw block)
      ∧ (∀ block ∈ blocks, Bytes.xorAll (directoryFrame raw' block) = 0)
      ∧ (blocks ≠ [] → Chained (directoryFrame raw') .deleted first blocks) := by
  induction blocks generalizing raw first with
  | nil => exact ⟨raw, rfl, .refl raw, fun _ => rfl, by simp, by simp⟩
  | cons block rest ih =>
    obtain ⟨hnew, hrest⟩ := List.nodup_cons.mp hblocks
    obtain ⟨frame, hlinked, hframe⟩ := linked_spec (isFrame_directoryFrame hraw block)
      (ChainKind.deleted.expected first rest.head?) rest.head?
    have hput := rewrites_putFrame hraw hframe.isFrame block
    obtain ⟨raw', hmarked, hrewrites, hdata, hsums, hchained⟩ :=
      @ih (putFrame raw block frame) false (hput.length.trans hraw) hrest
    -- the rest of the chain leaves the frame of this block as it was put
    have hfinal : directoryFrame raw' block = frame := by
      rw [hrewrites.directoryFrame_eq hnew, directoryFrame_putFrame hraw hframe.isFrame]
    refine ⟨raw', ?_, hput.trans hrewrites, fun other => ?_, ?_, fun _ => ?_⟩
    · rw [markDeletedFrom, hlinked]
      exact hmarked
    · rw [hdata, blockData_putFrame hraw hframe.isFrame]
    · exact List.forall_mem_cons.mpr ⟨by rw [hfinal]; exact hframe.checksum, hsums⟩
    · exact chained_cons_iff.mpr ⟨by rw [hfinal]; exact hframe.next,
        by rw [hfinal]; exact hframe.state, hchained⟩

/-- **Writing a chain.** The blocks are a live chain that holds the payload. -/
theorem writeChainFrom_spec {raw : Bytes} {first : Bool} {blocks : List Block}
    {frames dataBlocks : List Bytes} (hraw : raw.length = cardSize) (hblocks : blocks.Nodup)
    (hframes : ∀ frame ∈ frames, IsFrame frame) (hcount : frames.length = blocks.length)
    (hdata : ∀ data ∈ dataBlocks, data.length = blockSize)
    (hdataCount : dataBlocks.length = blocks.length) :
    ∃ raw', writeChainFrom raw first blocks frames dataBlocks = .ok raw'
      ∧ Rewrites raw raw' blocks
      ∧ (∀ block ∈ blocks, Bytes.xorAll (directoryFrame raw' block) = 0)
      ∧ (blocks ≠ [] → Chained (directoryFrame raw') .live first blocks)
      ∧ List.Forall₂ AgreeOutside (blocks.map (directoryFrame raw')) frames
      ∧ blocks.map (blockData raw') = dataBlocks := by
  induction blocks generalizing raw first frames dataBlocks with
  | nil =>
    obtain rfl := List.length_eq_zero_iff.mp hcount
    obtain rfl := List.length_eq_zero_iff.mp hdataCount
    exact ⟨raw, rfl, .refl raw, by simp, by simp, .nil, rfl⟩
  | cons block rest ih =>
    obtain ⟨source, frames, rfl⟩ := List.exists_cons_of_length_eq_add_one hcount
    obtain ⟨data, dataBlocks, rfl⟩ := List.exists_cons_of_length_eq_add_one hdataCount
    obtain ⟨hnew, hrest⟩ := List.nodup_cons.mp hblocks
    obtain ⟨hsource, hframes⟩ := List.forall_mem_cons.mp hframes
    obtain ⟨hsize, hdata⟩ := List.forall_mem_cons.mp hdata
    obtain ⟨frame, hlinked, hframe⟩ := linked_spec hsource
      (ChainKind.live.expected first rest.head?) rest.head?
    have hput := rewrites_putFrame hraw hframe.isFrame block
    have hputRaw : (putFrame raw block frame).length = cardSize := hput.length.trans hraw
    have hputData := rewrites_putData hputRaw hsize block
    obtain ⟨raw', hwritten, hrewrites, hsums, hchained, hagree, hall⟩ :=
      @ih (putData (putFrame raw block frame) block data) false frames dataBlocks
        (hputData.length.trans hputRaw) hrest hframes (Nat.succ.inj hcount) hdata
        (Nat.succ.inj hdataCount)
    have hfinal : directoryFrame raw' block = frame := by
      rw [hrewrites.directoryFrame_eq hnew, directoryFrame_putData hputRaw hsize,
        directoryFrame_putFrame hraw hframe.isFrame]
    have hfinalData : blockData raw' block = data := by
      rw [hrewrites.blockData_eq hnew, blockData_putData hputRaw hsize]
    refine ⟨raw', ?_, ((hput.trans hputData).trans hrewrites).mono (by simp), ?_, fun _ => ?_,
      ?_, ?_⟩
    · rw [writeChainFrom, hlinked]
      exact hwritten
    · exact List.forall_mem_cons.mpr ⟨by rw [hfinal]; exact hframe.checksum, hsums⟩
    · exact chained_cons_iff.mpr ⟨by rw [hfinal]; exact hframe.next,
        by rw [hfinal]; exact hframe.state, hchained⟩
    · rw [List.map_cons, hfinal]
      exact .cons hframe.agree hagree
    · rw [List.map_cons, hfinalData, hall]

end RomCloud.Containers.Ps1
