import RomCloud.Containers.Ps1Partition

namespace RomCloud.Containers

open Lib

/-!
# The identity of a save on a memory card

* `canonicalHash_eq_iff` — the hashes of two saves are equal exactly if the saves agree, whatever
  blocks they are in;
* `cardImage`, `parse_cardImage` — cards that are made of their frames.
-/

variable {sha256 : Bytes → String} {raw otherRaw : Bytes} {card otherCard : ParsedCard}
  {entry other : ParsedEntry}

/-- The hash of an entry of an accepted card. -/
theorem canonicalHash_of_mem (h : parse sha256 raw = .ok card) (hentry : entry ∈ card.live) :
    entry.canonicalHash = sha256 (encode entry.filename
        (entry.blocks.map (directoryFrame raw)) (entry.blocks.map (blockData raw)))
      ∧ entry.filename.length ≤ 20 ∧ entry.blocks.length ≤ 15 := by
  obtain ⟨hraw, deleted, hpartitioned⟩ := parse_ok h
  have hof := hpartitioned.live entry hentry
  have hcount := length_chain_le hof.nodup
  have hname : entry.filename.length ≤ 20 := by
    obtain ⟨first, hfirst⟩ := hof.chain.exists_head
    exact length_filename_le (hof.named first hfirst)
  have hframes : ∀ frame ∈ entry.blocks.map (directoryFrame raw), IsFrame frame := by
    intro frame hframe
    obtain ⟨block, -, rfl⟩ := List.mem_map.mp hframe
    exact isFrame_directoryFrame hraw block
  have hhash := hof.hash
  rw [hof.entryFrames, hof.dataBlocks, canonicalHash_eq sha256 _ (by omega) hframes
    (by rw [List.length_map]; omega)] at hhash
  exact ⟨(Except.ok.inj hhash).symm, hname, hcount⟩

/-- **The canonical hash.** For a digest without collisions, two live entries of accepted cards have
    one hash exactly if they have one name, as many blocks, the same data in chain order, and frames
    that agree in chain order outside the state, the pointer and the checksum. -/
theorem canonicalHash_eq_iff (hsha256 : Function.Injective sha256)
    (h : parse sha256 raw = .ok card) (hother : parse sha256 otherRaw = .ok otherCard)
    (hentry : entry ∈ card.live) (hmem : other ∈ otherCard.live) :
    entry.canonicalHash = other.canonicalHash
      ↔ entry.filename = other.filename ∧ entry.blocks.length = other.blocks.length
        ∧ entry.blocks.map (blockData raw) = other.blocks.map (blockData otherRaw)
        ∧ List.Forall₂ (fun b c => AgreeOutside (directoryFrame raw b) (directoryFrame otherRaw c))
          entry.blocks other.blocks := by
  obtain ⟨hhash, hname, hcount⟩ := canonicalHash_of_mem h hentry
  obtain ⟨hotherHash, hotherName, hotherCount⟩ := canonicalHash_of_mem hother hmem
  have hframes : ∀ {raw : Bytes} {card : ParsedCard} (blocks : List Block),
      parse sha256 raw = .ok card → ∀ frame ∈ blocks.map (directoryFrame raw), IsFrame frame := by
    intro raw card blocks h frame hframe
    obtain ⟨block, -, rfl⟩ := List.mem_map.mp hframe
    exact isFrame_directoryFrame (parse_ok h).1 block
  have hdata : ∀ {raw : Bytes} {card : ParsedCard} (blocks : List Block),
      parse sha256 raw = .ok card → ∀ data ∈ blocks.map (blockData raw),
        data.length = blockSize := by
    intro raw card blocks h data hdata
    obtain ⟨block, -, rfl⟩ := List.mem_map.mp hdata
    exact length_blockData (parse_ok h).1 block
  rw [hhash, hotherHash, hsha256.eq_iff, encode_eq_iff (by omega) (by omega) (hframes _ h)
    (hframes _ hother) (by rw [List.length_map]; omega) (by rw [List.length_map]; omega)
    (hdata _ h) (hdata _ hother) (by simp) (by simp), List.forall₂_map_left_iff,
    List.forall₂_map_right_iff]
  constructor
  · rintro ⟨hfilename, hagree, hblocks⟩
    exact ⟨hfilename, hagree.length_eq, hblocks, hagree⟩
  · rintro ⟨hfilename, -, hblocks, hagree⟩
    exact ⟨hfilename, hagree, hblocks⟩

/-! ### Cards that are made of their frames -/

/-- The frames of block 0: the header, the directory, an empty replacement table, and the rest. -/
def directoryBlock (header : Bytes) (frames : Block → Bytes) : List Bytes :=
  header :: dataBlocks.map frames ++ List.replicate 20 (List.replicate 128 0xFF)
    ++ List.replicate 28 (List.replicate 128 0)

def cardImage (header : Bytes) (frames data : Block → Bytes) : Bytes :=
  (directoryBlock header frames).flatten ++ (dataBlocks.map data).flatten

section Image

variable {header : Bytes} {frames data : Block → Bytes}

theorem length_of_mem_directoryBlock (hheader : IsFrame header) (hframes : ∀ b, IsFrame (frames b))
    {frame : Bytes} (h : frame ∈ directoryBlock header frames) : frame.length = 128 := by
  rcases List.mem_append.mp h with h | h
  · rcases List.mem_append.mp h with h | h
    · rcases List.mem_cons.mp h with rfl | h
      · exact hheader
      · obtain ⟨block, -, rfl⟩ := List.mem_map.mp h
        exact hframes block
    · rw [List.eq_of_mem_replicate h, List.length_replicate]
  · rw [List.eq_of_mem_replicate h, List.length_replicate]

theorem length_directoryBlock (header : Bytes) (frames : Block → Bytes) :
    (directoryBlock header frames).length = 64 := by
  simp [directoryBlock, dataBlocks]

theorem length_flatten_of_forall {pieces : List Bytes} {size : ℕ}
    (h : ∀ piece ∈ pieces, piece.length = size) : pieces.flatten.length = pieces.length * size := by
  induction pieces with
  | nil => simp
  | cons piece rest ih =>
    rw [List.flatten_cons, List.length_append, h piece List.mem_cons_self,
      ih fun p hp => h p (List.mem_cons_of_mem _ hp), List.length_cons, Nat.succ_mul, Nat.add_comm]

/-- A frame of block 0. -/
theorem slice_directory (hheader : IsFrame header) (hframes : ∀ b, IsFrame (frames b)) {k : ℕ}
    (hk : k < (directoryBlock header frames).length) :
    Bytes.slice (cardImage header frames data) (k * 128) 128
      = (directoryBlock header frames)[k] := by
  have hsizes := fun frame h => @length_of_mem_directoryBlock header frames hheader hframes frame h
  have hlength : (directoryBlock header frames).flatten.length = 64 * 128 := by
    rw [length_flatten_of_forall hsizes, length_directoryBlock]
  rw [length_directoryBlock] at hk
  rw [cardImage, Bytes.slice_append_left (by omega)]
  exact Bytes.slice_flatten hsizes _

theorem directoryFrame_cardImage (hheader : IsFrame header) (hframes : ∀ b, IsFrame (frames b)) :
    directoryFrame (cardImage header frames data) = frames := by
  funext block
  have hblock := block.isLt
  rw [directoryFrame, Block.number, frameSize,
    slice_directory hheader hframes (by rw [length_directoryBlock]; omega)]
  simp [directoryBlock, dataBlocks, hblock]

theorem blockData_cardImage (hheader : IsFrame header) (hframes : ∀ b, IsFrame (frames b))
    (hdata : ∀ b, (data b).length = blockSize) :
    blockData (cardImage header frames data) = data := by
  funext block
  have hsizes := fun frame h => @length_of_mem_directoryBlock header frames hheader hframes frame h
  have hlength : (directoryBlock header frames).flatten.length = blockSize := by
    rw [length_flatten_of_forall hsizes, length_directoryBlock]
    rfl
  have hblocks : ∀ piece ∈ dataBlocks.map data, piece.length = blockSize := by
    intro piece hpiece
    obtain ⟨b, -, rfl⟩ := List.mem_map.mp hpiece
    exact hdata b
  have hstart : block.number * blockSize - (directoryBlock header frames).flatten.length
      = block.val * blockSize := by
    rw [hlength, Block.number, Nat.succ_mul]
    omega
  rw [blockData, cardImage, Bytes.slice_append_right, hstart, Bytes.slice_flatten hblocks]
  · simp [dataBlocks]
  · simp [dataBlocks]
  · rw [hlength, Block.number, Nat.succ_mul]
    omega

theorem length_cardImage (hheader : IsFrame header) (hframes : ∀ b, IsFrame (frames b))
    (hdata : ∀ b, (data b).length = blockSize) :
    (cardImage header frames data).length = cardSize := by
  have hsizes := fun frame h => @length_of_mem_directoryBlock header frames hheader hframes frame h
  have hblocks : ∀ piece ∈ dataBlocks.map data, piece.length = blockSize := by
    intro piece hpiece
    obtain ⟨b, -, rfl⟩ := List.mem_map.mp hpiece
    exact hdata b
  rw [cardImage, List.length_append, length_flatten_of_forall hsizes, length_directoryBlock,
    length_flatten_of_forall hblocks]
  simp [dataBlocks, blockSize, cardSize]

/-- The reader, for a card that is made of its frames. -/
theorem parse_cardImage (hheader : IsFrame header) (hframes : ∀ b, IsFrame (frames b))
    (hdata : ∀ b, (data b).length = blockSize) (hmagic : header.take 2 = [0x4D, 0x43])
    (hchecksum : Bytes.xorAll header = 0) (hchecks : checkAll (checkFrame frames) dataBlocks = .ok ())
    {live : List ParsedEntry} (hlive : parseLive sha256 frames data [] dataBlocks = .ok live)
    {deleted : List Block} (hdeleted : parseDeleted frames (consumed live) [] dataBlocks = .ok deleted)
    (hblocks : checkAll (checkBlock frames (consumed live) deleted) dataBlocks = .ok ()) :
    parse sha256 (cardImage header frames data) = .ok {
      raw := cardImage header frames data
      live := live.insertionSort fun a b => a.identity ≤ b.identity
      deletedBlocks := deleted
      freeBlocks := dataBlocks.filter (isFree frames) } := by
  have hhead : (cardImage header frames data).take frameSize = header := by
    have hslice := @slice_directory header frames data hheader hframes 0
      (by rw [length_directoryBlock]; omega)
    rwa [Nat.zero_mul, Bytes.slice, List.drop_zero] at hslice
  have hsectors : checkAll (checkSector (cardImage header frames data)) (List.range' 16 20)
      = .ok () := by
    rw [checkAll_eq_ok_iff]
    intro index hindex
    obtain ⟨hlow, hhigh⟩ := List.mem_range'_1.mp hindex
    rw [checkSector, require_eq_ok_iff]
    have hlt : index < (directoryBlock header frames).length := by
      rw [length_directoryBlock]
      omega
    have hslice := @slice_directory header frames data hheader hframes index hlt
    have hsector : (directoryBlock header frames)[index] = List.replicate 128 0xFF := by
      simp only [directoryBlock, dataBlocks, List.getElem_append]
      simp (disch := omega) only [List.length_append, List.length_cons, List.length_map,
        List.length_finRange, List.length_replicate]
      rw [dif_pos (by omega), dif_neg (by omega), List.getElem_replicate]
    rw [hsector] at hslice
    have htake := congrArg (List.take 4) hslice
    rw [Bytes.slice, List.take_take] at htake
    exact htake
  rw [parse, hhead, directoryFrame_cardImage hheader hframes,
    blockData_cardImage hheader hframes hdata]
  simp only [length_cardImage hheader hframes hdata, hmagic, hchecksum, hchecks, hsectors, hlive,
    hdeleted, hblocks, require, if_true, ok_bind]
  rfl

end Image

/-! ### Two cards with one save -/

/-- A frame with its checksum. -/
def sealed (body : Bytes) : Bytes := body ++ [Bytes.xorAll body]

def blankHeader : Bytes := sealed ([0x4D, 0x43] ++ List.replicate 125 0)

/-- A directory frame: the state, the size, the pointer and the name. -/
def frameOf (blockState : BlockState) (size pointer name : Bytes) : Bytes :=
  sealed ([blockState.byte, 0, 0, 0] ++ size ++ pointer ++ name
    ++ List.replicate (123 - size.length - pointer.length - name.length) 0)

/-- `BESLES-00001` -/
def saveName : Bytes := [0x42, 0x45, 0x53, 0x4C, 0x45, 0x53, 0x2D, 0x30, 0x30, 0x30, 0x30, 0x31]

/-- The directory of a card with one save of one block. -/
def oneSave (place block : Block) : Bytes :=
  if block = place then frameOf .liveHeader [0, 0x20, 0, 0] [0xFF, 0xFF] saveName
  else frameOf .free [0, 0, 0, 0] [0xFF, 0xFF] []

def emptyData (_ : Block) : Bytes := List.replicate blockSize 0

theorem isFrame_blankHeader : IsFrame blankHeader := by
  rw [IsFrame]
  decide +kernel

theorem isFrame_oneSave (place block : Block) : IsFrame (oneSave place block) := by
  rw [oneSave]
  split <;> rfl

/-- The card with its save in the first block, or in the fifth. -/
theorem parse_oneSave {place : Block} (hplace : place = 0 ∨ place = 4) :
    ∃ card entry, parse spell (cardImage blankHeader (oneSave place) emptyData) = .ok card
      ∧ entry ∈ card.live ∧ entry.blocks = [place] ∧ entry.filename = saveName := by
  have hchecks : checkAll (checkFrame (oneSave place)) dataBlocks = .ok () := by
    rcases hplace with rfl | rfl <;> decide +kernel
  have hlive : (match parseLive spell (oneSave place) emptyData [] dataBlocks with
      | .ok live => decide (live.map (·.blocks) = [[place]] ∧ live.map (·.filename) = [saveName])
      | .error _ => false) = true := by
    rcases hplace with rfl | rfl <;> decide +kernel
  have hdeleted : parseDeleted (oneSave place) [place] [] dataBlocks = .ok [] := by
    rcases hplace with rfl | rfl <;> decide +kernel
  have hblocks : checkAll (checkBlock (oneSave place) [place] []) dataBlocks = .ok () := by
    rcases hplace with rfl | rfl <;> decide +kernel
  split at hlive
  · next live hparsed =>
    obtain ⟨hplaces, hnames⟩ := of_decide_eq_true hlive
    obtain ⟨entry, rfl⟩ : ∃ entry, live = [entry] :=
      List.length_eq_one_iff.mp (by simpa using congrArg List.length hplaces)
    have hentry : entry.blocks = [place] := by simpa using hplaces
    have hconsumed : consumed [entry] = [place] := by simp [consumed, hentry]
    refine ⟨_, entry, parse_cardImage isFrame_blankHeader (isFrame_oneSave place)
      (fun _ => ?_) rfl (by decide +kernel) hchecks
      hparsed (hconsumed.symm ▸ hdeleted) (hconsumed.symm ▸ hblocks), ?_, hentry, ?_⟩
    · exact List.length_replicate
    · simp
    · simpa using hnames
  · exact absurd hlive (by simp)

/-- One save in different blocks of two cards. -/
theorem movedSave_hash_eq : ∃ (card otherCard : ParsedCard) (entry moved : ParsedEntry),
    parse spell (cardImage blankHeader (oneSave 0) emptyData) = .ok card
      ∧ parse spell (cardImage blankHeader (oneSave 4) emptyData) = .ok otherCard
      ∧ entry ∈ card.live ∧ moved ∈ otherCard.live ∧ entry.blocks ≠ moved.blocks
      ∧ entry.canonicalHash = moved.canonicalHash := by
  obtain ⟨card, entry, hcard, hentry, hblocks, hname⟩ := parse_oneSave (.inl rfl)
  obtain ⟨otherCard, moved, hother, hmoved, hmovedBlocks, hmovedName⟩ := parse_oneSave (.inr rfl)
  have hdata : ∀ b, (emptyData b).length = blockSize := fun _ => List.length_replicate
  refine ⟨card, otherCard, entry, moved, hcard, hother, hentry, hmoved, ?_, ?_⟩
  · rw [hblocks, hmovedBlocks]
    decide
  · refine (canonicalHash_eq_iff spell_injective hcard hother hentry hmoved).mpr ⟨?_, ?_, ?_, ?_⟩
    · rw [hname, hmovedName]
    · rw [hblocks, hmovedBlocks]
      rfl
    · rw [hblocks, hmovedBlocks,
        blockData_cardImage isFrame_blankHeader (isFrame_oneSave 0) hdata,
        blockData_cardImage isFrame_blankHeader (isFrame_oneSave 4) hdata]
      rfl
    · rw [hblocks, hmovedBlocks,
        directoryFrame_cardImage isFrame_blankHeader (isFrame_oneSave 0),
        directoryFrame_cardImage isFrame_blankHeader (isFrame_oneSave 4)]
      exact .cons (fun _ _ _ => rfl) .nil

end RomCloud.Containers
