import RomCloud.Containers.Ps1Layout

namespace RomCloud.Containers.Ps1

open Lib

/-!
# Allocation on a memory card

What the writer does, as steps between layouts: blocks become spare, and spare blocks become a
deleted chain or a live save.  The bytes of all other blocks stay.

* `Layout.rewrites` — the spare blocks may be written over;
* `Layout.releaseLive`, `Layout.releaseDeleted`, `Layout.takeFree` — blocks become spare;
* `Layout.markDeleted`, `Layout.writeChain` — spare blocks become a chain.
-/

variable {sha256 : Bytes → String} {frames frames' data data' : Block → Bytes} {kind : ChainKind}
  {chain : List Block} {entry : ParsedEntry}

/-! ### What a chain says, elsewhere -/

theorem continues_congr (h : Continues frames kind chain)
    (hframes : ∀ block ∈ chain, frames' block = frames block) : Continues frames' kind chain := by
  induction h with
  | last hnext hstate =>
    have hframe := hframes _ List.mem_cons_self
    exact .last (by rw [hframe]; exact hnext) (by rw [hframe]; exact hstate)
  | more hnext hstate _ ih =>
    have hframe := hframes _ List.mem_cons_self
    exact .more (by rw [hframe]; exact hnext) (by rw [hframe]; exact hstate)
      (ih fun block hblock => hframes block (List.mem_cons_of_mem _ hblock))

theorem isChain_congr (h : IsChain frames kind chain)
    (hframes : ∀ block ∈ chain, frames' block = frames block) : IsChain frames' kind chain := by
  cases h with
  | single hnext hstate =>
    have hframe := hframes _ List.mem_cons_self
    exact .single (by rw [hframe]; exact hnext) (by rw [hframe]; exact hstate)
  | more hnext hstate hrest =>
    have hframe := hframes _ List.mem_cons_self
    exact .more (by rw [hframe]; exact hnext) (by rw [hframe]; exact hstate)
      (continues_congr hrest fun block hblock => hframes block (List.mem_cons_of_mem _ hblock))

theorem entryOf_congr (h : EntryOf sha256 frames data entry)
    (hframes : ∀ block ∈ entry.blocks, frames' block = frames block)
    (hdata : ∀ block ∈ entry.blocks, data' block = data block) :
    EntryOf sha256 frames' data' entry where
  chain := isChain_congr h.chain hframes
  nodup := h.nodup
  size first hfirst := by
    rw [hframes first (List.mem_of_mem_head? hfirst)]
    exact h.size first hfirst
  named first hfirst := by
    rw [hframes first (List.mem_of_mem_head? hfirst)]
    exact h.named first hfirst
  identity := h.identity
  domain := h.domain
  entryFrames := h.entryFrames.trans (List.map_congr_left fun b hb => (hframes b hb).symm)
  dataBlocks := h.dataBlocks.trans (List.map_congr_left fun b hb => (hdata b hb).symm)
  hash := h.hash

/-! ### A payload -/

/-- What the writer needs of a save that was read from some card. -/
structure Stored (sha256 : Bytes → String) (source : Bytes) (entry : ParsedEntry) : Prop where
  length : source.length = cardSize
  entryOf : EntryOf sha256 (directoryFrame source) (blockData source) entry

theorem stored_of_parse {source : Bytes} {card : ParsedCard} (h : parse sha256 source = .ok card)
    (hentry : entry ∈ card.live) : Stored sha256 source entry := by
  obtain ⟨hraw, deleted, hpartitioned⟩ := parse_ok h
  exact ⟨hraw, hpartitioned.live entry hentry⟩

namespace Stored

variable {source : Bytes}

theorem isFrame (h : Stored sha256 source entry) : ∀ frame ∈ entry.frames, IsFrame frame := by
  rw [h.entryOf.entryFrames]
  intro frame hframe
  obtain ⟨block, -, rfl⟩ := List.mem_map.mp hframe
  exact isFrame_directoryFrame h.length block

theorem length_data (h : Stored sha256 source entry) :
    ∀ data ∈ entry.dataBlocks, data.length = blockSize := by
  rw [h.entryOf.dataBlocks]
  intro data hdata
  obtain ⟨block, -, rfl⟩ := List.mem_map.mp hdata
  exact length_blockData h.length block

theorem length_frames (h : Stored sha256 source entry) :
    entry.frames.length = entry.blocks.length := by
  rw [h.entryOf.entryFrames, List.length_map]

theorem length_dataBlocks (h : Stored sha256 source entry) :
    entry.dataBlocks.length = entry.blocks.length := by
  rw [h.entryOf.dataBlocks, List.length_map]

theorem blocks_pos (h : Stored sha256 source entry) : 0 < entry.blocks.length :=
  List.length_pos_iff.mpr (Layout.isChain_ne_nil h.entryOf.chain)

end Stored

/-- The parts of a frame that the writer keeps. -/
theorem slice_eq_of_agree {frame source : Bytes} {start size : ℕ} (h : AgreeOutside frame source)
    (hapart : ∀ i, start ≤ i → i < start + size → i < 128 ∧ i ∉ placing) :
    Bytes.slice frame start size = Bytes.slice source start size := by
  apply List.ext_getElem?
  intro i
  rcases Nat.lt_or_ge i size with hlt | hge
  · obtain ⟨hsize, hplacing⟩ := hapart (start + i) (by omega) (by omega)
    rw [Bytes.getElem?_slice hlt, Bytes.getElem?_slice hlt, h _ hsize hplacing]
  · rw [List.getElem?_eq_none, List.getElem?_eq_none]
    · exact Nat.le_trans (List.length_take_le _ _) hge
    · exact Nat.le_trans (List.length_take_le _ _) hge

/-- A save in other blocks. -/
def movedTo (entry : ParsedEntry) (raw : Bytes) (blocks : List Block) : ParsedEntry :=
  { entry with blocks := blocks, frames := blocks.map (directoryFrame raw) }

@[simp] theorem containerEntry_movedTo (raw : Bytes) {blocks : List Block}
    (h : blocks.length = entry.blocks.length) :
    containerEntry (movedTo entry raw blocks) = containerEntry entry := by
  simp only [containerEntry, movedTo, ParsedEntry.sizeBytes, h]

/-- **A written save.** It has the name, the domain, the size and the hash that it had where it was
read. -/
theorem entryOf_movedTo {source raw : Bytes} (h : Stored sha256 source entry)
    (hraw : raw.length = cardSize) {blocks : List Block} (hnodup : blocks.Nodup)
    (hcount : blocks.length = entry.blocks.length)
    (hchain : IsChain (directoryFrame raw) .live blocks)
    (hagree : List.Forall₂ AgreeOutside (blocks.map (directoryFrame raw)) entry.frames)
    (hdata : blocks.map (blockData raw) = entry.dataBlocks) :
    EntryOf sha256 (directoryFrame raw) (blockData raw) (movedTo entry raw blocks) := by
  have hfirst : ∀ first, blocks.head? = some first → ∃ old, entry.blocks.head? = some old
      ∧ AgreeOutside (directoryFrame raw first) (directoryFrame source old) := by
    intro first hhead
    obtain ⟨rest, rfl⟩ : ∃ rest, blocks = first :: rest := by
      cases blocks with
      | nil => cases hhead
      | cons b rest =>
        cases hhead
        exact ⟨rest, rfl⟩
    obtain ⟨old, more, hold⟩ := List.exists_cons_of_length_eq_add_one hcount.symm
    rw [h.entryOf.entryFrames, hold, List.map_cons, List.map_cons, List.forall₂_cons] at hagree
    exact ⟨old, by rw [hold]; rfl, hagree.1⟩
  refine ⟨hchain, hnodup, fun first hhead => ?_, fun first hhead => ?_, h.entryOf.identity,
    h.entryOf.domain, rfl, hdata.symm, ?_⟩
  · obtain ⟨old, hold, hsame⟩ := hfirst first hhead
    rw [slice_eq_of_agree hsame fun i hlow hhigh => by
      simp only [placing, List.mem_cons, List.not_mem_nil, or_false, not_or]
      omega, h.entryOf.size old hold]
    simp only [ParsedEntry.sizeBytes, movedTo, hcount]
  · obtain ⟨old, hold, hsame⟩ := hfirst first hhead
    have hslice := @slice_eq_of_agree _ _ 0x0A 20 hsame fun i hlow hhigh => by
      simp only [placing, List.mem_cons, List.not_mem_nil, or_false, not_or]
      omega
    have hnamed := h.entryOf.named old hold
    rw [filename] at hnamed ⊢
    rw [hslice]
    exact hnamed
  · obtain ⟨old, hold⟩ := h.entryOf.chain.exists_head
    have hname := length_filename_le (h.entryOf.named old hold)
    have hlength := length_chain_le hnodup
    have hframes : ∀ frame ∈ blocks.map (directoryFrame raw), IsFrame frame := by
      intro frame hframe
      obtain ⟨block, -, rfl⟩ := List.mem_map.mp hframe
      exact isFrame_directoryFrame hraw block
    have hcounts := hagree.length_eq
    have hhash := h.entryOf.hash
    rw [canonicalHash_eq sha256 _ (by omega) h.isFrame (by
      rw [← hcounts, List.length_map]
      omega)] at hhash
    show canonicalHash sha256 entry.filename (blocks.map (directoryFrame raw)) entry.dataBlocks
      = .ok entry.canonicalHash
    rw [canonicalHash_eq sha256 _ (by omega) hframes (by rw [List.length_map]; omega), ← hhash,
      encode, encode, hcounts, (canonicalizedFrom_eq_iff hframes h.isFrame).mpr hagree]

/-! ### Steps between layouts -/

namespace Layout

variable {raw raw' : Bytes} {live others : List ParsedEntry} {deleted chains : List (List Block)}
  {free spare rest taken blocks : List Block}

/-- The order of what the blocks belong to does not matter. -/
theorem reorder (h : Layout sha256 raw live deleted free spare) (hlive : live.Perm others)
    (hdeleted : deleted.Perm chains) (hspare : spare.Perm rest) :
    Layout sha256 raw others chains free rest where
  length := h.length
  magic := h.magic
  header := h.header
  sectors := h.sectors
  checksums := h.checksums
  entries entry hentry := h.entries entry (hlive.mem_iff.mpr hentry)
  identities := (hlive.map _).nodup_iff.mp h.identities
  deletedChains chain hchain := h.deletedChains chain (hdeleted.mem_iff.mpr hchain)
  freeStates := h.freeStates
  exactly := by
    refine List.Perm.trans ?_ h.exactly
    exact ((((hlive.flatMap_right _).append hdeleted.flatten).append_right free).append hspare).symm

theorem not_mem_spare (h : Layout sha256 raw live deleted free spare) {block : Block}
    (hblock : block ∈ consumed live ++ deleted.flatten ++ free) : block ∉ spare :=
  fun hspare => (List.nodup_append.mp h.nodup).2.2 block hblock block hspare rfl

/-- The spare blocks may be written over. -/
theorem rewrites (h : Layout sha256 raw live deleted free spare)
    (hrewrites : Rewrites raw raw' blocks) (hspare : ∀ block ∈ blocks, block ∈ spare)
    (hsums : ∀ block ∈ blocks, Bytes.xorAll (directoryFrame raw' block) = 0) :
    Layout sha256 raw' live deleted free spare := by
  have hout : ∀ block ∈ consumed live ++ deleted.flatten ++ free, block ∉ blocks :=
    fun block hblock hin => h.not_mem_spare hblock (hspare block hin)
  have hframe : ∀ block ∈ consumed live ++ deleted.flatten ++ free,
      directoryFrame raw' block = directoryFrame raw block :=
    fun block hblock => hrewrites.directoryFrame_eq (hout block hblock)
  refine ⟨hrewrites.length.trans h.length, ?_, ?_, ?_, ?_, ?_, h.identities, ?_, ?_, h.exactly⟩
  · rw [hrewrites.header_eq]
    exact h.magic
  · rw [hrewrites.header_eq]
    exact h.header
  · intro index hindex
    rw [hrewrites.checkSector_eq hindex]
    exact h.sectors index hindex
  · intro block
    by_cases hin : block ∈ blocks
    · exact hsums block hin
    · rw [hrewrites.directoryFrame_eq hin]
      exact h.checksums block
  · intro entry hentry
    have hmem : ∀ block ∈ entry.blocks, block ∈ consumed live ++ deleted.flatten ++ free :=
      fun block hblock => List.mem_append_left _ (List.mem_append_left _
        (List.mem_flatMap.mpr ⟨entry, hentry, hblock⟩))
    exact entryOf_congr (h.entries entry hentry)
      (fun block hblock => hframe block (hmem block hblock))
      fun block hblock => hrewrites.blockData_eq (hout block (hmem block hblock))
  · intro chain hchain
    refine isChain_congr (h.deletedChains chain hchain) fun block hblock => hframe block ?_
    exact List.mem_append_left _ (List.mem_append_right _
      (List.mem_flatten.mpr ⟨chain, hchain, hblock⟩))
  · intro block hblock
    rw [hframe block (List.mem_append_right _ hblock)]
    exact h.freeStates block hblock

/-! ### Blocks become spare -/

theorem releaseLive (h : Layout sha256 raw (entry :: live) deleted free spare) :
    Layout sha256 raw live deleted free (entry.blocks ++ spare) := by
  refine ⟨h.length, h.magic, h.header, h.sectors, h.checksums,
    fun other hother => h.entries other (List.mem_cons_of_mem _ hother),
    (List.nodup_cons.mp h.identities).2, h.deletedChains, h.freeStates,
    List.Perm.trans ?_ h.exactly⟩
  rw [consumed, consumed, List.flatMap_cons]
  refine (List.perm_iff_count).mpr fun block => ?_
  simp only [List.count_append]
  omega

theorem releaseDeleted (h : Layout sha256 raw live (chain :: deleted) free spare) :
    Layout sha256 raw live deleted free (chain ++ spare) := by
  refine ⟨h.length, h.magic, h.header, h.sectors, h.checksums, h.entries, h.identities,
    fun other hother => h.deletedChains other (List.mem_cons_of_mem _ hother), h.freeStates,
    List.Perm.trans ?_ h.exactly⟩
  rw [List.flatten_cons]
  refine (List.perm_iff_count).mpr fun block => ?_
  simp only [List.count_append]
  omega

theorem takeFree (h : Layout sha256 raw live deleted (taken ++ free) spare) :
    Layout sha256 raw live deleted free (taken ++ spare) := by
  refine ⟨h.length, h.magic, h.header, h.sectors, h.checksums, h.entries, h.identities,
    h.deletedChains, fun block hblock => h.freeStates block (List.mem_append_right _ hblock),
    List.Perm.trans ?_ h.exactly⟩
  refine (List.perm_iff_count).mpr fun block => ?_
  simp only [List.count_append]
  omega

/-! ### Spare blocks become a chain -/

theorem nodup_spare (h : Layout sha256 raw live deleted free spare) : spare.Nodup :=
  (List.nodup_append.mp h.nodup).2.1

/-- **Marking.** -/
theorem markDeleted (h : Layout sha256 raw live deleted free (blocks ++ spare))
    (hne : blocks ≠ []) :
    ∃ raw', Ps1.markDeleted raw blocks = .ok raw' ∧ Rewrites raw raw' blocks
      ∧ (∀ block, blockData raw' block = blockData raw block)
      ∧ Layout sha256 raw' live (blocks :: deleted) free spare := by
  have hblocks : blocks.Nodup := (List.nodup_append.mp h.nodup_spare).1
  obtain ⟨raw', hmarked, hrewrites, hdata, hsums, hchain⟩ :=
    @markDeletedFrom_spec raw true blocks h.length hblocks
  have hwritten := h.rewrites hrewrites (fun block hblock => List.mem_append_left _ hblock) hsums
  refine ⟨raw', hmarked, hrewrites, hdata, hwritten.length, hwritten.magic, hwritten.header,
    hwritten.sectors, hwritten.checksums, hwritten.entries, hwritten.identities,
    List.forall_mem_cons.mpr ⟨hchain hne, hwritten.deletedChains⟩, hwritten.freeStates,
    List.Perm.trans ?_ h.exactly⟩
  rw [List.flatten_cons]
  refine (List.perm_iff_count).mpr fun block => ?_
  simp only [List.count_append]
  omega

/-- **Writing.** -/
theorem writeChain {source : Bytes}
    (h : Layout sha256 raw live deleted free (blocks ++ spare))
    (hstored : Stored sha256 source entry) (hcount : blocks.length = entry.blocks.length)
    (hnew : entry.identity ∉ live.map (·.identity)) :
    ∃ raw', Ps1.writeChain raw blocks (extracted entry).payload = .ok raw'
      ∧ Rewrites raw raw' blocks
      ∧ List.Forall₂ AgreeOutside (blocks.map (directoryFrame raw')) entry.frames
      ∧ Layout sha256 raw' (movedTo entry raw' blocks :: live) deleted free spare := by
  have hblocks : blocks.Nodup := (List.nodup_append.mp h.nodup_spare).1
  have hne : blocks ≠ [] := List.length_pos_iff.mp (hcount ▸ hstored.blocks_pos)
  obtain ⟨raw', hwrite, hrewrites, hsums, hchain, hagree, hdata⟩ :=
    @writeChainFrom_spec raw true blocks entry.frames entry.dataBlocks h.length hblocks
      hstored.isFrame (hstored.length_frames.trans hcount.symm) hstored.length_data
      (hstored.length_dataBlocks.trans hcount.symm)
  have hwritten := h.rewrites hrewrites (fun block hblock => List.mem_append_left _ hblock) hsums
  have hmoved := entryOf_movedTo hstored hwritten.length hblocks hcount (hchain hne) hagree hdata
  refine ⟨raw', ?_, hrewrites, hagree, hwritten.length, hwritten.magic, hwritten.header,
    hwritten.sectors, hwritten.checksums, List.forall_mem_cons.mpr ⟨hmoved, hwritten.entries⟩,
    List.nodup_cons.mpr ⟨hnew, hwritten.identities⟩, hwritten.deletedChains, hwritten.freeStates,
    List.Perm.trans ?_ h.exactly⟩
  · have hlengths : blocks.length = (extracted entry).payload.dataBlocks.length :=
      hcount.trans hstored.length_dataBlocks.symm
    rw [Ps1.writeChain, require, if_pos hlengths, ok_bind]
    exact hwrite
  · rw [consumed, consumed, List.flatMap_cons]
    refine (List.perm_iff_count).mpr fun block => ?_
    simp only [List.count_append]
    show List.count block blocks + _ + _ + _ + _ = _
    omega

end Layout

end RomCloud.Containers.Ps1
