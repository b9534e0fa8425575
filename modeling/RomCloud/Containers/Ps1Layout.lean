import RomCloud.Containers.Ps1Rebuild

namespace RomCloud.Containers.Ps1

open Lib

/-!
# The layout of a memory card

The blocks of a card, by what they belong to: the live saves, the deleted chains, the free blocks,
and **spare** blocks that are being written.  A card without spare blocks is one that the reader
accepts, and the writer goes from one such card to the next.

* `parseChain_complete`, `parseEntry_complete` — the reader finds every chain;
* `Layout` — what the blocks belong to;
* `layout_of_parse`, `Layout.parse` — the layouts without spare blocks are the accepted cards.
-/

variable {sha256 : Bytes → String} {frames frames' data data' : Block → Bytes} {kind : ChainKind}
  {chain blocks : List Block} {b : Block} {entry : ParsedEntry}

/-! ### The reader finds every chain -/

theorem parseChainFrom_complete {fuel : ℕ} {current : Block} {rest : List Block}
    (h : Chained frames kind chain.isEmpty (current :: rest))
    (hnodup : (chain ++ current :: rest).Nodup) (hfuel : rest.length < fuel) :
    parseChainFrom frames kind fuel chain current = .ok (chain ++ current :: rest) := by
  induction rest generalizing chain current fuel with
  | nil =>
    obtain ⟨fuel, rfl⟩ : ∃ f, fuel = f + 1 := ⟨fuel - 1, by omega⟩
    obtain ⟨hnext, hstate, -⟩ := chained_cons_iff.mp h
    have hnew : current ∉ chain := fun hmem =>
      (List.nodup_append.mp hnodup).2.2 current hmem current List.mem_cons_self rfl
    rw [parseChainFrom, require, if_pos hnew, ok_bind, hnext, ok_bind, hstate, ok_bind]
    simp only [require, if_true, ok_bind, List.head?_nil]
    rfl
  | cons next more ih =>
    obtain ⟨fuel, rfl⟩ : ∃ f, fuel = f + 1 := ⟨fuel - 1, by omega⟩
    obtain ⟨hnext, hstate, hrest⟩ := chained_cons_iff.mp h
    have hnew : current ∉ chain := fun hmem =>
      (List.nodup_append.mp hnodup).2.2 current hmem current List.mem_cons_self rfl
    have hjoined : chain ++ current :: next :: more = (chain ++ [current]) ++ next :: more := by
      simp
    have hempty : (chain ++ [current]).isEmpty = false := by simp
    rw [parseChainFrom, require, if_pos hnew, ok_bind, hnext, ok_bind, hstate, ok_bind]
    simp only [require, if_true, ok_bind, List.head?_cons]
    rw [hjoined] at hnodup ⊢
    exact ih (by rw [hempty]; exact hrest (List.cons_ne_nil _ _)) hnodup
      (by rw [List.length_cons] at hfuel; omega)

theorem parseChain_complete {start : Block} {rest : List Block}
    (h : IsChain frames kind (start :: rest)) (hnodup : (start :: rest).Nodup) :
    parseChain frames start kind = .ok (start :: rest) := by
  have hchained : Chained frames kind ([] : List Block).isEmpty (start :: rest) := h
  have hlength : (start :: rest).length ≤ 15 := length_chain_le hnodup
  have hstate : state (frames start) = .ok kind.header := (chained_cons_iff.mp hchained).2.1
  rw [parseChain, hstate, ok_bind, require, if_pos rfl, ok_bind]
  exact parseChainFrom_complete hchained hnodup (by rw [List.length_cons] at hlength; omega)

/-- The header of a chain is its first block, and no other. -/
theorem header_iff (h : IsChain frames kind chain) (hb : b ∈ chain) :
    state (frames b) = .ok kind.header ↔ chain.head? = some b := by
  have hrest : ∀ {rest : List Block}, Continues frames kind rest → b ∈ rest →
      state (frames b) ≠ .ok kind.header := by
    intro rest hrest
    induction hrest with
    | last _ hstate =>
      intro hmem heq
      rw [List.mem_singleton.mp hmem, hstate] at heq
      revert heq
      cases kind <;> decide
    | more _ hstate _ ih =>
      intro hmem heq
      rcases List.mem_cons.mp hmem with rfl | hmem
      · rw [hstate] at heq
        revert heq
        cases kind <;> decide
      · exact ih hmem heq
  cases h with
  | single _ hstate =>
    rw [List.mem_singleton.mp hb]
    exact iff_of_true hstate rfl
  | more _ hstate hmore =>
    rcases List.mem_cons.mp hb with rfl | hmem
    · exact iff_of_true hstate rfl
    · refine iff_of_false (hrest hmore hmem) fun heq => ?_
      cases heq
      exact hrest hmore hmem hstate

theorem parseEntry_complete {entries : List ParsedEntry} (h : EntryOf sha256 frames data entry)
    (hhead : entry.blocks.head? = some b) (hapart : ∀ c ∈ entry.blocks, c ∉ consumed entries)
    (hnew : entry.identity ∉ entries.map (·.identity)) :
    parseEntry sha256 frames data entries b = .ok entry := by
  obtain ⟨identity, mergeDomainId, name, blocks, entryFrames, dataBlocks, canonicalHash⟩ := entry
  obtain ⟨hchain, hnodup, hsize, hnamed, hidentity, ⟨gameNamespace, hcommercial, hdomain⟩, hframes,
    hdata, hhash⟩ := h
  simp only at *
  subst hidentity hdomain hframes hdata
  obtain ⟨rest, rfl⟩ : ∃ rest, blocks = b :: rest := by
    cases blocks with
    | nil => cases hhead
    | cons first rest =>
      cases hhead
      exact ⟨rest, rfl⟩
  have hall : (b :: rest).all (· ∉ consumed entries) = true := by simpa using hapart
  have hfirst := hsize b rfl
  rw [ParsedEntry.sizeBytes] at hfirst
  rw [parseEntry, parseChain_complete hchain hnodup, ok_bind]
  simp only [require, hall, if_true, ok_bind, hfirst, hnamed b rfl, hnew, not_false_eq_true,
    hcommercial, hhash]
  rfl

/-! ### Layouts -/

/-- What the blocks of a card belong to. -/
structure Layout (sha256 : Bytes → String) (raw : Bytes) (live : List ParsedEntry)
    (deleted : List (List Block)) (free spare : List Block) : Prop where
  length : raw.length = cardSize
  magic : (raw.take frameSize).take 2 = [0x4D, 0x43]
  header : Bytes.xorAll (raw.take frameSize) = 0
  sectors : ∀ index ∈ List.range' 16 20, checkSector raw index = .ok ()
  checksums : ∀ block, Bytes.xorAll (directoryFrame raw block) = 0
  entries : ∀ entry ∈ live, EntryOf sha256 (directoryFrame raw) (blockData raw) entry
  identities : (live.map (·.identity)).Nodup
  deletedChains : ∀ chain ∈ deleted, IsChain (directoryFrame raw) .deleted chain
  freeStates : ∀ block ∈ free, state (directoryFrame raw block) = .ok .free
    ∧ nextBlock (directoryFrame raw block) = .ok none
  exactly : (consumed live ++ deleted.flatten ++ free ++ spare).Perm dataBlocks

/-- What the accepting reader has checked. -/
theorem layout_of_parse {raw : Bytes} {card : ParsedCard} (h : parse sha256 raw = .ok card) :
    card.raw = raw ∧ ∃ deleted, Layout sha256 raw card.live deleted card.freeBlocks [] := by
  obtain ⟨hraw, deleted, hpartitioned⟩ := parse_ok h
  rw [parse, check_bind_eq_ok_iff, require_eq_ok_iff, check_bind_eq_ok_iff, require_eq_ok_iff,
    check_bind_eq_ok_iff, require_eq_ok_iff, check_bind_eq_ok_iff, check_bind_eq_ok_iff,
    checkAll_eq_ok_iff, checkAll_eq_ok_iff] at h
  obtain ⟨-, hmagic, hheader, hframes, hsectors, h⟩ := h
  obtain ⟨live, hlive, h⟩ := bind_eq_ok h
  obtain ⟨removed, hremoved, h⟩ := bind_eq_ok h
  rw [check_bind_eq_ok_iff, checkAll_eq_ok_iff] at h
  obtain ⟨hblocks, h⟩ := h
  have hall : ∀ block : Block, block ∈ dataBlocks := List.mem_finRange
  obtain ⟨-, -, hidentities, -, -⟩ :=
    parseLive_ok hlive (by simp) (by simp [consumed]) (by simp)
  have hcard : card.raw = raw ∧ card.live.Perm live := by
    cases h
    exact ⟨rfl, List.perm_insertionSort _ _⟩
  refine ⟨hcard.1, deleted, hraw, hmagic, hheader, hsectors, fun block => ?_, hpartitioned.live,
    ?_, hpartitioned.deletedChains, fun block hblock => ?_, ?_⟩
  · have hframe := hframes block (hall block)
    rw [checkFrame, check_bind_eq_ok_iff, require_eq_ok_iff] at hframe
    exact hframe.1
  · exact (hcard.2.map _).nodup_iff.mpr hidentities
  · have hfree := (hpartitioned.freeBlocks block).mp hblock
    have hchecked := hblocks block (hall block)
    rw [checkBlock, hfree, ok_bind, check_bind_eq_ok_iff] at hchecked
    obtain ⟨-, hchecked⟩ := hchecked
    rw [if_pos rfl] at hchecked
    obtain ⟨next, hnext, hnone⟩ := bind_eq_ok hchecked
    rw [require_eq_ok_iff] at hnone
    exact ⟨hfree, hnone ▸ hnext⟩
  · rw [List.append_nil]
    exact hpartitioned.exactly

/-! ### Layouts without spare blocks are accepted -/

/-- What begins at a block. -/
def startingAt {α : Type} (items : List α) (blocksOf : α → List Block) (block : Block) : Option α :=
  items.find? fun item => (blocksOf item).head? = some block

section Starting

variable {α : Type} {items : List α} {blocksOf : α → List Block}

/-- What begins at the blocks of a card is everything, each once. -/
theorem perm_startingAt (hnodup : (items.flatMap blocksOf).Nodup)
    (hne : ∀ item ∈ items, blocksOf item ≠ []) :
    (dataBlocks.filterMap (startingAt items blocksOf)).Perm items := by
  have hapart : items.Pairwise fun x y => List.Disjoint (blocksOf x) (blocksOf y) :=
    (List.nodup_flatMap.mp hnodup).2
  have hfound : ∀ {block : Block} {item : α}, startingAt items blocksOf block = some item →
      item ∈ items ∧ (blocksOf item).head? = some block := by
    intro block item h
    have hhead := List.find?_some h
    exact ⟨List.mem_of_find?_eq_some h, by simpa using hhead⟩
  have hsame : ∀ x ∈ items, ∀ y ∈ items, ∀ block, (blocksOf x).head? = some block →
      (blocksOf y).head? = some block → x = y := by
    intro x hx y hy block hxb hyb
    by_contra hxy
    have hsymm : Std.Symm fun x y : α => List.Disjoint (blocksOf x) (blocksOf y) :=
      ⟨fun _ _ h => h.symm⟩
    exact hapart.forall hx hy hxy (List.mem_of_mem_head? hxb) (List.mem_of_mem_head? hyb)
  have hitems : items.Nodup := hapart.imp_of_mem fun {x y} hx _ hdisjoint heq => by
    obtain ⟨c, hc⟩ := List.exists_mem_of_ne_nil _ (hne x hx)
    exact hdisjoint hc (heq ▸ hc)
  have hfilter : (dataBlocks.filterMap (startingAt items blocksOf)).Nodup := by
    refine (List.nodup_finRange 15).filterMap fun b c item hb hc => ?_
    exact Option.some.inj ((hfound hb).2.symm.trans (hfound hc).2)
  refine (List.perm_ext_iff_of_nodup hfilter hitems).mpr fun item => ?_
  rw [List.mem_filterMap]
  constructor
  · rintro ⟨block, -, hblock⟩
    exact (hfound hblock).1
  · intro hitem
    obtain ⟨first, rest, hblocks⟩ := List.exists_cons_of_ne_nil (hne item hitem)
    have hhead : (blocksOf item).head? = some first := by rw [hblocks]; rfl
    refine ⟨first, List.mem_finRange first, ?_⟩
    cases hat : startingAt items blocksOf first with
    | none =>
      have hnone := List.find?_eq_none.mp hat item hitem
      exact absurd hhead (by simpa using hnone)
    | some found =>
      obtain ⟨hmem, hfirst⟩ := hfound hat
      rw [hsame found hmem item hitem first hfirst hhead]

end Starting

namespace Layout

variable {raw raw' : Bytes} {live : List ParsedEntry} {deleted : List (List Block)}
  {free spare rest : List Block}

theorem nodup (h : Layout sha256 raw live deleted free spare) :
    (consumed live ++ deleted.flatten ++ free ++ spare).Nodup :=
  h.exactly.nodup_iff.mpr (List.nodup_finRange 15)

theorem mem (h : Layout sha256 raw live deleted free spare) (block : Block) :
    block ∈ consumed live ∨ block ∈ deleted.flatten ∨ block ∈ free ∨ block ∈ spare := by
  have hmem := h.exactly.mem_iff.mpr (List.mem_finRange block)
  simpa only [List.mem_append, or_assoc] using hmem

/-- The state of a block, by what it belongs to. -/
theorem state_of_live (h : Layout sha256 raw live deleted free spare) {block : Block}
    (hblock : block ∈ consumed live) : ∃ s ∈ ChainKind.live.states,
      state (directoryFrame raw block) = .ok s := by
  obtain ⟨entry, hentry, hin⟩ := List.mem_flatMap.mp hblock
  exact (h.entries entry hentry).chain.state_mem hin

theorem state_of_deleted (h : Layout sha256 raw live deleted free spare) {block : Block}
    (hblock : block ∈ deleted.flatten) : ∃ s ∈ ChainKind.deleted.states,
      state (directoryFrame raw block) = .ok s := by
  obtain ⟨chain, hchain, hin⟩ := List.mem_flatten.mp hblock
  exact (h.deletedChains chain hchain).state_mem hin

theorem exists_state (h : Layout sha256 raw live deleted free []) (block : Block) :
    ∃ s, state (directoryFrame raw block) = .ok s := by
  rcases h.mem block with hlive | hdeleted | hfree | hspare
  · obtain ⟨s, -, hs⟩ := h.state_of_live hlive
    exact ⟨s, hs⟩
  · obtain ⟨s, -, hs⟩ := h.state_of_deleted hdeleted
    exact ⟨s, hs⟩
  · exact ⟨.free, (h.freeStates block hfree).1⟩
  · exact absurd hspare List.not_mem_nil

theorem free_iff (h : Layout sha256 raw live deleted free []) (block : Block) :
    state (directoryFrame raw block) = .ok .free ↔ block ∈ free := by
  refine ⟨fun hstate => ?_, fun hfree => (h.freeStates block hfree).1⟩
  rcases h.mem block with hlive | hdeleted | hfree | hspare
  · obtain ⟨s, hs, hlive⟩ := h.state_of_live hlive
    cases Except.ok.inj (hlive.symm.trans hstate)
    exact absurd hs (by decide)
  · obtain ⟨s, hs, hdeleted⟩ := h.state_of_deleted hdeleted
    cases Except.ok.inj (hdeleted.symm.trans hstate)
    exact absurd hs (by decide)
  · exact hfree
  · exact absurd hspare List.not_mem_nil

theorem liveHeader_iff (h : Layout sha256 raw live deleted free []) (block : Block) :
    state (directoryFrame raw block) = .ok .liveHeader
      ↔ ∃ entry ∈ live, entry.blocks.head? = some block := by
  constructor
  · intro hstate
    rcases h.mem block with hlive | hdeleted | hfree | hspare
    · obtain ⟨entry, hentry, hin⟩ := List.mem_flatMap.mp hlive
      exact ⟨entry, hentry, (header_iff (h.entries entry hentry).chain hin).mp hstate⟩
    · obtain ⟨s, hs, hdeleted⟩ := h.state_of_deleted hdeleted
      cases Except.ok.inj (hdeleted.symm.trans hstate)
      exact absurd hs (by decide)
    · cases Except.ok.inj ((h.freeStates block hfree).1.symm.trans hstate)
    · exact absurd hspare List.not_mem_nil
  · rintro ⟨entry, hentry, hhead⟩
    exact (header_iff (h.entries entry hentry).chain (List.mem_of_mem_head? hhead)).mpr hhead

theorem deletedHeader_iff (h : Layout sha256 raw live deleted free []) (block : Block) :
    state (directoryFrame raw block) = .ok .deletedHeader
      ↔ ∃ chain ∈ deleted, chain.head? = some block := by
  constructor
  · intro hstate
    rcases h.mem block with hlive | hdeleted | hfree | hspare
    · obtain ⟨s, hs, hlive⟩ := h.state_of_live hlive
      cases Except.ok.inj (hlive.symm.trans hstate)
      exact absurd hs (by decide)
    · obtain ⟨chain, hchain, hin⟩ := List.mem_flatten.mp hdeleted
      exact ⟨chain, hchain, (header_iff (h.deletedChains chain hchain) hin).mp hstate⟩
    · cases Except.ok.inj ((h.freeStates block hfree).1.symm.trans hstate)
    · exact absurd hspare List.not_mem_nil
  · rintro ⟨chain, hchain, hhead⟩
    exact (header_iff (h.deletedChains chain hchain) (List.mem_of_mem_head? hhead)).mpr hhead

theorem nodup_consumed (h : Layout sha256 raw live deleted free spare) : (consumed live).Nodup :=
  (List.nodup_append.mp (List.nodup_append.mp (List.nodup_append.mp h.nodup).1).1).1

theorem nodup_deleted (h : Layout sha256 raw live deleted free spare) : deleted.flatten.Nodup :=
  (List.nodup_append.mp (List.nodup_append.mp (List.nodup_append.mp h.nodup).1).1).2.1

/-- Two live saves have no block in common. -/
theorem eq_of_mem_blocks (h : Layout sha256 raw live deleted free spare) {one other : ParsedEntry}
    (hone : one ∈ live) (hother : other ∈ live) {block : Block} (hblock : block ∈ one.blocks)
    (hin : block ∈ other.blocks) : one = other := by
  by_contra hne
  have hapart : live.Pairwise fun x y => List.Disjoint x.blocks y.blocks :=
    (List.nodup_flatMap.mp h.nodup_consumed).2
  have hsymm : Std.Symm fun x y : ParsedEntry => List.Disjoint x.blocks y.blocks :=
    ⟨fun _ _ h => h.symm⟩
  exact hapart.forall hone hother hne hblock hin

/-- Nor have two deleted chains. -/
theorem eq_of_mem_chains (h : Layout sha256 raw live deleted free spare) {one other : List Block}
    (hone : one ∈ deleted) (hother : other ∈ deleted) {block : Block} (hblock : block ∈ one)
    (hin : block ∈ other) : one = other := by
  by_contra hne
  have hapart : deleted.Pairwise List.Disjoint := (List.nodup_flatten.mp h.nodup_deleted).2
  have hsymm : Std.Symm (@List.Disjoint Block) := ⟨fun _ _ h => h.symm⟩
  exact hapart.forall hone hother hne hblock hin

theorem disjoint_live_deleted (h : Layout sha256 raw live deleted free spare) :
    ∀ block ∈ deleted.flatten, block ∉ consumed live := fun block hdeleted hlive =>
  (List.nodup_append.mp (List.nodup_append.mp (List.nodup_append.mp h.nodup).1).1).2.2 block hlive
    block hdeleted rfl

/-- The live pass finds what begins at each block. -/
theorem parseLive_eq (h : Layout sha256 raw live deleted free []) {blocks : List Block}
    (hblocks : blocks.Nodup) {entries : List ParsedEntry}
    (hentries : ∀ entry ∈ entries, entry ∈ live
      ∧ ∀ block ∈ blocks, entry.blocks.head? ≠ some block) :
    parseLive sha256 (directoryFrame raw) (blockData raw) entries blocks
      = .ok (entries ++ blocks.filterMap (startingAt live (·.blocks))) := by
  induction blocks generalizing entries with
  | nil => simp [parseLive]
  | cons block rest ih =>
    obtain ⟨hnew, hrest⟩ := List.nodup_cons.mp hblocks
    obtain ⟨s, hs⟩ := h.exists_state block
    rw [parseLive, hs, ok_bind]
    cases hat : startingAt live (·.blocks) block with
    | none =>
      -- no live save begins here
      have hother : s ≠ .liveHeader := by
        rintro rfl
        obtain ⟨entry, hentry, hhead⟩ := (h.liveHeader_iff block).mp hs
        exact absurd hhead (by simpa using List.find?_eq_none.mp hat entry hentry)
      rw [if_neg hother, ih hrest fun entry he => ⟨(hentries entry he).1, fun b hb =>
        (hentries entry he).2 b (List.mem_cons_of_mem _ hb)⟩, List.filterMap_cons_none hat]
    | some entry =>
      have hentry : entry ∈ live := List.mem_of_find?_eq_some hat
      have hhead : entry.blocks.head? = some block := by simpa using List.find?_some hat
      have hheader : s = .liveHeader :=
        Except.ok.inj (hs.symm.trans ((h.liveHeader_iff block).mpr ⟨entry, hentry, hhead⟩))
      have hothers : ∀ other ∈ entries, other ≠ entry := by
        rintro other hother rfl
        exact (hentries other hother).2 block List.mem_cons_self hhead
      have hparsed : parseEntry sha256 (directoryFrame raw) (blockData raw) entries block
          = .ok entry := by
        refine parseEntry_complete (h.entries entry hentry) hhead (fun c hc hmem => ?_)
          fun hmem => ?_
        · obtain ⟨other, hother, hin⟩ := List.mem_flatMap.mp hmem
          exact hothers other hother (h.eq_of_mem_blocks (hentries other hother).1 hentry hin hc)
        · obtain ⟨other, hother, hid⟩ := List.mem_map.mp hmem
          exact hothers other hother
            (List.inj_on_of_nodup_map h.identities (hentries other hother).1 hentry hid)
      rw [if_pos hheader, hparsed, ok_bind, ih hrest ?_, List.filterMap_cons_some hat,
        List.append_assoc]
      · rfl
      · intro other hother
        rcases List.mem_append.mp hother with hold | hlast
        · exact ⟨(hentries other hold).1, fun b hb =>
            (hentries other hold).2 b (List.mem_cons_of_mem _ hb)⟩
        · rw [List.mem_singleton.mp hlast]
          refine ⟨hentry, fun b hb heq => hnew ?_⟩
          rw [hhead] at heq
          cases heq
          exact hb

theorem isChain_ne_nil {chain : List Block} (h : IsChain frames kind chain) : chain ≠ [] := by
  obtain ⟨first, hfirst⟩ := h.exists_head
  rintro rfl
  cases hfirst

/-- The deleted pass finds what begins at each block. -/
theorem parseDeleted_eq (h : Layout sha256 raw live deleted free []) {liveBlocks : List Block}
    (hlive : ∀ block, block ∈ liveBlocks ↔ block ∈ consumed live) {blocks : List Block}
    (hblocks : blocks.Nodup) {chains : List (List Block)}
    (hchains : ∀ chain ∈ chains, chain ∈ deleted ∧ ∀ block ∈ blocks, chain.head? ≠ some block) :
    parseDeleted (directoryFrame raw) liveBlocks chains.flatten blocks
      = .ok (chains ++ blocks.filterMap (startingAt deleted id)).flatten := by
  induction blocks generalizing chains with
  | nil => simp [parseDeleted]
  | cons block rest ih =>
    obtain ⟨hnew, hrest⟩ := List.nodup_cons.mp hblocks
    obtain ⟨s, hs⟩ := h.exists_state block
    rw [parseDeleted, hs, ok_bind]
    cases hat : startingAt deleted id block with
    | none =>
      have hother : s ≠ .deletedHeader := by
        rintro rfl
        obtain ⟨chain, hchain, hhead⟩ := (h.deletedHeader_iff block).mp hs
        exact absurd hhead (by simpa using List.find?_eq_none.mp hat chain hchain)
      rw [if_neg hother, ih hrest fun chain hc => ⟨(hchains chain hc).1, fun b hb =>
        (hchains chain hc).2 b (List.mem_cons_of_mem _ hb)⟩, List.filterMap_cons_none hat]
    | some chain =>
      have hchain : chain ∈ deleted := List.mem_of_find?_eq_some hat
      have hhead : chain.head? = some block := by simpa using List.find?_some hat
      have hheader : s = .deletedHeader :=
        Except.ok.inj (hs.symm.trans ((h.deletedHeader_iff block).mpr ⟨chain, hchain, hhead⟩))
      obtain ⟨more, rfl⟩ : ∃ more, chain = block :: more := by
        obtain ⟨first, more, rfl⟩ :=
          List.exists_cons_of_ne_nil (isChain_ne_nil (h.deletedChains chain hchain))
        cases hhead
        exact ⟨more, rfl⟩
      have hparsed : parseChain (directoryFrame raw) block .deleted = .ok (block :: more) :=
        parseChain_complete (h.deletedChains _ hchain)
          ((List.nodup_flatten.mp h.nodup_deleted).1 _ hchain)
      have hapart : (block :: more).all (fun b => b ∉ liveBlocks ∧ b ∉ chains.flatten) = true := by
        simp only [List.all_eq_true, decide_eq_true_eq]
        intro b hb
        refine ⟨fun hmem => ?_, fun hmem => ?_⟩
        · exact h.disjoint_live_deleted b (List.mem_flatten.mpr ⟨_, hchain, hb⟩)
            ((hlive b).mp hmem)
        · obtain ⟨other, hother, hin⟩ := List.mem_flatten.mp hmem
          have heq := h.eq_of_mem_chains (hchains other hother).1 hchain hin hb
          exact (hchains other hother).2 block List.mem_cons_self (heq ▸ hhead)
      have hjoined : chains.flatten ++ (block :: more) = (chains ++ [block :: more]).flatten := by
        simp
      rw [if_pos hheader, hparsed, ok_bind, require, if_pos hapart, ok_bind, hjoined, ih hrest ?_,
        List.filterMap_cons_some hat, List.append_assoc]
      · rfl
      · intro other hother
        rcases List.mem_append.mp hother with hold | hlast
        · exact ⟨(hchains other hold).1, fun b hb =>
            (hchains other hold).2 b (List.mem_cons_of_mem _ hb)⟩
        · rw [List.mem_singleton.mp hlast]
          refine ⟨hchain, fun b hb heq => hnew ?_⟩
          rw [hhead] at heq
          cases heq
          exact hb

/-- **Completeness of the reader.** A card without spare blocks is accepted, with the saves and the
free blocks of its layout. -/
theorem parse (h : Layout sha256 raw live deleted free []) :
    ∃ card, parse sha256 raw = .ok card ∧ card.live.Perm live
      ∧ card.live.Pairwise (fun a b => a.identity ≤ b.identity)
      ∧ card.freeBlocks = dataBlocks.filter (· ∈ free) := by
  have hliveNe : ∀ entry ∈ live, entry.blocks ≠ [] := fun entry he =>
    isChain_ne_nil (h.entries entry he).chain
  have hdeletedNe : ∀ chain ∈ deleted, id chain ≠ [] := fun chain hc =>
    isChain_ne_nil (h.deletedChains chain hc)
  obtain ⟨found, hfound⟩ : ∃ found,
      found = dataBlocks.filterMap (startingAt live (·.blocks)) := ⟨_, rfl⟩
  obtain ⟨chains, hchains⟩ : ∃ chains,
      chains = dataBlocks.filterMap (startingAt deleted id) := ⟨_, rfl⟩
  have hperm : found.Perm live := hfound ▸ perm_startingAt h.nodup_consumed hliveNe
  have hchainsPerm : chains.Perm deleted := by
    rw [hchains]
    exact perm_startingAt (by rw [List.flatMap_id]; exact h.nodup_deleted) hdeletedNe
  have hblocks : ∀ block, block ∈ consumed found ↔ block ∈ consumed live := fun block =>
    (hperm.flatMap_right _).mem_iff
  have hall : dataBlocks.Nodup := List.nodup_finRange 15
  have hlive : parseLive sha256 (directoryFrame raw) (blockData raw) [] dataBlocks = .ok found := by
    rw [@parseLive_eq sha256 raw live deleted free h dataBlocks hall []
      fun _ he => absurd he List.not_mem_nil, hfound, List.nil_append]
  have hdeleted : parseDeleted (directoryFrame raw) (consumed found) [] dataBlocks
      = .ok chains.flatten := by
    have heq := @parseDeleted_eq sha256 raw live deleted free h _ hblocks dataBlocks hall []
      fun _ hc => absurd hc List.not_mem_nil
    rwa [List.flatten_nil, List.nil_append, ← hchains] at heq
  have hframes : checkAll (checkFrame (directoryFrame raw)) dataBlocks = .ok () := by
    rw [checkAll_eq_ok_iff]
    intro block _
    obtain ⟨s, hs⟩ := h.exists_state block
    rw [checkFrame, check_bind_eq_ok_iff, require_eq_ok_iff, hs]
    exact ⟨h.checksums block, rfl⟩
  have hchecked : checkAll (checkBlock (directoryFrame raw) (consumed found) chains.flatten)
      dataBlocks = .ok () := by
    rw [checkAll_eq_ok_iff]
    intro block _
    obtain ⟨s, hs⟩ := h.exists_state block
    have hbelongs : s ∈ continuationStates → block ∈ consumed found ∨ block ∈ chains.flatten := by
      intro hcontinues
      rcases h.mem block with hin | hin | hin | hin
      · exact Or.inl ((hblocks block).mpr hin)
      · exact Or.inr ((hchainsPerm.flatten).mem_iff.mpr hin)
      · cases Except.ok.inj (hs.symm.trans (h.freeStates block hin).1)
        exact absurd hcontinues (by decide)
      · exact absurd hin List.not_mem_nil
    rw [checkBlock, hs, ok_bind, check_bind_eq_ok_iff, require_eq_ok_iff]
    refine ⟨hbelongs, ?_⟩
    split
    · next hfree =>
      rw [(h.freeStates block ((h.free_iff block).mp (hfree ▸ hs))).2, ok_bind, require_eq_ok_iff]
    · rfl
  have hsectors := (checkAll_eq_ok_iff (checkSector raw) (List.range' 16 20)).mpr h.sectors
  refine ⟨⟨raw, found.insertionSort fun a b => a.identity ≤ b.identity, chains.flatten,
    dataBlocks.filter (isFree (directoryFrame raw))⟩, ?_, ?_, ?_, ?_⟩
  · rw [Containers.parse]
    simp only [require, h.length, h.magic, h.header, if_true, ok_bind, hframes, hsectors, hlive,
      hdeleted, hchecked]
    rfl
  · exact (List.perm_insertionSort _ _).trans hperm
  · exact List.pairwise_insertionSort (fun a b : ParsedEntry => a.identity ≤ b.identity) found
  · apply List.filter_congr
    intro block _
    rw [Bool.eq_iff_iff, isFree_iff, decide_eq_true_eq]
    exact h.free_iff block

end Layout

end RomCloud.Containers.Ps1
