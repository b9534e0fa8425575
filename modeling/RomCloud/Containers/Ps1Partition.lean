import Mathlib.Data.Fintype.Card
import RomCloud.Containers.Ps1Encoding

namespace RomCloud.Containers

open Lib

/-!
# What the reader of a memory card accepts

The blocks of an accepted card, by what they belong to, and what is raised for any other bytes.

* `Continues`, `IsChain` — the chains of the directory;
* `parseChainFrom_ok`, `parseChainFrom_fuel` — the loop finds a chain, and its bound is never met
  first;
* `EntryOf` — what a parsed entry says of the card;
* `parseLive_ok`, `parseDeleted_ok` — the two passes over the headers;
* `RaisesOpaque` — nothing but `OpaqueContainerError` is raised;
* `parse_partitions` — each block is in one live chain, in one deleted chain or free.
-/

/-! ### Chains -/

/-- The rest of a chain: linked middle blocks, and the last one. -/
inductive Continues (frames : Block → Bytes) (kind : ChainKind) : List Block → Prop
  | last {b : Block} : nextBlock (frames b) = .ok none → state (frames b) = .ok kind.last →
      Continues frames kind [b]
  | more {b c : Block} {rest : List Block} : nextBlock (frames b) = .ok (some c) →
      state (frames b) = .ok kind.middle → Continues frames kind (c :: rest) →
      Continues frames kind (b :: c :: rest)

/-- A chain: a single header, or a header and the rest that it leads to. -/
inductive IsChain (frames : Block → Bytes) (kind : ChainKind) : List Block → Prop
  | single {b : Block} : nextBlock (frames b) = .ok none → state (frames b) = .ok kind.header →
      IsChain frames kind [b]
  | more {b c : Block} {rest : List Block} : nextBlock (frames b) = .ok (some c) →
      state (frames b) = .ok kind.header → Continues frames kind (c :: rest) →
      IsChain frames kind (b :: c :: rest)

variable {frames : Block → Bytes} {kind : ChainKind} {chain : List Block} {b : Block}

/-- The states that the blocks of a chain may have. -/
def ChainKind.states (kind : ChainKind) : List BlockState := [kind.header, kind.middle, kind.last]

theorem Continues.state_mem (h : Continues frames kind chain) (hb : b ∈ chain) :
    ∃ s ∈ kind.states, state (frames b) = .ok s := by
  induction h with
  | last _ hstate =>
    cases List.mem_singleton.mp hb
    exact ⟨kind.last, by simp [ChainKind.states], hstate⟩
  | more _ hstate _ ih =>
    rcases List.mem_cons.mp hb with rfl | hrest
    · exact ⟨kind.middle, by simp [ChainKind.states], hstate⟩
    · exact ih hrest

theorem IsChain.state_mem (h : IsChain frames kind chain) (hb : b ∈ chain) :
    ∃ s ∈ kind.states, state (frames b) = .ok s := by
  cases h with
  | single _ hstate =>
    cases List.mem_singleton.mp hb
    exact ⟨kind.header, by simp [ChainKind.states], hstate⟩
  | more _ hstate hrest =>
    rcases List.mem_cons.mp hb with rfl | hrest'
    · exact ⟨kind.header, by simp [ChainKind.states], hstate⟩
    · exact hrest.state_mem hrest'

theorem IsChain.exists_head (h : IsChain frames kind chain) :
    ∃ first, chain.head? = some first := by
  cases h <;> exact ⟨_, rfl⟩

/-- **The loop.** What it returns goes on from the chain so far, by a chain of its own. -/
theorem parseChainFrom_ok {fuel : ℕ} {current : Block} {result : List Block}
    (h : parseChainFrom frames kind fuel chain current = .ok result) :
    ∃ rest, result = chain ++ current :: rest ∧ (chain.Nodup → result.Nodup)
      ∧ (if chain = [] then IsChain frames kind (current :: rest)
          else Continues frames kind (current :: rest)) := by
  induction fuel generalizing chain current with
  | zero => exact absurd h (by simp [parseChainFrom])
  | succ fuel ih =>
    rw [parseChainFrom, check_bind_eq_ok_iff, require_eq_ok_iff] at h
    obtain ⟨hnew, h⟩ := h
    obtain ⟨next, hnext, h⟩ := bind_eq_ok h
    obtain ⟨current', hstate, h⟩ := bind_eq_ok h
    rw [check_bind_eq_ok_iff, require_eq_ok_iff] at h
    obtain ⟨rfl, h⟩ := h
    have hnodup : chain.Nodup → (chain ++ [current]).Nodup := fun hchain =>
      List.nodup_append.mpr ⟨hchain, List.nodup_singleton _, fun a ha b hb heq =>
        hnew (List.mem_singleton.mp hb ▸ heq ▸ ha)⟩
    cases next with
    | none =>
      cases h
      refine ⟨[], rfl, hnodup, ?_⟩
      split
      · next hempty =>
        subst hempty
        exact .single hnext hstate
      · next hne =>
        have hexpected : kind.expected chain.isEmpty none = kind.last := by
          simp [ChainKind.expected, hne]
        exact .last hnext (hexpected ▸ hstate)
    | some next =>
      obtain ⟨rest, hresult, hkeeps, hrest⟩ := ih h
      rw [if_neg (by simp)] at hrest
      refine ⟨next :: rest, ?_, fun hchain => hkeeps (hnodup hchain), ?_⟩
      · rw [hresult, List.append_assoc]
        rfl
      split
      · next hempty =>
        subst hempty
        exact .more hnext hstate hrest
      · next hne =>
        have hexpected : kind.expected chain.isEmpty (some next) = kind.middle := by
          simp [ChainKind.expected, hne]
        exact .more hnext (hexpected ▸ hstate) hrest

/-- **Termination.** More rounds change nothing: no chain has more blocks than there are. -/
theorem parseChainFrom_fuel {fuel : ℕ} {current : Block} (hchain : chain.Nodup)
    (hfuel : 15 < fuel + chain.length) :
    parseChainFrom frames kind (fuel + 1) chain current
      = parseChainFrom frames kind fuel chain current := by
  induction fuel generalizing chain current with
  | zero =>
    have hlength := List.Nodup.length_le_card hchain
    simp only [Fintype.card_fin] at hlength
    omega
  | succ fuel ih =>
    rw [parseChainFrom, parseChainFrom]
    by_cases hnew : current ∈ chain
    · simp [require, hnew, bind, Except.bind]
    have hnodup : (chain ++ [current]).Nodup :=
      List.nodup_append.mpr ⟨hchain, List.nodup_singleton _, fun a ha b hb heq =>
        hnew (List.mem_singleton.mp hb ▸ heq ▸ ha)⟩
    have hlonger : 15 < fuel + (chain ++ [current]).length := by
      simp only [List.length_append, List.length_singleton]
      omega
    have hrest : ∀ next, parseChainFrom frames kind (fuel + 1) (chain ++ [current]) next
        = parseChainFrom frames kind fuel (chain ++ [current]) next := fun next => ih hnodup hlonger
    simp only [hrest]

theorem parseChain_ok {start : Block} {result : List Block}
    (h : parseChain frames start kind = .ok result) : IsChain frames kind result ∧ result.Nodup
      ∧ ∃ rest, result = start :: rest := by
  rw [parseChain] at h
  obtain ⟨startState, hstate, h⟩ := bind_eq_ok h
  rw [check_bind_eq_ok_iff] at h
  obtain ⟨rest, hresult, hnodup, hchain⟩ := parseChainFrom_ok h.2
  rw [if_pos rfl] at hchain
  subst hresult
  exact ⟨hchain, hnodup List.nodup_nil, rest, rfl⟩

/-! ### Entries -/

/-- What a parsed entry says of the card. -/
structure EntryOf (sha256 : Bytes → String) (frames data : Block → Bytes) (entry : ParsedEntry) :
    Prop where
  chain : IsChain frames .live entry.blocks
  nodup : entry.blocks.Nodup
  size : ∀ first, entry.blocks.head? = some first →
    Bytes.little (Bytes.slice (frames first) 4 4) = entry.sizeBytes
  named : ∀ first, entry.blocks.head? = some first →
    filename (frames first) = .ok entry.filename
  identity : entry.identity = hex entry.filename
  domain : ∃ gameNamespace, commercialNamespace entry.filename = .ok gameNamespace
    ∧ entry.mergeDomainId = "ps1-game:" ++ hex gameNamespace
  entryFrames : entry.frames = entry.blocks.map frames
  dataBlocks : entry.dataBlocks = entry.blocks.map data
  hash : canonicalHash sha256 entry.filename entry.frames entry.dataBlocks
    = .ok entry.canonicalHash

variable {sha256 : Bytes → String} {data : Block → Bytes} {entries : List ParsedEntry}

theorem parseEntry_ok {entry : ParsedEntry}
    (h : parseEntry sha256 frames data entries b = .ok entry) : EntryOf sha256 frames data entry
      ∧ entry.blocks.head? = some b ∧ (∀ c ∈ entry.blocks, c ∉ consumed entries)
      ∧ entry.identity ∉ entries.map (·.identity) := by
  rw [parseEntry] at h
  obtain ⟨chain, hchain, h⟩ := bind_eq_ok h
  rw [check_bind_eq_ok_iff, require_eq_ok_iff] at h
  obtain ⟨hapart, h⟩ := h
  rw [check_bind_eq_ok_iff, require_eq_ok_iff] at h
  obtain ⟨hsize, h⟩ := h
  obtain ⟨name, hname, h⟩ := bind_eq_ok h
  rw [check_bind_eq_ok_iff, require_eq_ok_iff] at h
  obtain ⟨hidentity, h⟩ := h
  obtain ⟨gameNamespace, hnamespace, h⟩ := bind_eq_ok h
  obtain ⟨hash, hhash, h⟩ := bind_eq_ok h
  cases h
  obtain ⟨hischain, hnodup, rest, rfl⟩ := parseChain_ok hchain
  refine ⟨⟨hischain, hnodup, ?_, ?_, rfl, ⟨gameNamespace, hnamespace, rfl⟩, rfl, rfl, hhash⟩, rfl,
    by simpa using hapart, hidentity⟩
  · rintro first hfirst
    cases hfirst
    exact hsize
  · rintro first hfirst
    cases hfirst
    exact hname

theorem consumed_append (entries more : List ParsedEntry) :
    consumed (entries ++ more) = consumed entries ++ consumed more := List.flatMap_append ..

/-- **The live pass.** One entry for each live header, in blocks of its own and with a name of its
    own. -/
theorem parseLive_ok {blocks : List Block} {result : List ParsedEntry}
    (h : parseLive sha256 frames data entries blocks = .ok result)
    (hentries : ∀ entry ∈ entries, EntryOf sha256 frames data entry) (hblocks : (consumed entries).Nodup)
    (hidentities : (entries.map (·.identity)).Nodup) :
    (∀ entry ∈ result, EntryOf sha256 frames data entry) ∧ (consumed result).Nodup
      ∧ (result.map (·.identity)).Nodup ∧ (∀ b ∈ consumed entries, b ∈ consumed result)
      ∧ ∀ b ∈ blocks, state (frames b) = .ok .liveHeader → b ∈ consumed result := by
  induction blocks generalizing entries with
  | nil =>
    cases h
    exact ⟨hentries, hblocks, hidentities, fun _ hb => hb, fun _ hb => absurd hb (by simp)⟩
  | cons block rest ih =>
    rw [parseLive] at h
    obtain ⟨blockState, hstate, h⟩ := bind_eq_ok h
    split at h
    · obtain ⟨entry, hentry, h⟩ := bind_eq_ok h
      obtain ⟨hof, hhead, hapart, hnew⟩ := parseEntry_ok hentry
      have hjoined : consumed (entries ++ [entry]) = consumed entries ++ entry.blocks := by
        rw [consumed_append]
        simp [consumed]
      obtain ⟨hresult, hnodup, hidentities', hkeeps, hcovers⟩ := ih h
        (fun e he => (List.mem_append.mp he).elim (hentries e)
          fun he => List.mem_singleton.mp he ▸ hof)
        (by
          rw [hjoined, List.nodup_append]
          exact ⟨hblocks, hof.nodup, fun a ha c hc heq => hapart c hc (heq ▸ ha)⟩)
        (by
          rw [List.map_append, List.nodup_append]
          refine ⟨hidentities, List.nodup_singleton _, fun a ha c hc heq => ?_⟩
          have heq' : a = entry.identity := heq.trans (List.mem_singleton.mp hc)
          exact hnew (heq' ▸ ha))
      refine ⟨hresult, hnodup, hidentities', fun c hc => ?_, fun c hc hlive => ?_⟩
      · exact hkeeps c (by rw [hjoined]; exact List.mem_append_left _ hc)
      · rcases List.mem_cons.mp hc with rfl | hrest
        · refine hkeeps c ?_
          rw [hjoined]
          exact List.mem_append_right _ (List.mem_of_mem_head? hhead)
        · exact hcovers c hrest hlive
    · next hother =>
      obtain ⟨hresult, hnodup, hidentities', hkeeps, hcovers⟩ := ih h hentries hblocks hidentities
      refine ⟨hresult, hnodup, hidentities', hkeeps, fun c hc hlive => ?_⟩
      rcases List.mem_cons.mp hc with rfl | hrest
      · exact absurd (Except.ok.inj (hstate.symm.trans hlive)) hother
      · exact hcovers c hrest hlive

/-- **The deleted pass.** One chain for each deleted header, in blocks of its own. -/
theorem parseDeleted_ok {live deleted blocks result : List Block}
    (h : parseDeleted frames live deleted blocks = .ok result) (hdeleted : deleted.Nodup)
    (hapart : ∀ b ∈ deleted, b ∉ live) :
    ∃ chains : List (List Block), result = deleted ++ chains.flatten
      ∧ (∀ chain ∈ chains, IsChain frames .deleted chain) ∧ result.Nodup
      ∧ (∀ b ∈ result, b ∉ live)
      ∧ ∀ b ∈ blocks, state (frames b) = .ok .deletedHeader → b ∈ result := by
  induction blocks generalizing deleted with
  | nil =>
    cases h
    exact ⟨[], by simp, by simp, hdeleted, hapart, by simp⟩
  | cons block rest ih =>
    rw [parseDeleted] at h
    obtain ⟨blockState, hstate, h⟩ := bind_eq_ok h
    split at h
    · obtain ⟨chain, hchain, h⟩ := bind_eq_ok h
      rw [check_bind_eq_ok_iff, require_eq_ok_iff] at h
      obtain ⟨hnew, h⟩ := h
      have hnew : ∀ c ∈ chain, c ∉ live ∧ c ∉ deleted := by simpa using hnew
      obtain ⟨hischain, hnodup, more, rfl⟩ := parseChain_ok hchain
      obtain ⟨chains, hresult, hchains, hnodup', hapart', hcovers⟩ := ih h
        (List.nodup_append.mpr ⟨hdeleted, hnodup, fun a ha c hc heq => (hnew c hc).2 (heq ▸ ha)⟩)
        (fun c hc => (List.mem_append.mp hc).elim (hapart c) fun hc => (hnew c hc).1)
      refine ⟨(block :: more) :: chains, ?_, ?_, hnodup', hapart', fun c hc hdel => ?_⟩
      · rw [hresult, List.flatten_cons, List.append_assoc]
      · exact List.forall_mem_cons.mpr ⟨hischain, hchains⟩
      · rcases List.mem_cons.mp hc with rfl | hrest
        · rw [hresult]
          exact List.mem_append_left _ (List.mem_append_right _ List.mem_cons_self)
        · exact hcovers c hrest hdel
    · next hother =>
      obtain ⟨chains, hresult, hchains, hnodup', hapart', hcovers⟩ := ih h hdeleted hapart
      refine ⟨chains, hresult, hchains, hnodup', hapart', fun c hc hdel => ?_⟩
      rcases List.mem_cons.mp hc with rfl | hrest
      · exact absurd (Except.ok.inj (hstate.symm.trans hdel)) hother
      · exact hcovers c hrest hdel

/-! ### What is raised -/

/-- Nothing but `OpaqueContainerError` is raised. -/
structure RaisesOpaque {α : Type} (x : Except Raised α) : Prop where
  raised : ∀ e, x = .error e → ∃ reason detail, e = .opaqueContainer reason detail

section Raises

variable {α β : Type}

theorem raisesOpaque_ok (a : α) : RaisesOpaque (.ok a) := ⟨fun _ h => absurd h (by simp)⟩

theorem raisesOpaque_error (reason : OpaqueReason) (detail : String) :
    RaisesOpaque (.error (.opaqueContainer reason detail) : Except Raised α) :=
  ⟨fun _ h => ⟨reason, detail, (Except.error.inj h).symm⟩⟩

theorem RaisesOpaque.bind {x : Except Raised α} {f : α → Except Raised β} (hx : RaisesOpaque x)
    (hf : ∀ a, x = .ok a → RaisesOpaque (f a)) : RaisesOpaque (x >>= f) := by
  constructor
  intro e he
  cases hresult : x with
  | error first =>
    rw [hresult] at he
    cases he
    exact hx.raised _ hresult
  | ok a =>
    rw [hresult] at he
    exact (hf a hresult).raised e he

theorem raisesOpaque_require (condition : Prop) [Decidable condition] (reason : OpaqueReason)
    (detail : String) : RaisesOpaque (require condition (.opaqueContainer reason detail)) := by
  rw [require]
  split
  · exact raisesOpaque_ok ()
  · exact raisesOpaque_error reason detail

theorem raisesOpaque_checkAll {check : α → Except Raised Unit} {xs : List α}
    (h : ∀ x ∈ xs, RaisesOpaque (check x)) : RaisesOpaque (checkAll check xs) := by
  induction xs with
  | nil => exact raisesOpaque_ok ()
  | cons x rest ih =>
    rw [checkAll]
    exact (h x List.mem_cons_self).bind fun _ _ => ih fun y hy => h y (List.mem_cons_of_mem _ hy)

end Raises

theorem raisesOpaque_state (frame : Bytes) : RaisesOpaque (state frame) := by
  rw [state]
  split
  · split
    · exact raisesOpaque_ok _
    · exact raisesOpaque_error ..
  · exact raisesOpaque_error ..

theorem raisesOpaque_nextBlock (frame : Bytes) : RaisesOpaque (nextBlock frame) := by
  rw [nextBlock]
  split
  · exact raisesOpaque_ok _
  · split
    · exact raisesOpaque_ok _
    · exact raisesOpaque_error ..

theorem raisesOpaque_filename (frame : Bytes) : RaisesOpaque (filename frame) :=
  (raisesOpaque_require ..).bind fun _ _ => (raisesOpaque_require ..).bind fun _ _ =>
    raisesOpaque_ok _

theorem raisesOpaque_commercialNamespace (name : Bytes) :
    RaisesOpaque (commercialNamespace name) :=
  (raisesOpaque_require ..).bind fun _ _ => (raisesOpaque_require ..).bind fun _ _ =>
    raisesOpaque_ok _

theorem raisesOpaque_parseChainFrom (frames : Block → Bytes) (kind : ChainKind) (fuel : ℕ)
    (chain : List Block) (current : Block) :
    RaisesOpaque (parseChainFrom frames kind fuel chain current) := by
  induction fuel generalizing chain current with
  | zero => exact raisesOpaque_error ..
  | succ fuel ih =>
    rw [parseChainFrom]
    refine (raisesOpaque_require ..).bind fun _ _ => (raisesOpaque_nextBlock _).bind fun next _ =>
      (raisesOpaque_state _).bind fun _ _ => (raisesOpaque_require ..).bind fun _ _ => ?_
    cases next with
    | none => exact raisesOpaque_ok _
    | some next => exact ih _ next

theorem raisesOpaque_parseChain (frames : Block → Bytes) (start : Block) (kind : ChainKind) :
    RaisesOpaque (parseChain frames start kind) :=
  (raisesOpaque_state _).bind fun _ _ => (raisesOpaque_require ..).bind fun _ _ =>
    raisesOpaque_parseChainFrom ..

/-! ### The sizes of what is digested -/

theorem isFrame_directoryFrame {raw : Bytes} (hraw : raw.length = cardSize) (block : Block) :
    IsFrame (directoryFrame raw block) := by
  have hblock := block.isLt
  rw [IsFrame, directoryFrame, Bytes.length_slice]
  · rfl
  · rw [hraw]
    simp only [Block.number, frameSize, cardSize]
    omega

theorem length_blockData {raw : Bytes} (hraw : raw.length = cardSize) (block : Block) :
    (blockData raw block).length = blockSize := by
  have hblock := block.isLt
  rw [blockData, Bytes.length_slice]
  rw [hraw]
  simp only [Block.number, blockSize, cardSize]
  omega

theorem length_filename_le {frame name : Bytes} (h : filename frame = .ok name) :
    name.length ≤ 20 := by
  rw [filename] at h
  simp only [check_bind_eq_ok_iff] at h
  obtain ⟨-, -, h⟩ := h
  cases h
  have htake := (List.takeWhile_sublist (p := (· ≠ (0 : UInt8)))
    (l := Bytes.slice frame 0x0A 20)).length_le
  have hslice : (Bytes.slice frame 0x0A 20).length ≤ 20 := List.length_take_le _ _
  exact htake.trans hslice

theorem length_chain_le {chain : List Block} (h : chain.Nodup) : chain.length ≤ 15 := by
  have hlength := List.Nodup.length_le_card h
  simpa using hlength

/-- An entry is digested without an error of the language. -/
theorem raisesOpaque_parseEntry (hframes : ∀ b, IsFrame (frames b)) (entries : List ParsedEntry)
    (b : Block) : RaisesOpaque (parseEntry sha256 frames data entries b) := by
  refine (raisesOpaque_parseChain ..).bind fun chain hchain => (raisesOpaque_require ..).bind
    fun _ _ => (raisesOpaque_require ..).bind fun _ _ => (raisesOpaque_filename _).bind
      fun name hname => (raisesOpaque_require ..).bind fun _ _ =>
        (raisesOpaque_commercialNamespace _).bind fun _ _ => ?_
  have hcount := length_chain_le (parseChain_ok hchain).2.1
  have hlength := length_filename_le hname
  have hsizes : ∀ frame ∈ chain.map frames, IsFrame frame := by
    intro frame hframe
    obtain ⟨block, -, rfl⟩ := List.mem_map.mp hframe
    exact hframes block
  dsimp only
  rw [canonicalHash_eq sha256 _ (by omega) hsizes (by rw [List.length_map]; omega)]
  exact raisesOpaque_ok _

theorem raisesOpaque_parseLive (hframes : ∀ b, IsFrame (frames b)) (entries : List ParsedEntry)
    (blocks : List Block) : RaisesOpaque (parseLive sha256 frames data entries blocks) := by
  induction blocks generalizing entries with
  | nil => exact raisesOpaque_ok _
  | cons block rest ih =>
    rw [parseLive]
    refine (raisesOpaque_state _).bind fun _ _ => ?_
    split
    · exact (raisesOpaque_parseEntry hframes entries block).bind fun _ _ => ih _
    · exact ih _

theorem raisesOpaque_parseDeleted (frames : Block → Bytes) (live deleted blocks : List Block) :
    RaisesOpaque (parseDeleted frames live deleted blocks) := by
  induction blocks generalizing deleted with
  | nil => exact raisesOpaque_ok _
  | cons block rest ih =>
    rw [parseDeleted]
    refine (raisesOpaque_state _).bind fun _ _ => ?_
    split
    · exact (raisesOpaque_parseChain ..).bind fun _ _ => (raisesOpaque_require ..).bind
        fun _ _ => ih _
    · exact ih _

theorem raisesOpaque_checkBlock (frames : Block → Bytes) (live deleted : List Block) (block : Block) :
    RaisesOpaque (checkBlock frames live deleted block) := by
  refine (raisesOpaque_state _).bind fun _ _ => (raisesOpaque_require ..).bind fun _ _ => ?_
  split
  · exact (raisesOpaque_nextBlock _).bind fun _ _ => raisesOpaque_require ..
  · exact raisesOpaque_ok ()

/-- **What the reader raises.** -/
theorem raisesOpaque_parse (sha256 : Bytes → String) (raw : Bytes) :
    RaisesOpaque (parse sha256 raw) := by
  refine (raisesOpaque_require ..).bind fun _ hlength => ?_
  have hraw : raw.length = cardSize := (require_eq_ok_iff ..).mp hlength
  refine (raisesOpaque_require ..).bind fun _ _ => (raisesOpaque_require ..).bind fun _ _ =>
    (raisesOpaque_checkAll fun block _ => ?_).bind fun _ _ =>
      (raisesOpaque_checkAll fun index _ => ?_).bind fun _ _ =>
        (raisesOpaque_parseLive (isFrame_directoryFrame hraw) _ _).bind fun live _ =>
          (raisesOpaque_parseDeleted ..).bind fun deleted _ =>
            (raisesOpaque_checkAll fun block _ => raisesOpaque_checkBlock ..).bind fun _ _ =>
              raisesOpaque_ok _
  · exact (raisesOpaque_require ..).bind fun _ _ => (raisesOpaque_state _).bind fun _ _ =>
      raisesOpaque_ok _
  · exact raisesOpaque_require ..

/-! ### The partition -/

/-- The blocks of a card, by what they belong to. -/
structure Partitioned (sha256 : Bytes → String) (raw : Bytes) (card : ParsedCard)
    (deleted : List (List Block)) : Prop where
  /-- the live chains, with their sizes and names -/
  live : ∀ entry ∈ card.live, EntryOf sha256 (directoryFrame raw) (blockData raw) entry
  names : (card.live.map (·.filename)).Nodup
  deletedChains : ∀ chain ∈ deleted, IsChain (directoryFrame raw) .deleted chain
  deletedBlocks : card.deletedBlocks = deleted.flatten
  freeBlocks : ∀ block, block ∈ card.freeBlocks ↔ state (directoryFrame raw block) = .ok .free
  /-- each block is there, and once -/
  exactly : (consumed card.live ++ deleted.flatten ++ card.freeBlocks).Perm dataBlocks

theorem isFree_iff : isFree frames b = true ↔ state (frames b) = .ok .free := by
  rw [isFree]
  split <;> simp_all

theorem state_of_checkFrame (h : checkFrame frames b = .ok ()) :
    ∃ s, state (frames b) = .ok s := by
  rw [checkFrame, check_bind_eq_ok_iff] at h
  obtain ⟨s, hs, -⟩ := bind_eq_ok h.2
  exact ⟨s, hs⟩

/-- A block that continues a chain is in one. -/
theorem mem_of_checkBlock {live deleted : List Block} (h : checkBlock frames live deleted b = .ok ())
    {s : BlockState} (hstate : state (frames b) = .ok s)
    (hs : s ∈ continuationStates) : b ∈ live ∨ b ∈ deleted := by
  rw [checkBlock, hstate, ok_bind, check_bind_eq_ok_iff, require_eq_ok_iff] at h
  exact h.1 hs

/-- What the accepting reader has found. -/
theorem parse_ok {raw : Bytes} {card : ParsedCard} (h : parse sha256 raw = .ok card) :
    raw.length = cardSize ∧ ∃ deleted, Partitioned sha256 raw card deleted := by
  rw [parse, check_bind_eq_ok_iff, require_eq_ok_iff, check_bind_eq_ok_iff,
    check_bind_eq_ok_iff, check_bind_eq_ok_iff, check_bind_eq_ok_iff, checkAll_eq_ok_iff] at h
  obtain ⟨hraw, -, -, hframes, -, h⟩ := h
  obtain ⟨live, hlive, h⟩ := bind_eq_ok h
  obtain ⟨deleted, hdeleted, h⟩ := bind_eq_ok h
  rw [check_bind_eq_ok_iff, checkAll_eq_ok_iff] at h
  obtain ⟨hblocks, h⟩ := h
  cases h
  obtain ⟨hentries, hlivenodup, hidentities, -, hlivecovers⟩ :=
    parseLive_ok hlive (by simp) (by simp [consumed]) (by simp)
  obtain ⟨chains, rfl, hchains, hdeletednodup, hapart, hdeletedcovers⟩ :=
    parseDeleted_ok hdeleted (by simp) (by simp)
  simp only [List.nil_append] at *
  have hperm := List.perm_insertionSort (fun a b : ParsedEntry => a.identity ≤ b.identity) live
  have hsorted : (consumed (live.insertionSort fun a b => a.identity ≤ b.identity)).Perm
      (consumed live) := hperm.flatMap_right _
  have hall : ∀ block : Block, block ∈ dataBlocks := List.mem_finRange
  refine ⟨hraw, chains, fun entry he => hentries entry (hperm.mem_iff.mp he), ?_, hchains, rfl,
    fun block => ?_, ?_⟩
  · -- equal names have equal identities
    have hnames : (live.map (·.filename)).Nodup := by
      refine List.Nodup.of_map hex ?_
      rw [List.map_map]
      have heq : live.map (hex ∘ fun entry => entry.filename) = live.map (·.identity) :=
        List.map_congr_left fun entry he => (hentries entry he).identity.symm
      rw [heq]
      exact hidentities
    exact (hperm.map _).nodup_iff.mpr hnames
  · rw [List.mem_filter]
    exact ⟨fun hmem => isFree_iff.mp hmem.2, fun hfree => ⟨hall block, isFree_iff.mpr hfree⟩⟩
  · -- the states of the blocks of a chain tell the three kinds apart
    have hliveState : ∀ block ∈ consumed live, ∃ s ∈ ChainKind.live.states,
        state (directoryFrame raw block) = .ok s := by
      intro block hblock
      obtain ⟨entry, he, hin⟩ := List.mem_flatMap.mp hblock
      exact (hentries entry he).chain.state_mem hin
    have hdeletedState : ∀ block ∈ chains.flatten, ∃ s ∈ ChainKind.deleted.states,
        state (directoryFrame raw block) = .ok s := by
      intro block hblock
      obtain ⟨chain, hc, hin⟩ := List.mem_flatten.mp hblock
      exact (hchains chain hc).state_mem hin
    have hnotFree : ∀ block ∈ consumed live ++ chains.flatten,
        state (directoryFrame raw block) ≠ .ok .free := by
      intro block hblock hfree
      rcases List.mem_append.mp hblock with hin | hin
      · obtain ⟨s, hs, hstate⟩ := hliveState block hin
        cases Except.ok.inj (hstate.symm.trans hfree)
        exact absurd hs (by decide)
      · obtain ⟨s, hs, hstate⟩ := hdeletedState block hin
        cases Except.ok.inj (hstate.symm.trans hfree)
        exact absurd hs (by decide)
    refine ((hsorted.append_right _).append_right _).trans ?_
    refine (List.perm_ext_iff_of_nodup ?_ (List.nodup_finRange 15)).mpr fun block => ?_
    · refine List.nodup_append.mpr ⟨List.nodup_append.mpr ⟨hlivenodup, hdeletednodup, ?_⟩,
        (List.nodup_finRange 15).filter _, ?_⟩
      · exact fun a ha c hc heq => hapart c hc (heq ▸ ha)
      · intro a ha c hc heq
        exact hnotFree a ha (isFree_iff.mp (heq ▸ (List.mem_filter.mp hc).2))
    · refine ⟨fun _ => hall block, fun _ => ?_⟩
      obtain ⟨s, hs⟩ := state_of_checkFrame (hframes block (hall block))
      have hcontinues : s ∈ continuationStates →
          block ∈ consumed live ++ chains.flatten := fun hmem =>
        List.mem_append.mpr (mem_of_checkBlock (hblocks block (hall block)) hs hmem)
      cases s with
      | liveHeader =>
        exact List.mem_append_left _ (List.mem_append_left _
          (hlivecovers block (hall block) hs))
      | deletedHeader =>
        exact List.mem_append_left _ (List.mem_append_right _
          (hdeletedcovers block (hall block) hs))
      | free =>
        exact List.mem_append_right _ (List.mem_filter.mpr ⟨hall block, isFree_iff.mpr hs⟩)
      | liveMiddle | liveEnd | deletedMiddle | deletedEnd =>
        exact List.mem_append_left _ (hcontinues (by decide))

/-- **The partition.** For any bytes, the loops of the reader end by themselves, and it returns a
    card whose blocks are partitioned, or it raises `OpaqueContainerError`. -/
theorem parse_partitions (sha256 : Bytes → String) (raw : Bytes) :
    (∀ start kind more, parseChainFrom (directoryFrame raw) kind (16 + more) [] start
      = parseChainFrom (directoryFrame raw) kind 16 [] start)
    ∧ match parse sha256 raw with
      | .ok card => ∃ deleted, Partitioned sha256 raw card deleted
      | .error e => ∃ reason detail, e = .opaqueContainer reason detail := by
  refine ⟨fun start kind more => ?_, ?_⟩
  · induction more with
    | zero => rfl
    | succ more ih =>
      rw [← ih, ← Nat.add_assoc]
      exact parseChainFrom_fuel List.nodup_nil (by simp only [List.length_nil]; omega)
  · cases h : parse sha256 raw with
    | ok card => exact (parse_ok h).2
    | error e => exact (raisesOpaque_parse sha256 raw).raised e h

end RomCloud.Containers
