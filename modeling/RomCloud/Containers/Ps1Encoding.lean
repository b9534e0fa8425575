import RomCloud.Containers.Ps1Card

namespace RomCloud.Containers

open Lib

/-!
# What the canonical hash digests

* `canonicalized`, `canonicalizedFrom` — the frames of a chain with what depends on the blocks it is
  in written over;
* `encode` — the bytes of the digest;
* `canonicalHash_eq` — for frames of the right size the hash raises nothing;
* `AgreeOutside`, `canonicalized_eq_iff` — what a canonical frame keeps of its source;
* `encode_eq_iff` — the encoding is injective in what it keeps.
-/

/-- The pointer to the next place of the logical order. -/
def logicalPointer (count index : ℕ) : Bytes :=
  if index = count - 1 then [0xFF, 0xFF] else Bytes.littleBytes index 2

/-- The frame before its checksum. -/
def relinked (count index : ℕ) (source : Bytes) : Bytes :=
  Bytes.splice (Bytes.splice source 0 [(liveState count index).byte, 0, 0, 0]) 8
    (logicalPointer count index)

def canonicalized (count index : ℕ) (source : Bytes) : Bytes :=
  (relinked count index source).set 0x7F
    (Bytes.xorAll ((relinked count index source).take 0x7F))

def canonicalizedFrom (count : ℕ) : ℕ → List Bytes → List Bytes
  | _, [] => []
  | index, source :: rest =>
    canonicalized count index source :: canonicalizedFrom count (index + 1) rest

/-- The bytes that are digested. -/
def encode (filename : Bytes) (frames dataBlocks : List Bytes) : Bytes :=
  Bytes.littleBytes filename.length 2 ++ filename ++ Bytes.littleBytes frames.length 2
    ++ (canonicalizedFrom frames.length 0 frames).flatten ++ dataBlocks.flatten

/-- A frame of the directory. -/
def IsFrame (frame : Bytes) : Prop := frame.length = 128

variable {count index : ℕ} {source other : Bytes} {frames others : List Bytes}

@[simp] theorem length_logicalPointer (count index : ℕ) :
    (logicalPointer count index).length = 2 := by
  rw [logicalPointer]
  split <;> simp

theorem length_relinked (h : IsFrame source) : (relinked count index source).length = 128 := by
  have hsource : source.length = 128 := h
  have hfirst : (Bytes.splice source 0 [(liveState count index).byte, 0, 0, 0]).length = 128 := by
    rw [Bytes.length_splice (by simp [hsource]), hsource]
  rw [relinked, Bytes.length_splice (by simp [hfirst]), hfirst]

theorem length_canonicalized (h : IsFrame source) :
    (canonicalized count index source).length = 128 := by
  rw [canonicalized, List.length_set, length_relinked h]

theorem length_canonicalizedFrom (count index : ℕ) (frames : List Bytes) :
    (canonicalizedFrom count index frames).length = frames.length := by
  induction frames generalizing index with
  | nil => rfl
  | cons source rest ih => simp [canonicalizedFrom, ih]

theorem length_of_mem_canonicalizedFrom (h : ∀ frame ∈ frames, IsFrame frame) {frame : Bytes}
    (hframe : frame ∈ canonicalizedFrom count index frames) : frame.length = 128 := by
  induction frames generalizing index with
  | nil => exact absurd hframe (by simp [canonicalizedFrom])
  | cons source rest ih =>
    rcases List.mem_cons.mp hframe with rfl | hrest
    · exact length_canonicalized (h source List.mem_cons_self)
    · exact ih (fun f hf => h f (List.mem_cons_of_mem _ hf)) hrest

/-! ### The hash raises nothing -/

theorem canonicalFrame_eq (h : IsFrame source) (hindex : index < 65536) :
    canonicalFrame count index source = .ok (canonicalized count index source) := by
  have hpointer : canonicalPointer count index = .ok (logicalPointer count index) := by
    rw [canonicalPointer, logicalPointer]
    split
    · rfl
    · rw [toBytes2, if_pos hindex]
  have hlength : (relinked count index source).length = 128 := length_relinked h
  rw [canonicalFrame, hpointer, ok_bind]
  show setChecksum (relinked count index source) = _
  rw [setChecksum, if_pos (by omega)]
  rfl

theorem canonicalFrames_eq (h : ∀ frame ∈ frames, IsFrame frame)
    (hindex : index + frames.length < 65536) :
    canonicalFrames count index frames = .ok (canonicalizedFrom count index frames) := by
  induction frames generalizing index with
  | nil => rfl
  | cons source rest ih =>
    have hlength : index + 1 + rest.length < 65536 := by
      rw [List.length_cons] at hindex
      omega
    rw [canonicalFrames, canonicalFrame_eq (h source List.mem_cons_self) (by omega), ok_bind,
      ih (fun f hf => h f (List.mem_cons_of_mem _ hf)) hlength]
    rfl

theorem canonicalHash_eq (sha256 : Bytes → String) {filename : Bytes} (dataBlocks : List Bytes)
    (hname : filename.length < 65536) (h : ∀ frame ∈ frames, IsFrame frame)
    (hcount : frames.length < 65536) : canonicalHash sha256 filename frames dataBlocks
      = .ok (sha256 (encode filename frames dataBlocks)) := by
  rw [canonicalHash, toBytes2, if_pos hname, ok_bind, toBytes2, if_pos hcount, ok_bind,
    canonicalFrames_eq h (by omega)]
  rfl

/-! ### What a canonical frame keeps -/

/-- The bytes of a frame that say where its chain is: the state, the pointer, the checksum. -/
def placing : List ℕ := [0, 1, 2, 3, 8, 9, 0x7F]

/-- Two frames agree on every byte outside the state, the pointer and the checksum. -/
def AgreeOutside (source other : Bytes) : Prop :=
  ∀ i < 128, i ∉ placing → source[i]? = other[i]?

theorem getElem?_relinked (h : IsFrame source) (i : ℕ) : (relinked count index source)[i]?
    = if i < 4 then [(liveState count index).byte, 0, 0, 0][i]?
      else if 8 ≤ i ∧ i < 10 then (logicalPointer count index)[i - 8]? else source[i]? := by
  have hsource : source.length = 128 := h
  have hfirst : (Bytes.splice source 0 [(liveState count index).byte, 0, 0, 0]).length = 128 := by
    rw [Bytes.length_splice (by simp [hsource]), hsource]
  rw [relinked, Bytes.getElem?_splice (by simp [hfirst]), length_logicalPointer,
    Bytes.getElem?_splice (by simp [hsource])]
  simp only [List.length_cons, List.length_nil, Nat.zero_le, true_and, Nat.zero_add, Nat.sub_zero]
  by_cases hpointer : 8 ≤ i ∧ i < 10
  · rw [if_pos hpointer, if_neg (by omega), if_pos hpointer]
  · rw [if_neg hpointer, if_neg hpointer]

/-- A canonical frame determines its source outside the bytes that say where the chain is. -/
theorem canonicalized_eq_iff (h : IsFrame source) (hother : IsFrame other) :
    canonicalized count index source = canonicalized count index other
      ↔ AgreeOutside source other := by
  have hkept : ∀ {frame : Bytes}, IsFrame frame → ∀ i < 128, i ∉ placing →
      (canonicalized count index frame)[i]? = frame[i]? := by
    intro frame hframe i hi hplacing
    simp only [placing, List.mem_cons, List.not_mem_nil, or_false, not_or] at hplacing
    rw [canonicalized, List.getElem?_set_ne (by omega), getElem?_relinked hframe,
      if_neg (by omega), if_neg (by omega)]
  constructor
  · intro heq i hi hplacing
    rw [← hkept h i hi hplacing, heq, hkept hother i hi hplacing]
  · intro hagree
    have hrelinked : ∀ i < 0x7F,
        (relinked count index source)[i]? = (relinked count index other)[i]? := by
      intro i hi
      rw [getElem?_relinked h, getElem?_relinked hother]
      split
      · rfl
      · split
        · rfl
        · exact hagree i (by omega) (by
            simp only [placing, List.mem_cons, List.not_mem_nil, or_false, not_or]
            omega)
    have htake : (relinked count index source).take 0x7F
        = (relinked count index other).take 0x7F := by
      refine List.ext_getElem? fun i => ?_
      rcases Nat.lt_or_ge i 0x7F with hlt | hge
      · rw [List.getElem?_take_of_lt hlt, List.getElem?_take_of_lt hlt, hrelinked i hlt]
      · rw [List.getElem?_take_eq_none hge, List.getElem?_take_eq_none hge]
    refine List.ext_getElem? fun i => ?_
    rw [canonicalized, canonicalized, htake]
    rcases Nat.lt_trichotomy i 0x7F with hlt | rfl | hgt
    · rw [List.getElem?_set_ne (by omega), List.getElem?_set_ne (by omega), hrelinked i hlt]
    · rw [List.getElem?_set_self (by rw [length_relinked h]; omega),
        List.getElem?_set_self (by rw [length_relinked hother]; omega)]
    · rw [List.getElem?_eq_none, List.getElem?_eq_none] <;>
        simp only [List.length_set, length_relinked h, length_relinked hother] <;> omega

theorem canonicalizedFrom_eq_iff (h : ∀ frame ∈ frames, IsFrame frame)
    (hothers : ∀ frame ∈ others, IsFrame frame) :
    canonicalizedFrom count index frames = canonicalizedFrom count index others
      ↔ List.Forall₂ AgreeOutside frames others := by
  induction frames generalizing index others with
  | nil =>
    cases others with
    | nil => simp [canonicalizedFrom]
    | cons other rest => simp [canonicalizedFrom]
  | cons source rest ih =>
    cases others with
    | nil => simp [canonicalizedFrom]
    | cons other more =>
      rw [canonicalizedFrom, canonicalizedFrom, List.cons.injEq, List.forall₂_cons,
        canonicalized_eq_iff (h source List.mem_cons_self) (hothers other List.mem_cons_self),
        ih (fun f hf => h f (List.mem_cons_of_mem _ hf))
          (fun f hf => hothers f (List.mem_cons_of_mem _ hf))]

/-- **The encoding.** It is injective in the name, the kept bytes of the frames and the data. -/
theorem encode_eq_iff {name otherName : Bytes} {data otherData : List Bytes}
    (hname : name.length < 65536) (hotherName : otherName.length < 65536)
    (h : ∀ frame ∈ frames, IsFrame frame) (hothers : ∀ frame ∈ others, IsFrame frame)
    (hcount : frames.length < 65536) (hotherCount : others.length < 65536)
    (hdata : ∀ block ∈ data, block.length = blockSize)
    (hotherData : ∀ block ∈ otherData, block.length = blockSize)
    (hblocks : data.length = frames.length) (hotherBlocks : otherData.length = others.length) :
    encode name frames data = encode otherName others otherData
      ↔ name = otherName ∧ List.Forall₂ AgreeOutside frames others ∧ data = otherData := by
  constructor
  · intro heq
    simp only [encode, List.append_assoc] at heq
    -- each part has a length that what stands before it determines
    obtain ⟨hlength, hafterLength⟩ := List.append_inj heq (by simp)
    obtain ⟨hnames, hafterName⟩ :=
      List.append_inj hafterLength (Bytes.littleBytes_inj hname hotherName hlength)
    obtain ⟨hcountBytes, hafterCount⟩ := List.append_inj hafterName (by simp)
    have hcounts := Bytes.littleBytes_inj hcount hotherCount hcountBytes
    have hflatten : ∀ {pieces : List Bytes}, (∀ frame ∈ pieces, IsFrame frame) →
        (canonicalizedFrom frames.length 0 pieces).flatten.length = pieces.length * 128 := by
      intro pieces hpieces
      have hall : ∀ {index : ℕ} {pieces : List Bytes}, (∀ frame ∈ pieces, IsFrame frame) →
          (canonicalizedFrom frames.length index pieces).flatten.length = pieces.length * 128 := by
        intro index pieces hpieces
        induction pieces generalizing index with
        | nil => rfl
        | cons source rest ih =>
          rw [canonicalizedFrom, List.flatten_cons, List.length_append,
            length_canonicalized (hpieces source List.mem_cons_self),
            ih fun f hf => hpieces f (List.mem_cons_of_mem _ hf), List.length_cons]
          omega
      exact hall hpieces
    rw [← hcounts] at hafterCount
    obtain ⟨hframes, hdatas⟩ :=
      List.append_inj hafterCount (by rw [hflatten h, hflatten hothers, hcounts])
    have hcanonical : canonicalizedFrom frames.length 0 frames
        = canonicalizedFrom frames.length 0 others :=
      Bytes.flatten_inj_of_length (fun _ hf => length_of_mem_canonicalizedFrom h hf)
        (fun _ hf => length_of_mem_canonicalizedFrom hothers hf)
        (by rw [length_canonicalizedFrom, length_canonicalizedFrom, hcounts]) hframes
    exact ⟨hnames, (canonicalizedFrom_eq_iff h hothers).mp hcanonical,
      Bytes.flatten_inj_of_length hdata hotherData
        (hblocks.trans (hcounts.trans hotherBlocks.symm)) hdatas⟩
  · rintro ⟨rfl, hagree, rfl⟩
    have hcounts : frames.length = others.length := hagree.length_eq
    rw [encode, encode, ← hcounts, (canonicalizedFrom_eq_iff h hothers).mpr hagree]

end RomCloud.Containers
