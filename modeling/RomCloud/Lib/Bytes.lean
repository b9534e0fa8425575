import Mathlib.Algebra.Group.Nat.Defs
import Mathlib.Data.List.Lex

namespace RomCloud.Lib

/-!
# Byte strings

Slices of a byte string, and parts of it that are written over.

* byte strings are ordered by their bytes;
* `slice`, `splice` — the bytes from a position on, and other bytes written there;
* `getElem?_splice`, `slice_splice_self`, `slice_splice_of_disjoint` — what is where afterwards;
* `little`, `littleBytes` — numbers, the lowest byte first;
* `xorAll` — the exclusive or of all bytes;
* `flatten_inj_of_length` — pieces of one length are determined by what they are joined to;
* `spell` — a digest without collisions, to run a model with.
-/

abbrev Bytes := List UInt8

instance linearOrderUInt8 : LinearOrder UInt8 where
  le_refl := UInt8.le_refl
  le_trans _ _ _ := UInt8.le_trans
  le_antisymm _ _ := UInt8.le_antisymm
  le_total := UInt8.le_total
  lt_iff_le_not_ge a b := by
    rw [UInt8.lt_iff_toNat_lt, UInt8.le_iff_toNat_le, UInt8.le_iff_toNat_le]
    omega
  toDecidableLE := inferInstance

namespace Bytes

/-- `raw[start : start + size]`. -/
def slice (raw : Bytes) (start size : ℕ) : Bytes := (raw.drop start).take size

/-- `raw[start : start + len(part)] = part`. -/
def splice (raw : Bytes) (start : ℕ) (part : Bytes) : Bytes :=
  raw.take start ++ part ++ raw.drop (start + part.length)

/-- `int.from_bytes(raw, "little")`. -/
def little (raw : Bytes) : ℕ := raw.foldr (fun byte n => byte.toNat + 256 * n) 0

/-- The lowest bytes of a number. -/
def littleBytes (n width : ℕ) : Bytes :=
  (List.range width).map fun i => UInt8.ofNat (n / 256 ^ i)

/-- The exclusive or of all bytes. -/
def xorAll (raw : Bytes) : UInt8 := raw.foldl (· ^^^ ·) 0

variable {raw part : Bytes} {start size i : ℕ}

@[simp] theorem length_slice (h : start + size ≤ raw.length) :
    (raw.slice start size).length = size := by
  rw [slice, List.length_take, List.length_drop]
  omega

theorem getElem?_slice (h : i < size) : (raw.slice start size)[i]? = raw[start + i]? := by
  rw [slice, List.getElem?_take_of_lt h, List.getElem?_drop]

@[simp] theorem length_splice (h : start + part.length ≤ raw.length) :
    (raw.splice start part).length = raw.length := by
  rw [splice, List.length_append, List.length_append, List.length_take, List.length_drop]
  omega

theorem getElem?_splice (h : start + part.length ≤ raw.length) (i : ℕ) :
    (raw.splice start part)[i]?
      = if start ≤ i ∧ i < start + part.length then part[i - start]? else raw[i]? := by
  have htake : (raw.take start).length = start := List.length_take_of_le (by omega)
  rw [splice, List.append_assoc]
  rcases Nat.lt_or_ge i start with hlt | hge
  · rw [List.getElem?_append_left (by omega), List.getElem?_take_of_lt hlt, if_neg (by omega)]
  rw [List.getElem?_append_right (by omega), htake]
  rcases Nat.lt_or_ge i (start + part.length) with hin | hout
  · rw [List.getElem?_append_left (by omega), if_pos ⟨hge, hin⟩]
  · rw [List.getElem?_append_right (by omega), List.getElem?_drop, if_neg (by omega)]
    congr 1
    omega

theorem slice_splice_self (h : start + part.length ≤ raw.length) :
    (raw.splice start part).slice start part.length = part := by
  refine List.ext_getElem? fun i => ?_
  rcases Nat.lt_or_ge i part.length with hlt | hge
  · rw [getElem?_slice hlt, getElem?_splice h, if_pos (by omega)]
    congr 1
    omega
  · rw [List.getElem?_eq_none hge, List.getElem?_eq_none]
    rw [length_slice (by rw [length_splice h]; exact h)]
    exact hge

/-- A slice beside the part that is written over. -/
theorem slice_splice_of_disjoint (h : start + part.length ≤ raw.length) {other : ℕ}
    (hdisjoint : other + size ≤ start ∨ start + part.length ≤ other) :
    (raw.splice start part).slice other size = raw.slice other size := by
  refine List.ext_getElem? fun i => ?_
  rcases Nat.lt_or_ge i size with hlt | hge
  · rw [getElem?_slice hlt, getElem?_slice hlt, getElem?_splice h, if_neg (by omega)]
  · rw [List.getElem?_eq_none, List.getElem?_eq_none]
    · exact Nat.le_trans (List.length_take_le _ _) hge
    · exact Nat.le_trans (List.length_take_le _ _) hge

theorem slice_append_left {more : Bytes} (h : start + size ≤ raw.length) :
    slice (raw ++ more) start size = raw.slice start size := by
  refine List.ext_getElem? fun i => ?_
  rcases Nat.lt_or_ge i size with hlt | hge
  · rw [getElem?_slice hlt, getElem?_slice hlt, List.getElem?_append_left (by omega)]
  · rw [List.getElem?_eq_none, List.getElem?_eq_none]
    · exact Nat.le_trans (List.length_take_le _ _) hge
    · exact Nat.le_trans (List.length_take_le _ _) hge

theorem slice_append_right {more : Bytes} (h : raw.length ≤ start) :
    slice (raw ++ more) start size = slice more (start - raw.length) size := by
  rw [slice, slice, List.drop_append, List.drop_eq_nil_of_le h, List.nil_append]

/-! ### Numbers -/

@[simp] theorem length_littleBytes (n width : ℕ) : (littleBytes n width).length = width := by
  simp [littleBytes]

theorem littleBytes_succ (n width : ℕ) :
    littleBytes n (width + 1) = UInt8.ofNat n :: littleBytes (n / 256) width := by
  rw [littleBytes, List.range_succ_eq_map, List.map_cons, List.map_map, Nat.pow_zero, Nat.div_one,
    littleBytes]
  congr 1
  refine List.map_congr_left fun i _ => ?_
  show UInt8.ofNat (n / 256 ^ (i + 1)) = UInt8.ofNat (n / 256 / 256 ^ i)
  rw [Nat.pow_succ, Nat.mul_comm, Nat.div_div_eq_div_mul]

/-- The lowest bytes hold the numbers that fit into them. -/
theorem little_littleBytes {n width : ℕ} (h : n < 256 ^ width) :
    little (littleBytes n width) = n := by
  induction width generalizing n with
  | zero =>
    have hzero : n = 0 := by simpa using h
    rw [hzero]
    rfl
  | succ width ih =>
    have hrest : n / 256 < 256 ^ width := by
      rw [Nat.pow_succ] at h
      omega
    rw [littleBytes_succ, little, List.foldr_cons]
    show (UInt8.ofNat n).toNat + 256 * little (littleBytes (n / 256) width) = n
    rw [ih hrest, UInt8.toNat_ofNat']
    omega

theorem littleBytes_inj {n m width : ℕ} (hn : n < 256 ^ width) (hm : m < 256 ^ width)
    (h : littleBytes n width = littleBytes m width) : n = m := by
  rw [← little_littleBytes hn, ← little_littleBytes hm, h]

/-! ### Exclusive or -/

theorem xorAll_append (raw more : Bytes) : xorAll (raw ++ more) = xorAll raw ^^^ xorAll more := by
  have hfrom : ∀ (rest : Bytes) (b : UInt8), rest.foldl (· ^^^ ·) b = b ^^^ xorAll rest := by
    intro rest
    induction rest with
    | nil => intro b; simp [xorAll]
    | cons c rest ih =>
      intro b
      have hfirst : xorAll (c :: rest) = c ^^^ xorAll rest := by
        rw [xorAll, List.foldl_cons, UInt8.zero_xor, ih]
      rw [List.foldl_cons, ih, UInt8.xor_assoc, hfirst]
  rw [xorAll, List.foldl_append, hfrom]
  rfl

/-! ### Pieces -/

/-- Pieces of one length are determined by what they are joined to. -/
theorem flatten_inj_of_length {pieces others : List Bytes} {size : ℕ}
    (hpieces : ∀ piece ∈ pieces, piece.length = size)
    (hothers : ∀ piece ∈ others, piece.length = size) (hcount : pieces.length = others.length)
    (h : pieces.flatten = others.flatten) : pieces = others := by
  induction pieces generalizing others with
  | nil => exact (List.length_eq_zero_iff.mp hcount.symm).symm
  | cons piece rest ih =>
    cases others with
    | nil => exact absurd hcount (by simp)
    | cons other more =>
      rw [List.flatten_cons, List.flatten_cons] at h
      have hlength : piece.length = other.length :=
        (hpieces piece List.mem_cons_self).trans (hothers other List.mem_cons_self).symm
      obtain ⟨rfl, hrest⟩ := List.append_inj h hlength
      rw [ih (fun p hp => hpieces p (List.mem_cons_of_mem _ hp))
        (fun p hp => hothers p (List.mem_cons_of_mem _ hp)) (by simpa using hcount) hrest]

/-- A piece of a byte string that is joined of pieces of one length. -/
theorem slice_flatten {pieces : List Bytes} {size : ℕ}
    (hpieces : ∀ piece ∈ pieces, piece.length = size) {k : ℕ} (hk : k < pieces.length) :
    slice pieces.flatten (k * size) size = pieces[k] := by
  induction pieces generalizing k with
  | nil => exact absurd hk (by simp)
  | cons piece rest ih =>
    have hpiece := hpieces piece List.mem_cons_self
    rw [List.flatten_cons]
    cases k with
    | zero =>
      rw [Nat.zero_mul, slice, List.drop_zero, List.getElem_cons_zero]
      exact List.take_left' hpiece
    | succ k =>
      rw [List.getElem_cons_succ,
        ← ih (fun p hp => hpieces p (List.mem_cons_of_mem _ hp)) (by simpa using hk), slice, slice,
        Nat.succ_mul, Nat.add_comm, ← List.drop_drop, List.drop_left' hpiece]

end Bytes

/-- A digest without collisions. -/
def spell (raw : Bytes) : String := String.ofList (raw.map fun byte => Char.ofNat byte.toNat)

theorem spell_injective : Function.Injective spell := by
  have hchar : ∀ n < 256, (Char.ofNat n).toNat = n := by decide +kernel
  intro raw other heq
  refine List.map_injective_iff.mpr (fun b c hbc => ?_) (String.ofList_injective heq)
  have hnat := congrArg Char.toNat hbc
  rw [hchar _ b.toNat_lt, hchar _ c.toNat_lt] at hnat
  exact UInt8.toNat_inj.mp hnat

end RomCloud.Lib
