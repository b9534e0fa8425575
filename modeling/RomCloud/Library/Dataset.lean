import Mathlib.Data.String.Basic
import RomCloud.Lib.Dict

namespace RomCloud.Library

open Lib

/-!
# The canonical dataset

The document that the devices share: for each library id, a record with the metadata and the media
of a game.  A field that is not there and one that is `None` are the same.

* `Descriptor` — what is stored for one media file;
* `LibraryRecord`, `Dataset` — a record, and all of them;
* `merge` — fill the gaps of one dataset from another;
* `get?_merge` — what a merge finds for one library id;
* `merge_again` — merging the same input again changes nothing.
-/

/-! ### Gaps -/

section Fill

variable {α : Type} (blank : α → Bool)

/-- A value that is there and is not blank. -/
def given (o : Option α) : Option α := o.filter fun a => !blank a

/-- Keep what is there; where nothing is, or something blank, take a value that is not blank. -/
def fill (existing value : Option α) : Option α :=
  match given blank value, given blank existing with
  | none, _ => existing
  | some v, none => some v
  | some _, some _ => existing

/-- There is something to take, and nothing that is kept. -/
def missing (existing value : Option α) : Bool :=
  (given blank value).isSome && (given blank existing).isNone

variable {blank}

theorem given_eq_some_iff {o : Option α} {a : α} :
    given blank o = some a ↔ o = some a ∧ blank a = false := by
  simp [given, Option.filter_eq_some_iff]

@[simp] theorem given_fill (existing value : Option α) :
    given blank (fill blank existing value) = (given blank existing).or (given blank value) := by
  cases hvalue : given blank value with
  | none => simp [fill, hvalue]
  | some v =>
    have hv := given_eq_some_iff.mp hvalue
    cases hexisting : given blank existing with
    | none => simp [fill, hvalue, hexisting, given_eq_some_iff, hv.2]
    | some a => simp [fill, hvalue, hexisting]

theorem fill_again (existing value : Option α) :
    fill blank (fill blank existing value) value = fill blank existing value := by
  have hgiven := @given_fill _ blank existing value
  cases hvalue : given blank value with
  | none => simp [fill, hvalue]
  | some v =>
    cases hexisting : given blank existing with
    | none =>
      rw [hvalue, hexisting, Option.none_or] at hgiven
      conv_lhs => rw [fill, hvalue, hgiven]
    | some a =>
      rw [hvalue, hexisting, Option.some_or] at hgiven
      conv_lhs => rw [fill, hvalue, hgiven]

theorem fill_self (o : Option α) : fill blank o o = o := by
  unfold fill
  cases given blank o <;> rfl

/-- Filling changes a value just when there was a gap. -/
theorem fill_ne_iff {existing value : Option α} :
    fill blank existing value ≠ existing ↔ missing blank existing value = true := by
  cases hvalue : given blank value with
  | none => simp [fill, missing, hvalue]
  | some v =>
    cases hexisting : given blank existing with
    | none =>
      simp only [fill, missing, hvalue, hexisting, Option.isSome_some, Option.isNone_none,
        Bool.and_self, iff_true]
      rintro rfl
      rw [given_eq_some_iff.mpr ⟨rfl, (given_eq_some_iff.mp hvalue).2⟩] at hexisting
      cases hexisting
    | some a => simp [fill, missing, hvalue, hexisting]

/-- Filling loses nothing. -/
theorem fill_eq_none {existing value : Option α} (h : fill blank existing value = none) :
    existing = none := by
  unfold fill at h
  cases hvalue : given blank value <;> cases hexisting : given blank existing <;>
    simp_all

end Fill

/-- A blank text. -/
def isBlank (text : String) : Bool := text = ""

/-- A value of another type is never blank. -/
def neverBlank {α : Type} (_ : α) : Bool := false

/-! ### Descriptors -/

/-- What the file system shows of a file without reading all of it: `_capture_fingerprint`. -/
structure Fingerprint where
  version : ℤ
  size : ℤ
  mtimeNs : ℤ
  ctimeNs : ℤ
  sampleSha256 : String
deriving DecidableEq

/-- A media descriptor. -/
structure Descriptor where
  sha256 : Option String := none
  size : Option ℤ := none
  suffix : Option String := none
  blob : Option String := none
  sourcePath : Option String := none
  sourceFingerprint : Option Fingerprint := none
  blobFingerprint : Option Fingerprint := none
deriving DecidableEq

namespace Descriptor

/-- `{}`. -/
def empty : Descriptor := {}

/-- The loop over the fields of an incoming descriptor. -/
def fillFrom (d v : Descriptor) : Descriptor where
  sha256 := fill isBlank d.sha256 v.sha256
  size := fill neverBlank d.size v.size
  suffix := fill isBlank d.suffix v.suffix
  blob := fill isBlank d.blob v.blob
  sourcePath := fill isBlank d.sourcePath v.sourcePath
  sourceFingerprint := fill neverBlank d.sourceFingerprint v.sourceFingerprint
  blobFingerprint := fill neverBlank d.blobFingerprint v.blobFingerprint

/-- Some field is in the incoming descriptor only. -/
def Gap (d v : Descriptor) : Prop :=
  missing isBlank d.sha256 v.sha256 = true ∨ missing neverBlank d.size v.size = true
    ∨ missing isBlank d.suffix v.suffix = true ∨ missing isBlank d.blob v.blob = true
    ∨ missing isBlank d.sourcePath v.sourcePath = true
    ∨ missing neverBlank d.sourceFingerprint v.sourceFingerprint = true
    ∨ missing neverBlank d.blobFingerprint v.blobFingerprint = true

instance (d v : Descriptor) : Decidable (d.Gap v) := by
  unfold Gap
  infer_instance

variable {d v : Descriptor}

/-- A descriptor is changed just when one of its fields has a gap. -/
theorem fillFrom_ne_iff : d.fillFrom v ≠ d ↔ d.Gap v := by
  unfold Gap
  rw [← fill_ne_iff, ← fill_ne_iff, ← fill_ne_iff, ← fill_ne_iff, ← fill_ne_iff, ← fill_ne_iff,
    ← fill_ne_iff]
  obtain ⟨sha256, size, suffix, blob, sourcePath, sourceFingerprint, blobFingerprint⟩ := d
  simp only [fillFrom, ne_eq, Descriptor.mk.injEq, not_and_or]

theorem fillFrom_again (d v : Descriptor) : (d.fillFrom v).fillFrom v = d.fillFrom v := by
  simp only [fillFrom, fill_again]

@[simp] theorem fillFrom_self (d : Descriptor) : d.fillFrom d = d := by
  simp only [fillFrom, fill_self]

theorem fillFrom_ne_empty (h : d ≠ empty) : d.fillFrom v ≠ empty := by
  intro heq
  apply h
  obtain ⟨sha256, size, suffix, blob, sourcePath, sourceFingerprint, blobFingerprint⟩ := d
  simp only [fillFrom, empty, Descriptor.mk.injEq] at heq ⊢
  exact ⟨fill_eq_none heq.1, fill_eq_none heq.2.1, fill_eq_none heq.2.2.1,
    fill_eq_none heq.2.2.2.1, fill_eq_none heq.2.2.2.2.1, fill_eq_none heq.2.2.2.2.2.1,
    fill_eq_none heq.2.2.2.2.2.2⟩

/-- The SHA-256 of the content, where one is stored. -/
def sha (d : Descriptor) : Option String := given isBlank d.sha256

/-- The path of the source file, where one is stored. -/
def source (d : Descriptor) : Option String := given isBlank d.sourcePath

@[simp] theorem sha_fillFrom (d v : Descriptor) : (d.fillFrom v).sha = d.sha.or v.sha :=
  given_fill _ _

@[simp] theorem source_fillFrom (d v : Descriptor) :
    (d.fillFrom v).source = d.source.or v.source :=
  given_fill _ _

end Descriptor

/-! ### Merging -/

/-- A record of the canonical dataset. -/
structure LibraryRecord where
  system : String
  sourcePath : String
  metadata : Dict String String
  media : Dict String Descriptor
deriving DecidableEq

/-- The records, by their library ids. -/
abbrev Dataset := Dict String LibraryRecord

/-- One metadata value. -/
def mergeValue (existing : Option String) (value : String) : Option String :=
  fill isBlank existing (some value)

/-- One media descriptor: a missing or an empty one is replaced, any other is filled. -/
def mergeDescriptor (existing : Option Descriptor) (value : Descriptor) : Option Descriptor :=
  if value = .empty then existing
  else match existing with
    | none => some value
    | some d => if d = .empty then some value else some (d.fillFrom value)

/-- One record that both have. -/
def LibraryRecord.merge (current candidate : LibraryRecord) : LibraryRecord :=
  { current with
    metadata := current.metadata.updateEach candidate.metadata mergeValue
    media := current.media.updateEach candidate.media mergeDescriptor }

/-- One record. -/
def mergeRecord (existing : Option LibraryRecord) (candidate : LibraryRecord) :
    Option LibraryRecord :=
  match existing with
  | none => some candidate
  | some current => some (current.merge candidate)

/-- `_merge`. -/
def merge (base incoming : Dataset) : Dataset := base.updateEach incoming mergeRecord

theorem mergeDescriptor_again (existing : Option Descriptor) (value : Descriptor) :
    mergeDescriptor (mergeDescriptor existing value) value = mergeDescriptor existing value := by
  by_cases hvalue : value = .empty
  · simp [mergeDescriptor, hvalue]
  · cases existing with
    | none => simp [mergeDescriptor, hvalue]
    | some d =>
      by_cases hd : d = .empty
      · simp [mergeDescriptor, hvalue, hd]
      · simp [mergeDescriptor, hvalue, hd, Descriptor.fillFrom_ne_empty hd,
          Descriptor.fillFrom_again]

theorem LibraryRecord.merge_again (current candidate : LibraryRecord) :
    (current.merge candidate).merge candidate = current.merge candidate := by
  simp only [LibraryRecord.merge]
  rw [Dict.updateEach_again fun o v => fill_again o (some v),
    Dict.updateEach_again mergeDescriptor_again]

theorem LibraryRecord.merge_self (r : LibraryRecord) : r.merge r = r := by
  have hmedia : ∀ d : Descriptor, mergeDescriptor (some d) d = some d := by
    intro d
    by_cases hd : d = .empty <;> simp [mergeDescriptor, hd]
  simp only [LibraryRecord.merge]
  rw [Dict.updateEach_self fun v => fill_self (some v), Dict.updateEach_self hmedia]

/-- **Merging is idempotent**: the same input again changes nothing. -/
theorem merge_again (base incoming : Dataset) :
    merge (merge base incoming) incoming = merge base incoming := by
  refine Dict.updateEach_again fun existing candidate => ?_
  cases existing with
  | none => simp [mergeRecord, LibraryRecord.merge_self]
  | some current => simp [mergeRecord, LibraryRecord.merge_again]

section Lookup

variable {base incoming : Dataset} {id : String} {r c : LibraryRecord}

theorem get?_merge_of_none (h : incoming.get? id = none) :
    (merge base incoming).get? id = base.get? id := by
  rw [merge, Dict.get?_updateEach, h, Option.elim_none]

theorem get?_merge_of_new (hbase : base.get? id = none) (hincoming : incoming.get? id = some c) :
    (merge base incoming).get? id = some c := by
  rw [merge, Dict.get?_updateEach, hincoming, Option.elim_some, hbase, mergeRecord]

theorem get?_merge (hbase : base.get? id = some r) (hincoming : incoming.get? id = some c) :
    (merge base incoming).get? id = some (r.merge c) := by
  rw [merge, Dict.get?_updateEach, hincoming, Option.elim_some, hbase, mergeRecord]

theorem get?_metadata_merge (r c : LibraryRecord) (tag : String) :
    (r.merge c).metadata.get? tag
      = (c.metadata.get? tag).elim (r.metadata.get? tag) (mergeValue (r.metadata.get? tag)) := by
  rw [LibraryRecord.merge, Dict.get?_updateEach]

theorem get?_media_merge (r c : LibraryRecord) (tag : String) :
    (r.merge c).media.get? tag
      = (c.media.get? tag).elim (r.media.get? tag) (mergeDescriptor (r.media.get? tag)) := by
  rw [LibraryRecord.merge, Dict.get?_updateEach]

end Lookup

end RomCloud.Library
