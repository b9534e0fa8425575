import RomCloud.Lib.Machine
import RomCloud.Library.Dataset
import RomCloud.Library.Identity

namespace RomCloud.Library

open Lib

/-!
# Media files in the canonical dataset

A run of a device merges its own dataset and what it finds in the gamelists into the shared one.
When it may write, it then looks at the media files that the gamelists name, and stores what it
finds of them in the descriptors.

* `fingerprintMatches` — whether a file still looks like the one that was seen;
* `Import` — what `_import_gamelists` finds: records, and for each of their media where it is;
* `Origin.materialize` — what `_materialize_remote_media` does to one descriptor;
* `World`, `sharedLibrary` — the shared dataset, that of each device, and the files of the source;
  the actions are the runs (`pull`, `push` and `sync`) and the writes to source files.
-/

/-! ### Files -/

/-- A media file: its digest, and what `_stat_fields` and `_sample_file_hash` show. -/
structure MediaFile where
  sha256 : String
  size : ℤ
  mtimeNs : ℤ
  ctimeNs : ℤ
  sampleSha256 : String
deriving DecidableEq

/-- `_valid_sha256`. -/
def validSha256 (text : String) : Bool := text.length = 64 && text.toList.all isHexDigit

/-- `_capture_fingerprint`. -/
def MediaFile.captureFingerprint (file : MediaFile) : Fingerprint :=
  ⟨1, file.size, file.mtimeNs, file.ctimeNs, file.sampleSha256⟩

/-- `_fingerprint_matches`. -/
def fingerprintMatches (file : MediaFile) (persisted : Option Fingerprint) (expectedSize : ℤ) :
    Bool :=
  match persisted with
  | none => false
  | some p =>
    p.version = 1 && validSha256 p.sampleSha256 && p.size = expectedSize
      && (file.size = expectedSize && file.mtimeNs = p.mtimeNs)
      && file.sampleSha256 = p.sampleSha256

/-! ### Imports -/

/-- Where a media file is: below the source, or on the device. -/
inductive Place
  | source (path : String)
  | device (file : MediaFile)

/-- A media file of a gamelist: its place and its suffix, whether the stored blob is there already,
and the fingerprint of the blob, where one is taken. -/
structure Origin where
  place : Place
  suffix : String
  blobPresent : Bool
  blobFingerprint : Option Fingerprint

/-- The descriptor in the imported record: only a file below the source has its path in it. -/
def Origin.descriptor (o : Origin) : Descriptor :=
  match o.place with
  | .source path => { sourcePath := some path }
  | .device _ => .empty

/-- A record that `_import_one_xml` makes, with its media and their `origins`. -/
structure ImportedRecord where
  system : String
  sourcePath : String
  metadata : Dict String String
  media : Dict String Origin

def ImportedRecord.record (i : ImportedRecord) : LibraryRecord :=
  ⟨i.system, i.sourcePath, i.metadata, i.media.map Origin.descriptor⟩

/-- What `_import_gamelists` finds. -/
abbrev Import := Dict String ImportedRecord

def Import.dataset (i : Import) : Dataset := i.map ImportedRecord.record

/-- A game of the catalog. -/
structure CatalogRow where
  system : String
  sourcePath : String
  title : String

/-- `_seed_catalog_records`, for one game. -/
def seedRecord (existing : Option LibraryRecord) (row : CatalogRow) : Option LibraryRecord :=
  match existing with
  | none => some ⟨row.system, row.sourcePath, (∅ : Dict String String).insert "name" row.title, ∅⟩
  | some r =>
    match given isBlank (r.metadata.get? "name") with
    | none => some { r with metadata := r.metadata.insert "name" row.title }
    | some _ => some r

/-- `_seed_catalog_records`. -/
def seed (dataset : Dataset) (catalog : Dict String CatalogRow) : Dataset :=
  dataset.updateEach catalog seedRecord

/-! ### One media file -/

/-- The place of the content in the shared storage. -/
def blobPath (digest suffix : String) : String :=
  "media/sha256/" ++ String.ofList (digest.toList.take 2) ++ "/" ++ digest ++ suffix

namespace Descriptor

/-- The quick check: the stored blob is the one that the other fields name. -/
def namesBlob (d : Descriptor) : Bool :=
  match d.sha256, d.size, d.suffix, d.blob.bind safeRelative with
  | some digest, some size, some suffix, some blob =>
    validSha256 digest && 0 ≤ size && isSuffix suffix && blob = blobPath digest suffix
  | _, _, _, _ => false

/-- The file looks like the one whose digest is stored. -/
def sourceUnchanged (d : Descriptor) (file : MediaFile) : Bool :=
  match d.sha256, d.size with
  | some digest, some size =>
    validSha256 digest && 0 ≤ size && fingerprintMatches file d.sourceFingerprint size
  | _, _ => false

end Descriptor

namespace Origin

variable (o : Origin)

/-- `_relative_media_path` below the system of the stored record: the file is below that of the
gamelist. -/
def sourceRelative (recordSystem gamelistSystem : String) : Option String :=
  match o.place with
  | .source path => if recordSystem = gamelistSystem then safeRelative path else none
  | .device _ => none

/-- The file, if it is there. -/
def file (source : String → String → Option MediaFile) (gamelistSystem : String) :
    Option MediaFile :=
  match o.place with
  | .source path => source gamelistSystem path
  | .device file => some file

/-- One turn of `_materialize_remote_media`, over the file of the origin. -/
def materialize (full : Bool) (sourceRelative : Option String) (file : MediaFile)
    (d : Descriptor) : Descriptor :=
  if !full && d.namesBlob && o.blobPresent then d
  else
    let unchanged := d.sourceUnchanged file
    let digest := if unchanged then d.sha256.getD "" else file.sha256
    let size := if unchanged then d.size.getD 0 else file.size
    let samePersistedSource := sourceRelative.isSome && d.sourcePath = sourceRelative
    if (d.sha256 ≠ none ∧ d.sha256 ≠ some digest) ∧ samePersistedSource = false then d
    else
      { d with
        sha256 := some digest
        size := some size
        suffix := some o.suffix
        blob := some (blobPath digest o.suffix)
        sourceFingerprint :=
          if unchanged then d.sourceFingerprint else some file.captureFingerprint
        blobFingerprint := o.blobFingerprint.or d.blobFingerprint }

end Origin

/-- The turns for one record. -/
def LibraryRecord.materialize (full : Bool) (source : String → String → Option MediaFile)
    (r : LibraryRecord) (i : ImportedRecord) : LibraryRecord :=
  { r with
    media := r.media.updateEach i.media fun existing o =>
      match o.file source i.system with
      | none => existing
      | some file =>
        some (o.materialize full (o.sourceRelative r.system i.system) file
          (existing.getD .empty)) }

/-- `_materialize_remote_media`. -/
def materializeRemoteMedia (full : Bool) (source : String → String → Option MediaFile)
    (dataset : Dataset) (i : Import) : Dataset :=
  dataset.updateEach i fun existing record =>
    existing.map fun r => r.materialize full source record

/-! ### The devices -/

/-- The shared dataset, the datasets of the devices, and the files below the source by their systems
and paths.  `seen` has the digests of all files that have been at a path. -/
structure World where
  remote : Dataset
  locals : ℕ → Dataset
  source : String → String → Option MediaFile
  seen : String → String → List String

/-- What a run of a device finds: the gamelists, and the catalog. -/
structure Findings where
  imported : Import
  catalog : Dict String CatalogRow

inductive Act
  /-- `pull`, and with `writeRemote` `push` or `sync`. -/
  | run (device : ℕ) (writeRemote full : Bool) (found : Findings)
  /-- A file below the source is written, or removed. -/
  | rewrite (system path : String) (file : Option MediaFile)

namespace World

variable (w : World)

/-- The shared dataset with the device's own merged into it. -/
def merged (device : ℕ) : Dataset := merge w.remote (w.locals device)

/-- And with what the run finds. -/
def collected (device : ℕ) (found : Findings) : Dataset :=
  seed (merge (w.merged device) found.imported.dataset) found.catalog

/-- `_run`. -/
def run (device : ℕ) (writeRemote full : Bool) (found : Findings) : World :=
  let dataset := w.collected device found
  let dataset :=
    if writeRemote then materializeRemoteMedia full w.source dataset found.imported else dataset
  { w with
    remote := if writeRemote then dataset else w.remote
    locals := Function.update w.locals device dataset }

def rewrite (system path : String) (file : Option MediaFile) : World :=
  { w with
    source := fun s p => if s = system ∧ p = path then file else w.source s p
    seen := fun s p =>
      if s = system ∧ p = path then (file.map MediaFile.sha256).toList ++ w.seen s p
      else w.seen s p }

/-- Every file that a run finds below the source is there. -/
def Readable (found : Findings) : Prop :=
  ∀ p ∈ found.imported.entries, ∀ q ∈ p.2.media.entries,
    (q.2.file w.source p.2.system).isSome = true

instance (found : Findings) : Decidable (w.Readable found) := by
  unfold Readable
  infer_instance

end World

/-- The library that the devices share, from nothing on. -/
def sharedLibrary : Machine World Act where
  init w := w.remote = ∅ ∧ (∀ device, w.locals device = ∅)
    ∧ ∀ system path file, w.source system path = some file → file.sha256 ∈ w.seen system path
  step w
    | .run device writeRemote full found =>
      if w.Readable found then some (w.run device writeRemote full found) else none
    | .rewrite system path file => some (w.rewrite system path file)

end RomCloud.Library
