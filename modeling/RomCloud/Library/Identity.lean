import Mathlib.Data.List.Infix
import RomCloud.Lib.Xml
import RomCloud.Library.Dataset

namespace RomCloud.Library

open Lib

/-!
# The identity of a game, and the paths in a gamelist

A game is known on every device by the digest of its system and of the path of its primary file
below the source.  Paths in a gamelist are relative to the directory of the system.

* `safeRelative` — the normal form of a relative path; a path that leads anywhere else has none;
* `Service.sourceRelative`, `Service.libraryIdForGame` — the path below the system's source
  directory, and the identity made from it;
* `Service.localLaunchPath`, `Service.renderMedia` — what the gamelist gets for a game and for one
  of its pictures.
-/

/-! ### Paths -/

/-- `text.replace("\\", "/")`. -/
def forwardSlashes (text : String) : String :=
  String.ofList (text.toList.map fun c => if c = '\\' then '/' else c)

/-- The slashes that root a path: two keep a meaning of their own, three are one. -/
def rootSlashes (path : String) : String :=
  match path.toList with
  | '/' :: '/' :: '/' :: _ => "/"
  | '/' :: '/' :: _ => "//"
  | '/' :: _ => "/"
  | _ => ""

/-- `PurePosixPath.parts`. -/
def purePathParts (path : String) : List String :=
  (if rootSlashes path = "" then [] else [rootSlashes path]) ++ posixParts path

/-- `PurePosixPath(*parts).as_posix()`. -/
def joinParts : List String → String
  | [] => "."
  | root :: rest =>
    if root = "/" ∨ root = "//" then root ++ "/".intercalate rest
    else "/".intercalate (root :: rest)

/-- One component in the loop of `posixpath.normpath`, over those kept so far, the last first. -/
def normStep (rooted : Bool) (kept : List String) (part : String) : List String :=
  if part = "" ∨ part = "." then kept
  else if part ≠ ".." ∨ (rooted = false ∧ kept = []) ∨ kept.head? = some ".." then part :: kept
  else kept.tail

/-- `posixpath.normpath`. -/
def normpath (path : String) : String :=
  let root := rootSlashes path
  let parts := (path.toList.splitOn '/').map String.ofList
  let text := root ++ "/".intercalate (parts.foldl (normStep (root ≠ "")) []).reverse
  if text = "" then "." else text

/-- `while raw.startswith("./"): raw = raw[2:]`. -/
def dropDotSlash : List Char → List Char
  | '.' :: '/' :: rest => dropDotSlash rest
  | raw => raw

/-- `_safe_relative`.  Joining the parts of a normal path makes the same path. -/
def safeRelative (text : String) : Option String :=
  let raw := (forwardSlashes (strip text)).toList
  if raw = [] ∨ raw.head? = some '/' ∨ raw.head? = some '~' ∨ "://".toList <:+: raw then none
  else
    let normalized := normpath (String.ofList (dropDotSlash raw))
    if normalized = "." ∨ normalized = ".." ∨ "../".toList <+: normalized.toList then none
    else if ".." ∈ purePathParts normalized then none
    else some normalized

theorem normpath_ne_empty (path : String) : normpath path ≠ "" := by
  have hdot : ∀ text : String, (if text = "" then "." else text) ≠ "" := by
    intro text
    split
    · decide
    · next h => exact h
  exact hdot _

/-- A normal form is never empty. -/
theorem safeRelative_ne_empty {text path : String} (h : safeRelative text = some path) :
    path ≠ "" := by
  simp only [safeRelative, Option.ite_none_left_eq_some, Option.some.injEq] at h
  exact h.2.2.2 ▸ normpath_ne_empty _

/-! ### Identities -/

/-- The digits of a digest: `0` to `9` and `a` to `f`. -/
def isHexDigit (c : Char) : Bool :=
  let n := c.toNat
  (48 ≤ n && n ≤ 57) || (97 ≤ n && n ≤ 102)

/-- The text of a digest. -/
structure LibraryId where
  text : String
  nonempty : text ≠ ""
  hex : text.toList.all isHexDigit = true
deriving DecidableEq

theorem not_isSpace_of_isHexDigit {c : Char} (h : isHexDigit c = true) : isSpace c = false := by
  simp only [isHexDigit, Bool.or_eq_true, Bool.and_eq_true, decide_eq_true_eq] at h
  simp only [isSpace, Bool.or_eq_false_iff, Bool.and_eq_false_iff, decide_eq_false_iff_not]
  omega

@[simp] theorem LibraryId.strip_text (id : LibraryId) : strip id.text = id.text :=
  strip_eq_self fun c hc => not_isSpace_of_isHexDigit (List.all_eq_true.mp id.hex c hc)

/-- A digest is an XML text. -/
theorem isXmlText_libraryId (id : LibraryId) : isXmlText id.text = true := by
  refine List.all_eq_true.mpr fun c hc => ?_
  have hdigit := List.all_eq_true.mp id.hex c hc
  simp only [isHexDigit, Bool.or_eq_true, Bool.and_eq_true, decide_eq_true_eq] at hdigit
  simp only [isXmlChar, Bool.or_eq_true, Bool.and_eq_true, decide_eq_true_eq]
  omega

/-- What the catalog has of a game: its system, and the path of its primary file. -/
structure Game where
  system : String
  relativePath : String

/-- `game_access_mode`. -/
inductive AccessMode
  | smartCache
  | directNas
deriving DecidableEq

/-- The service: its mode, whether the offline library is on, `str.casefold`, and the digest of a
normalized text. -/
structure Service where
  mode : AccessMode
  offlineLibrary : Bool
  casefold : String → String
  digest : String → LibraryId

namespace Service

variable (S : Service)

/-- `_source_relative`; without a path it raises. -/
def sourceRelative (game : Game) : Option String :=
  let parts := purePathParts (forwardSlashes game.relativePath)
  let below := match parts with
    | [] => []
    | first :: rest => if S.casefold first = S.casefold game.system then rest else first :: rest
  if below = [] then none else safeRelative (joinParts below)

/-- `library_id_for_game`. -/
def libraryIdForGame (game : Game) : Option LibraryId :=
  (S.sourceRelative game).map fun rel =>
    S.digest ("\x00".intercalate ["romcloud-library-v1", S.casefold game.system, rel])

end Service

/-! ### What is written for a game -/

/-- The proxy of a game: its path below the directory of the system, if it is there, and whether
it is a file. -/
structure Proxy where
  relative : Option String
  isFile : Bool

/-- What the file system and the remote storage do for one file: it is there (or has been copied),
it is not, or an error is raised. -/
inductive MediaAnswer
  | available
  | unavailable
  | failed
deriving DecidableEq

/-- What `_render_media` gives: an error, nothing, or a path. -/
inductive RenderedMedia
  | failed
  | absent
  | reference (path : String)

/-- The suffix is one that `Path.suffix` finds, or empty. -/
def isSuffix (suffix : String) : Bool :=
  match suffix.toList with
  | [] => true
  | c :: rest => c = '.' && !rest.isEmpty && rest.all fun c => c ≠ '.' && c ≠ '/' && c ≠ '\\'

/-- The part of `_render_media` before it looks for the file: the path of the local copy. -/
def localMediaPath (descriptor : Descriptor) : Option String :=
  match descriptor.blob.bind safeRelative, descriptor.sha256, descriptor.size with
  | some _, some digest, some size =>
    if digest.length = 64 ∧ digest.toList.all isHexDigit = true ∧ 0 ≤ size
        ∧ isSuffix (descriptor.suffix.getD "") = true then
      some ("./.romcloud-media/" ++ String.ofList (digest.toList.take 2) ++ "/" ++ digest
        ++ descriptor.suffix.getD "")
    else none
  | _, _, _ => none

namespace Service

variable (S : Service)

/-- `_local_launch_path`. -/
def localLaunchPath (game : Game) (proxy : Option Proxy) : Option String :=
  match S.mode with
  | .directNas => (S.sourceRelative game).map fun rel => "./ROMCloud/" ++ rel
  | .smartCache =>
    match proxy with
    | none => none
    | some proxy =>
      if S.offlineLibrary && !proxy.isFile then none
      else match proxy.relative with
        | none => none
        | some rel => if proxy.isFile then some ("./" ++ rel) else none

/-- `_render_media`. -/
def renderMedia (descriptor : Descriptor) (answer : MediaAnswer) : RenderedMedia :=
  match S.mode, descriptor.sourcePath.bind safeRelative with
  | .directNas, some path => .reference ("./ROMCloud/" ++ path)
  | _, _ =>
    match localMediaPath descriptor, answer with
    | none, _ => .absent
    | some path, .available => .reference path
    | some _, .unavailable => .absent
    | some _, .failed => .failed

end Service

end RomCloud.Library
