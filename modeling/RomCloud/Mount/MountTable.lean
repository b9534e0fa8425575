import RomCloud.Cache.DescriptorFormats
import RomCloud.Lib.Names
import RomCloud.Library.Identity

namespace RomCloud.Mount

open RomCloud.Lib
open RomCloud.Cache (splitLinesFrom splitFields isLineBreak)
open RomCloud.Library (normpath)

/-!
# The table of mounts

What ROMCloud reads in `/proc/mounts`, and what the kernel writes there.

* `unicodeEscape` — `text.encode().decode("unicode_escape")`;
* `isMounted`, `isMountedWritable`, `isMountedCifsTarget` — the readers of the table;
* `normalizeSmbRemotePath`, `MountConfig.source` — the share that is mounted;
* `mountDecision`, `unmountDecision` — what is made of the table;
* `MountEntry`, `procMounts` — the mounts and their lines.

Texts are lists of characters.
-/

/-! ### Names in the table -/

/-- A character in UTF-8, each byte read as a character of Latin-1. -/
def utf8Chars (c : Char) : List Char :=
  (String.utf8EncodeChar c).map fun byte => Char.ofNat byte.toNat

def octal? (c : Char) : Option ℕ :=
  if '0' ≤ c ∧ c ≤ '7' then some (c.toNat - '0'.toNat) else none

/-- The octal escapes of a text.  The kernel writes no others, and no other backslash. -/
def decodeOctal : List Char → List Char
  | '\\' :: a :: b :: c :: rest =>
    match octal? a, octal? b, octal? c with
    | some x, some y, some z => Char.ofNat (64 * x + 8 * y + z) :: decodeOctal rest
    | _, _, _ => '\\' :: decodeOctal (a :: b :: c :: rest)
  | c :: rest => c :: decodeOctal rest
  | [] => []

/-- `text.encode().decode("unicode_escape")`. -/
def unicodeEscape (text : List Char) : List Char := decodeOctal (text.flatMap utf8Chars)

/-- The mount point that a line names. -/
def lineTarget? (line : List Char) : Option String :=
  (splitFields line)[1]?.map fun field => normpath (String.ofList (unicodeEscape field))

/-! ### The readers -/

/-- `_parse_mounted_targets`. -/
def parseMountedTargets (mountsText : List Char) : List String :=
  (splitLinesFrom mountsText []).filterMap lineTarget?

/-- `is_mounted`. -/
def isMounted (target : String) (mountsText : List Char) : Bool :=
  (parseMountedTargets mountsText).contains (normpath target)

/-- The first four fields of a line. -/
structure MountFields where
  source : List Char
  target : List Char
  fstype : List Char
  options : List Char

def mountFields? (line : List Char) : Option MountFields :=
  match splitFields line with
  | source :: target :: fstype :: options :: _ => some ⟨source, target, fstype, options⟩
  | _ => none

/-- The loop of `_mount_options` and of `_mount_record`: the first line for a target. -/
def findFields (target : String) (mountsText : List Char) : Option MountFields :=
  (splitLinesFrom mountsText []).findSome? fun line =>
    (mountFields? line).filter fun fields =>
      normpath (String.ofList (unicodeEscape fields.target)) = normpath target

/-- `_mount_options`. -/
def mountOptions (target : String) (mountsText : List Char) : Option (List (List Char)) :=
  (findFields target mountsText).map fun fields => fields.options.splitOn ','

/-- The case of letters. -/
structure NameTables extends CaseFolding where
  lower : List Char → List Char

/-- What `_mount_record` returns. -/
structure MountRecord where
  source : List Char
  fstype : List Char
  options : List (List Char)

/-- `_mount_record`. -/
def mountRecord (T : NameTables) (target : String) (mountsText : List Char) : Option MountRecord :=
  (findFields target mountsText).map fun fields =>
    ⟨unicodeEscape fields.source, T.lower fields.fstype, (unicodeEscape fields.options).splitOn ','⟩

/-- `is_mounted_writable`. -/
def isMountedWritable (target : String) (mountsText : List Char) : Bool :=
  (mountOptions target mountsText).any (·.contains ['r', 'w'])

/-- `text.strip("/")`. -/
def stripSlashes (text : List Char) : List Char :=
  ((text.dropWhile (· = '/')).reverse.dropWhile (· = '/')).reverse

/-- What is asked of a CIFS mount. -/
structure CifsQuery where
  server : Option (List Char)
  share : Option (List Char)
  readOnly : Option Bool
  remotePath : Option (List Char)

/-- `prefixpath=` -/
def prefixWord : List Char := ['p', 'r', 'e', 'f', 'i', 'x', 'p', 'a', 't', 'h', '=']

/-- The prefixes among the options, each once. -/
def optionPrefixes (options : List (List Char)) : List (List Char) :=
  ((options.filter fun option => prefixWord.isPrefixOf option).map fun option =>
    stripSlashes (option.drop prefixWord.length)).dedup

/-- The checks of `is_mounted_cifs_target` on a record. -/
def cifsMatches (T : NameTables) (query : CifsQuery) (record : MountRecord) : Bool :=
  if record.fstype ≠ ['c', 'i', 'f', 's'] ∨ ¬ ['/', '/'] <+: record.source then false
  else
    match (record.source.drop 2).splitOn '/' with
    | mountedServer :: mountedShare :: rest =>
      let mountedRemotePath := stripSlashes (['/'].intercalate rest)
      let optionRemotePath := (optionPrefixes record.options).headD []
      let actual := if mountedRemotePath = [] then optionRemotePath else mountedRemotePath
      decide (mountedServer ≠ []) && decide (mountedShare ≠ [])
        && query.server.all (fun server => T.casefold mountedServer == T.casefold server)
        && query.share.all (fun share =>
          T.casefold mountedShare == T.casefold (stripSlashes share))
        && query.readOnly.all (fun readOnly =>
          record.options.contains (if readOnly then ['r', 'o'] else ['r', 'w']))
        && decide ((optionPrefixes record.options).length ≤ 1)
        && (decide (mountedRemotePath = []) || decide (optionRemotePath = [])
          || decide (mountedRemotePath = optionRemotePath))
        && decide (actual = stripSlashes (query.remotePath.getD []))
    | _ => false

/-- `is_mounted_cifs_target`. -/
def isMountedCifsTarget (T : NameTables) (target : String) (mountsText : List Char)
    (query : CifsQuery) : Bool :=
  (mountRecord T target mountsText).any (cifsMatches T query)

/-! ### The share -/

/-- A drive letter before a path. -/
def hasDriveRoot : List Char → Bool
  | _ :: ':' :: '/' :: _ => true
  | _ => false

/-- `normalize_smb_remote_path`. -/
def normalizeSmbRemotePath (value : List Char) : Option (List Char) :=
  let raw := value.map fun c => if c = '\\' then '/' else c
  if raw.any (fun c => ['"', '\n', '\r', '\x00', ','].contains c) then none
  else if ['/', '/'] <+: raw ∨ hasDriveRoot raw = true then none
  else
    let raw := if raw.head? = some '/' then raw.tail else raw
    let raw := if raw.getLast? = some '/' then raw.dropLast else raw
    if raw = [] then some []
    else if raw.head? = some '/' ∨ raw.getLast? = some '/' then none
    else if (raw.splitOn '/').any (fun part => [[], ['.'], ['.', '.']].contains part) then none
    else some raw

/-- The configuration of a mount. -/
structure MountConfig where
  server : List Char
  share : List Char
  mountPoint : String
  readOnly : Bool
  remotePath : List Char

namespace MountConfig

variable (config : MountConfig)

/-- The source in `build_mount_argv`. -/
def source : Option (List Char) :=
  (normalizeSmbRemotePath config.remotePath).map fun remotePath =>
    ['/', '/'] ++ config.server ++ '/' :: stripSlashes config.share
      ++ (if remotePath = [] then [] else '/' :: stripSlashes remotePath)

/-- The mode option in `build_mount_argv`. -/
def mode : List Char := if config.readOnly then ['r', 'o'] else ['r', 'w']

/-- What is asked of the mount, by its server or by any. -/
def query (anyServer : Bool) : CifsQuery where
  server := if anyServer then none else some config.server
  share := some config.share
  readOnly := some config.readOnly
  remotePath := some config.remotePath

end MountConfig

inductive MountDecision
  | mount
  | already
  | refused
deriving DecidableEq

/-- `mount_cifs_source`, up to the command. -/
def mountDecision (T : NameTables) (config : MountConfig) (mountsText : List Char) :
    MountDecision :=
  if isMounted config.mountPoint mountsText then
    if isMountedCifsTarget T config.mountPoint mountsText (config.query config.readOnly) then .already
    else .refused
  else .mount

inductive UnmountDecision
  | notMounted
  | unmount
  | refused
deriving DecidableEq

/-- `unmount_cifs_source`, up to the command. -/
def unmountDecision (T : NameTables) (target : String) (mountsText : List Char)
    (expected : CifsQuery) : UnmountDecision :=
  if !isMounted target mountsText then .notMounted
  else if expected.share.isSome && !isMountedCifsTarget T target mountsText expected then .refused
  else .unmount

/-! ### The kernel -/

/-- A mount. -/
structure MountEntry where
  source : List Char
  target : List Char
  fstype : List Char
  options : List (List Char)

/-- Blanks, tabs, newlines and backslashes as octal escapes. -/
def mangleChar (c : Char) : List Char :=
  if c = ' ' then ['\\', '0', '4', '0']
  else if c = '\t' then ['\\', '0', '1', '1']
  else if c = '\n' then ['\\', '0', '1', '2']
  else if c = '\\' then ['\\', '1', '3', '4']
  else [c]

def mangle (text : List Char) : List Char := text.flatMap mangleChar

namespace MountEntry

variable (m : MountEntry)

def optionText : List Char := [','].intercalate m.options

/-- The fields of the line. -/
def lineFields : List (List Char) :=
  [mangle m.source, mangle m.target, mangle m.fstype, mangle m.optionText, ['0'], ['0']]

/-- The line of a mount. -/
def line : List Char := [' '].intercalate m.lineFields ++ ['\n']

/-- The mount is at a target. -/
def isAt (target : String) : Bool := normpath (String.ofList m.target) = normpath target

/-- The mount is writable. -/
def writable : Bool := m.options.contains ['r', 'w']

/-- The mount is that of a share, with its mode and its path. -/
def identified (T : NameTables) (query : CifsQuery) : Bool :=
  cifsMatches T query ⟨m.source, T.lower m.fstype, m.options⟩

end MountEntry

/-- `/proc/mounts`. -/
def procMounts (mounts : List MountEntry) : List Char := mounts.flatMap MountEntry.line

/-- The topmost mount at a target is the one that was listed last. -/
def topmost (mounts : List MountEntry) (target : String) : Option MountEntry :=
  mounts.reverse.find? (·.isAt target)

/-- The lowest mount at a target. -/
def lowest (mounts : List MountEntry) (target : String) : Option MountEntry := mounts.find? (·.isAt target)

end RomCloud.Mount
