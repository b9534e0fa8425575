import RomCloud.Cache.Dependencies

namespace RomCloud.Cache

open RomCloud.Lib

/-!
# The descriptor formats

The resolvers of `DEFAULT_RESOLVERS` read the references from the text of a playlist, a cue sheet,
a marker of an Xbox 360 game, a CloneCD or a GD-ROM descriptor.

* `splitLines`, `splitFields` — `str.splitlines` and `str.split`;
* `cueFile?`, `gdiTrack?` — the two regular expressions, as the lines that they match;
* `resolveM3u`, `resolveCue`, `resolveXbox360`, `resolveCcd`, `resolveGdi` — the resolvers.
-/

/-! ### Texts -/

/-- What depends on the tables of Unicode: the case of letters, and digits of other scripts. -/
structure TextTables where
  lower : String → String
  upper : String → String
  /-- Two characters that `re.IGNORECASE` takes as the same. -/
  sameLetter : Char → Char → Bool
  /-- `\d` -/
  isDigit : Char → Bool
  /-- `int(text)` -/
  int : String → Option ℤ

/-- The line boundaries of `str.splitlines`. -/
def isLineBreak (c : Char) : Bool :=
  let n := c.toNat
  (10 ≤ n && n ≤ 13) || (28 ≤ n && n ≤ 30) || n = 0x85 || n = 0x2028 || n = 0x2029

/-- The lines of a text, after the characters of a line that was begun, the last first. -/
def splitLinesFrom : List Char → List Char → List (List Char)
  | [], [] => []
  | [], line => [line.reverse]
  | '\r' :: '\n' :: rest, line => line.reverse :: splitLinesFrom rest []
  | c :: rest, line =>
    if isLineBreak c then line.reverse :: splitLinesFrom rest []
    else splitLinesFrom rest (c :: line)

/-- `text.splitlines()`. -/
def splitLines (text : String) : List String :=
  (splitLinesFrom text.toList []).map String.ofList

/-- `text.lstrip("\ufeff")`. -/
def dropMarks (text : String) : String :=
  String.ofList (text.toList.dropWhile fun c => c.toNat = 0xFEFF)

/-- `text.split()`. -/
def splitFields (cs : List Char) : List (List Char) :=
  (cs.splitOnP isSpace).filter (· ≠ [])

/-- A quoted text at the head, and what comes after its closing quote. -/
def quoted? : List Char → Option (List Char × List Char)
  | '"' :: rest =>
    if '"' ∈ rest then some (rest.takeWhile (· ≠ '"'), (rest.dropWhile (· ≠ '"')).tail) else none
  | _ => none

/-- `\s+` and one more field up to the end of the line. -/
def lastField? (cs : List Char) : Option (List Char) :=
  if cs.head?.any isSpace then
    match splitFields cs with
    | [field] => some field
    | _ => none
  else none

/-! ### Playlists -/

/-- `resolve_m3u`. -/
def resolveM3u : Resolver := fun _ text =>
  let lines := (splitLines (dropMarks text)).map strip
  let references := lines.filter fun line => line ≠ "" && line.toList.head? ≠ some '#'
  if references = [] then .error "M3U playlist contains no disc references"
  else .ok (references.map fun line => ⟨line, true⟩)

/-! ### Cue sheets -/

/-- `_FILE_LINE_RE`: the file of a line that it matches. -/
def cueFile? (T : TextTables) (line : String) : Option String :=
  let cs := line.toList.dropWhile isSpace
  let rest := cs.drop 4
  if ((cs.take 4).length = 4 && ((cs.take 4).zip "FILE".toList).all fun p => T.sameLetter p.1 p.2)
      && rest.head?.any isSpace then
    let argument := rest.dropWhile isSpace
    match (quoted? argument).filter (fun found => (lastField? found.2).isSome) with
    | some found => some (String.ofList found.1)
    | none =>
      -- a name that begins with a quote can be matched as one without quotes
      match splitFields argument with
      | [name, _] => some (String.ofList name)
      | _ => none
  else none

/-- What `parse_cue_references` makes of a line. -/
inductive CueLine
  | other
  | reference (name : String)
  | warning (reason : String)

def cueLine (T : TextTables) (line : String) : CueLine :=
  let stripped := strip line
  if stripped = "" ∨ ¬ "FILE".toList <+: (T.upper stripped).toList then .other
  else
    match cueFile? T line with
    | none => .warning "malformed FILE line"
    | some name => if name = "" then .warning "empty filename" else .reference name

/-- The first warning of `parse_cue_references`, or the references. -/
def parseCueReferences (T : TextTables) : ℕ → List String → Except (ℕ × String) (List String)
  | _, [] => .ok []
  | number, line :: rest =>
    match cueLine T line with
    | .other => parseCueReferences T (number + 1) rest
    | .warning reason => .error (number, reason)
    | .reference name => (parseCueReferences T (number + 1) rest).map (name :: ·)

/-- `resolve_cue`. -/
def resolveCue (T : TextTables) : Resolver := fun path text =>
  match parseCueReferences T 1 (splitLines text) with
  | .error (number, reason) =>
    .error ("Malformed CUE dependency at line " ++ toString number ++ ": " ++ reason)
  | .ok references =>
    if references = [] then .error ("CUE descriptor has no FILE entries: " ++ path)
    else .ok (references.map fun name => ⟨name, true⟩)

/-! ### Markers and CloneCD sets -/

/-- `resolve_xbox360`. -/
def resolveXbox360 : Resolver := fun path text =>
  match splitLines text with
  | [] => .error ("Xbox 360 marker is empty: " ++ path)
  | line :: _ =>
    if strip line = "" then .error ("Xbox 360 marker is empty: " ++ path)
    else .ok [⟨strip line, true⟩]

/-- `PurePosixPath(path).with_suffix(suffix).name`. -/
def nameWithSuffix (path suffix : String) : String :=
  let name := (pathName path).toList
  String.ofList (name.take (name.length - (pathSuffix path).toList.length)) ++ suffix

/-- `resolve_ccd`. -/
def resolveCcd : Resolver := fun path _ =>
  .ok [⟨nameWithSuffix path ".img", true⟩, ⟨nameWithSuffix path ".sub", false⟩]

/-! ### GD-ROM descriptors -/

/-- Some fields of digits, each with white space after it, and what is left. -/
def digitFields? (T : TextTables) : ℕ → List Char → Option (List Char)
  | 0, cs => some cs
  | n + 1, cs =>
    let field := (cs.dropWhile isSpace).takeWhile fun c => !isSpace c
    let rest := (cs.dropWhile isSpace).dropWhile fun c => !isSpace c
    if field ≠ [] && field.all T.isDigit && rest ≠ [] then digitFields? T n rest else none

/-- `_GDI_TRACK_RE`: the file of a track. -/
def gdiTrack? (T : TextTables) (line : String) : Option String :=
  (digitFields? T 4 line.toList).bind fun rest =>
    let argument := rest.dropWhile isSpace
    match (quoted? argument).filter (fun found =>
        found.1 ≠ [] && (lastField? found.2).any fun field => field.all T.isDigit) with
    | some found => some (String.ofList found.1)
    | none =>
      match splitFields argument with
      | [name, last] => if last.all T.isDigit then some (String.ofList name) else none
      | _ => none

/-- The loop of `resolve_gdi` over the tracks. -/
def parseGdiTracks (T : TextTables) (path : String) :
    ℕ → List String → Except String (List String)
  | _, [] => .ok []
  | number, line :: rest =>
    match gdiTrack? T line with
    | none => .error ("Malformed GDI track at line " ++ toString number ++ ": " ++ path)
    | some name => (parseGdiTracks T path (number + 1) rest).map (name :: ·)

/-- `resolve_gdi`. -/
def resolveGdi (T : TextTables) : Resolver := fun path text =>
  match (splitLines (dropMarks text)).filter fun line => strip line ≠ "" with
  | [] => .error ("GDI descriptor is empty: " ++ path)
  | first :: tracks =>
    match T.int (strip first) with
    | none => .error ("GDI descriptor has an invalid track count: " ++ path)
    | some expected =>
      match parseGdiTracks T path 2 tracks with
      | .error message => .error message
      | .ok names =>
        if (names.length : ℤ) ≠ expected then
          .error ("GDI track count mismatch in " ++ path ++ ": expected " ++ toString expected
            ++ ", found " ++ toString names.length)
        else .ok (names.map fun name => ⟨name, true⟩)

/-! ### The default registry -/

/-- `DEFAULT_RESOLVERS`. -/
def defaultResolvers (T : TextTables) : List (String × Resolver) :=
  [(".m3u", resolveM3u), (".cue", resolveCue T), (".xbox360", resolveXbox360),
    (".ccd", resolveCcd), (".gdi", resolveGdi T)]

/-- `DependencyResolverRegistry(provider, source_root=...)`. -/
def defaultRegistry (T : TextTables) (provider : StorageProvider) (sourceRoot : Option String) :
    DependencyResolverRegistry where
  provider := provider
  sourceRoot := sourceRoot
  resolvers := defaultResolvers T
  lower := T.lower
  maxDepth := 16
  maxDependencies := 512
  maxDescriptorBytes := 1024 * 1024

end RomCloud.Cache
