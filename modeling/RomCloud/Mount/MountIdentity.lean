import RomCloud.Mount.MountTable

namespace RomCloud.Mount

open RomCloud.Lib
open RomCloud.Cache (splitLinesFrom splitFields isLineBreak)
open RomCloud.Library (normpath)

/-!
# Which mounts are recognised

* `Legible` — the lines that are read back as they were written: in ASCII, without unusual white
  space, and without commas in an option;
* `splitLinesFrom_procMounts`, `Legible.fields` — the lines of the table, and the fields of one;
* `Recognised` — the readers answer for the topmost mount;
* `Agreed` — the lowest and the topmost mount at the target are alike;
* `recognised_iff` — in a legible table these are the same.
-/

/-! ### What is written -/

theorem utf8Chars_ascii {c : Char} (h : c.toNat < 128) : utf8Chars c = [c] := by
  have hval : c.val.toNat < 128 := h
  have hencode : String.utf8EncodeChar c = [c.val.toUInt8] := by
    rw [String.utf8EncodeChar_eq_singleton (by
      rw [Char.utf8Size_eq_one_iff, UInt32.le_iff_toNat_le]
      exact Nat.le_of_lt_succ hval)]
  rw [utf8Chars, hencode, List.map_singleton, UInt32.toNat_toUInt8,
    Nat.mod_eq_of_lt (by omega)]
  exact congrArg (· :: []) (Char.ofNat_toNat c)

/-- What was written is read back. -/
theorem decodeOctal_mangle (text : List Char) : decodeOctal (mangle text) = text := by
  induction text with
  | nil => rfl
  | cons c rest ih =>
    show decodeOctal (mangleChar c ++ mangle rest) = c :: rest
    rw [mangleChar]
    split
    · next h =>
      subst h
      exact congrArg (' ' :: ·) ih
    split
    · next h =>
      subst h
      exact congrArg ('\t' :: ·) ih
    split
    · next h =>
      subst h
      exact congrArg ('\n' :: ·) ih
    split
    · next h =>
      subst h
      exact congrArg ('\\' :: ·) ih
    · next h =>
      show decodeOctal (c :: mangle rest) = c :: rest
      rw [decodeOctal, ih]
      intro a b d more hc
      exact absurd hc h

theorem mem_mangle {c : Char} {text : List Char} (h : c ∈ mangle text) :
    c ∈ ['\\', '0', '1', '2', '3', '4'] ∨
      (c ∈ text ∧ c ≠ ' ' ∧ c ≠ '\t' ∧ c ≠ '\n' ∧ c ≠ '\\') := by
  obtain ⟨d, hd, hc⟩ := List.mem_flatMap.mp h
  rw [mangleChar] at hc
  split at hc
  · exact Or.inl ((by decide : ['\\', '0', '4', '0'] ⊆ ['\\', '0', '1', '2', '3', '4']) hc)
  split at hc
  · exact Or.inl ((by decide : ['\\', '0', '1', '1'] ⊆ ['\\', '0', '1', '2', '3', '4']) hc)
  split at hc
  · exact Or.inl ((by decide : ['\\', '0', '1', '2'] ⊆ ['\\', '0', '1', '2', '3', '4']) hc)
  split at hc
  · exact Or.inl ((by decide : ['\\', '1', '3', '4'] ⊆ ['\\', '0', '1', '2', '3', '4']) hc)
  · next hspace htab hnewline hbackslash =>
    obtain rfl := List.mem_singleton.mp hc
    exact Or.inr ⟨hd, hspace, htab, hnewline, hbackslash⟩

theorem mangle_ne_nil {text : List Char} (h : text ≠ []) : mangle text ≠ [] := by
  obtain ⟨c, rest, rfl⟩ := List.exists_cons_of_ne_nil h
  show mangleChar c ++ mangle rest ≠ []
  rw [mangleChar]
  split_ifs <;> exact List.cons_ne_nil _ _

/-- A text of ASCII, with blanks, tabs and newlines as its only white space. -/
def PlainText (text : List Char) : Prop :=
  ∀ c ∈ text, c.toNat < 128 ∧ (isSpace c = true → c = ' ' ∨ c = '\t' ∨ c = '\n')

/-- A text that is checked character by character. -/
theorem plainText_of_all {text : List Char} (h : (text.all fun c =>
    decide (c.toNat < 128) && (!isSpace c || [' ', '\t', '\n'].contains c)) = true) :
    PlainText text := by
  intro c hc
  have hchar := List.all_eq_true.mp h c hc
  simp only [Bool.and_eq_true, decide_eq_true_eq, Bool.or_eq_true, Bool.not_eq_true',
    List.contains_iff_mem, List.mem_cons, List.not_mem_nil, or_false] at hchar
  exact ⟨hchar.1, fun hspace => hchar.2.resolve_left (by rw [hspace]; exact Bool.noConfusion)⟩

namespace PlainText

variable {text : List Char} (h : PlainText text)

include h

theorem decode : unicodeEscape (mangle text) = text := by
  have hascii : (mangle text).flatMap utf8Chars = mangle text := by
    have hall : ∀ c ∈ mangle text, utf8Chars c = [c] := by
      intro c hc
      apply utf8Chars_ascii
      rcases mem_mangle hc with hescape | ⟨hmem, -⟩
      · simp only [List.mem_cons, List.not_mem_nil, or_false] at hescape
        rcases hescape with rfl | rfl | rfl | rfl | rfl | rfl <;> decide
      · exact (h c hmem).1
    rw [List.flatMap_congr hall, List.flatMap_singleton']
  rw [unicodeEscape, hascii, decodeOctal_mangle]

theorem not_space {c : Char} (hc : c ∈ mangle text) : isSpace c = false := by
  rcases mem_mangle hc with hescape | ⟨hmem, hspace, htab, hnewline, -⟩
  · simp only [List.mem_cons, List.not_mem_nil, or_false] at hescape
    rcases hescape with rfl | rfl | rfl | rfl | rfl | rfl <;> decide
  · by_contra hspace'
    rcases (h c hmem).2 (Bool.eq_true_of_not_eq_false hspace') with rfl | rfl | rfl
    · exact hspace rfl
    · exact htab rfl
    · exact hnewline rfl

end PlainText

/-! ### What is split -/

/-- A line boundary is white space. -/
theorem isSpace_of_isLineBreak {c : Char} (h : isLineBreak c = true) : isSpace c = true := by
  simp only [isLineBreak, Bool.or_eq_true, Bool.and_eq_true, decide_eq_true_eq] at h
  simp only [isSpace, Bool.or_eq_true, Bool.and_eq_true, decide_eq_true_eq]
  omega

/-- The fields of a line. -/
theorem splitFields_intercalate {fields : List (List Char)}
    (h : ∀ field ∈ fields, field ≠ [] ∧ ∀ c ∈ field, isSpace c = false) :
    splitFields ([' '].intercalate fields) = fields := by
  induction fields with
  | nil => rfl
  | cons field rest ih =>
    rw [List.forall_mem_cons] at h
    obtain ⟨⟨hne, hfield⟩, hrest⟩ := h
    cases rest with
    | nil =>
      have hkeep : [field].filter (· ≠ []) = [field] := by
        rw [List.filter_cons_of_pos (by simpa using hne)]
        rfl
      rw [splitFields, List.intercalate_singleton, List.splitOnP_eq_singleton hfield]
      exact hkeep
    | cons next rest =>
      have hcons : [' '].intercalate (field :: next :: rest)
          = field ++ ' ' :: [' '].intercalate (next :: rest) := by
        rw [List.intercalate_cons_cons, List.append_assoc]
        rfl
      rw [splitFields, hcons, List.splitOnP_append_cons_of_forall_mem hfield ' ' (by decide),
        List.filter_cons_of_pos (by simpa using hne)]
      exact congrArg (field :: ·) (ih hrest)

theorem splitLinesFrom_cons {c : Char} {rest line : List Char}
    (h : c = '\r' → rest.head? ≠ some '\n') : splitLinesFrom (c :: rest) line
      = if isLineBreak c then line.reverse :: splitLinesFrom rest []
        else splitLinesFrom rest (c :: line) := by
  rw [splitLinesFrom]
  rintro more rfl rfl
  exact h rfl rfl

/-- A newline ends a line whatever follows it. -/
theorem splitLinesFrom_append (rest text line : List Char) :
    splitLinesFrom (text ++ '\n' :: rest) line
      = splitLinesFrom (text ++ ['\n']) line ++ splitLinesFrom rest [] := by
  have hbreak : isLineBreak '\n' = true := by decide
  induction hlength : text.length using Nat.strong_induction_on generalizing text line with
  | _ length ih =>
    subst hlength
    cases text with
    | nil =>
      have hplain : '\n' = '\r' → rest.head? ≠ some '\n' := fun h => absurd h (by decide)
      rw [List.nil_append, List.nil_append, splitLinesFrom_cons hplain, if_pos hbreak,
        splitLinesFrom_cons fun h => absurd h (by decide), if_pos hbreak]
      rfl
    | cons c text =>
      -- One character goes to the line, or ends it.
      have hone : (∀ more, c = '\r' → (text ++ '\n' :: more).head? ≠ some '\n') →
          splitLinesFrom (c :: text ++ '\n' :: rest) line
            = splitLinesFrom (c :: text ++ ['\n']) line ++ splitLinesFrom rest [] := by
        intro hplain
        rw [List.cons_append, splitLinesFrom_cons (hplain rest), List.cons_append,
          splitLinesFrom_cons (hplain [])]
        split
        · rw [ih text.length (Nat.lt_succ_self _) text [] rfl]
          rfl
        · exact ih text.length (Nat.lt_succ_self _) text (c :: line) rfl
      by_cases hreturn : c = '\r'
      · subst hreturn
        cases text with
        | nil => rfl
        | cons d text =>
          by_cases hnewline : d = '\n'
          · subst hnewline
            show line.reverse :: splitLinesFrom (text ++ '\n' :: rest) []
              = line.reverse :: splitLinesFrom (text ++ ['\n']) [] ++ splitLinesFrom rest []
            rw [ih text.length (by rw [List.length_cons, List.length_cons]; omega) text [] rfl]
            rfl
          · exact hone fun more _ h => hnewline (Option.some.inj h)
      · exact hone fun more h => absurd h hreturn

/-- The lines of the table, mount after mount. -/
theorem splitLinesFrom_procMounts (mounts : List MountEntry) :
    splitLinesFrom (procMounts mounts) [] = mounts.flatMap fun m => splitLinesFrom m.line [] := by
  induction mounts with
  | nil => rfl
  | cons m rest ih =>
    show splitLinesFrom (m.line ++ procMounts rest) [] = _
    rw [List.flatMap_cons, ← ih, MountEntry.line, List.append_assoc]
    exact splitLinesFrom_append _ _ _

/-- What stands in a joined text. -/
theorem mem_intercalate_blank {c : Char} {fields : List (List Char)}
    (h : c ∈ [' '].intercalate fields) : c = ' ' ∨ ∃ field ∈ fields, c ∈ field := by
  induction fields with
  | nil => cases h
  | cons field rest ih =>
    cases rest with
    | nil =>
      rw [List.intercalate_singleton] at h
      exact Or.inr ⟨field, List.mem_cons_self, h⟩
    | cons next rest =>
      rw [List.intercalate_cons_cons, List.mem_append, List.mem_append] at h
      rcases h with (h | h) | h
      · exact Or.inr ⟨field, List.mem_cons_self, h⟩
      · exact Or.inl (List.mem_singleton.mp h)
      · rcases ih h with heq | ⟨other, hother, hc⟩
        · exact Or.inl heq
        · exact Or.inr ⟨other, List.mem_cons_of_mem _ hother, hc⟩

/-- A line without another boundary. -/
theorem splitLinesFrom_line {text : List Char} (h : ∀ c ∈ text, isLineBreak c = false)
    (line : List Char) : splitLinesFrom (text ++ ['\n']) line = [line.reverse ++ text] := by
  induction text generalizing line with
  | nil => rw [List.append_nil]; rfl
  | cons c rest ih =>
    rw [List.forall_mem_cons] at h
    have hc : c ≠ '\r' := by
      rintro rfl
      exact absurd h.1 (by decide)
    rw [List.cons_append, splitLinesFrom_cons fun h => absurd h hc, if_neg (by rw [h.1]; nofun),
      ih h.2, List.reverse_cons, List.append_assoc]
    rfl

/-! ### Legible mounts -/

/-- A mount whose line is read back as it was written. -/
structure Legible (m : MountEntry) : Prop where
  source : m.source ≠ [] ∧ PlainText m.source
  target : m.target ≠ [] ∧ PlainText m.target
  fstype : m.fstype ≠ [] ∧ mangle m.fstype = m.fstype ∧ PlainText m.fstype
  options : m.optionText ≠ [] ∧ PlainText m.optionText
  commas : ∀ option ∈ m.options, ',' ∉ option

/-- An option that is written as `rw` is this option. -/
theorem contains_mangle (m : MountEntry) : (m.options.map mangle).contains ['r', 'w'] = m.writable := by
  rw [MountEntry.writable, Bool.eq_iff_iff, List.contains_iff_mem, List.contains_iff_mem,
    List.mem_map]
  constructor
  · rintro ⟨option, hoption, heq⟩
    have hsame : option = ['r', 'w'] := by
      rw [← decodeOctal_mangle option, heq]
      decide
    rwa [hsame] at hoption
  · exact fun hmem => ⟨['r', 'w'], hmem, by decide⟩

namespace Legible

variable {m : MountEntry} (h : Legible m)

include h

theorem fields_plain : ∀ field ∈ m.lineFields, field ≠ [] ∧ ∀ c ∈ field, isSpace c = false := by
  intro field hfield
  simp only [MountEntry.lineFields, List.mem_cons, List.not_mem_nil, or_false] at hfield
  rcases hfield with rfl | rfl | rfl | rfl | rfl | rfl
  · exact ⟨mangle_ne_nil h.source.1, fun c hc => h.source.2.not_space hc⟩
  · exact ⟨mangle_ne_nil h.target.1, fun c hc => h.target.2.not_space hc⟩
  · exact ⟨mangle_ne_nil h.fstype.1, fun c hc => h.fstype.2.2.not_space hc⟩
  · exact ⟨mangle_ne_nil h.options.1, fun c hc => h.options.2.not_space hc⟩
  all_goals exact ⟨List.cons_ne_nil _ _, fun c hc => by rw [List.mem_singleton.mp hc]; rfl⟩

/-- The line is one line. -/
theorem lines : splitLinesFrom m.line [] = [[' '].intercalate m.lineFields] := by
  refine splitLinesFrom_line (fun c hc => ?_) []
  by_contra hbreak
  rw [Bool.not_eq_false] at hbreak
  have hspace := isSpace_of_isLineBreak hbreak
  rcases mem_intercalate_blank hc with rfl | ⟨field, hfield, hmem⟩
  · exact absurd hbreak (by decide)
  · rw [(h.fields_plain field hfield).2 c hmem] at hspace
    cases hspace

theorem fields : splitFields ([' '].intercalate m.lineFields) = m.lineFields :=
  splitFields_intercalate h.fields_plain

theorem lineTarget : lineTarget? ([' '].intercalate m.lineFields)
    = some (normpath (String.ofList m.target)) := by
  rw [lineTarget?, h.fields]
  show some (normpath (String.ofList (unicodeEscape (mangle m.target)))) = _
  rw [h.target.2.decode]

theorem mountFields : mountFields? ([' '].intercalate m.lineFields)
    = some ⟨mangle m.source, mangle m.target, mangle m.fstype, mangle m.optionText⟩ := by
  rw [mountFields?, h.fields]
  rfl

theorem options_ne_nil : m.options ≠ [] := by
  intro hnil
  have hne := h.options.1
  rw [MountEntry.optionText, hnil] at hne
  exact hne rfl

/-- The options, as they are written. -/
theorem splitOn_mangle : (mangle m.optionText).splitOn ',' = m.options.map mangle := by
  have hcommas : ∀ option ∈ m.options.map mangle, ',' ∉ option := by
    intro option hoption
    obtain ⟨raw, hraw, rfl⟩ := List.mem_map.mp hoption
    intro hcomma
    rcases mem_mangle hcomma with hescape | ⟨hmem, -⟩
    · exact absurd hescape (by decide)
    · exact h.commas raw hraw hmem
  have hmangle : ∀ options : List (List Char),
      mangle ([','].intercalate options) = [','].intercalate (options.map mangle) := by
    intro options
    induction options with
    | nil => rfl
    | cons option rest ih =>
      cases rest with
      | nil => rw [List.intercalate_singleton, List.map_singleton, List.intercalate_singleton]
      | cons next rest =>
        have happend : ∀ text more, mangle (text ++ more) = mangle text ++ mangle more :=
          fun _ _ => List.flatMap_append
        rw [List.intercalate_cons_cons, happend, happend, ih]
        simp only [List.map_cons, List.intercalate_cons_cons]
        rfl
  rw [MountEntry.optionText, hmangle, List.splitOn_intercalate ',' hcommas (by
    rw [Ne, List.map_eq_nil_iff]
    exact h.options_ne_nil)]

/-- The options, decoded. -/
theorem splitOn_decode : (unicodeEscape (mangle m.optionText)).splitOn ',' = m.options := by
  rw [h.options.2.decode, MountEntry.optionText, List.splitOn_intercalate ',' h.commas
    h.options_ne_nil]

end Legible

/-! ### The readers on the table -/

section Readers

variable {target : String} {mounts : List MountEntry}

/-- A line of the mount is read as one for the target. -/
def Seen (target : String) (m : MountEntry) : Prop :=
  ∃ line ∈ splitLinesFrom m.line [], lineTarget? line = some (normpath target)

/-- Every mount that is at the target, or is read as if it were, is legible. -/
def LegibleAt (target : String) (mounts : List MountEntry) : Prop :=
  ∀ m ∈ mounts, (m.isAt target = true ∨ Seen target m) → Legible m

/-- A legible mount is seen where it is. -/
theorem Legible.seen_iff {m : MountEntry} (h : Legible m) :
    Seen target m ↔ m.isAt target = true := by
  rw [Seen, h.lines, MountEntry.isAt, decide_eq_true_eq]
  simp only [List.mem_singleton, exists_eq_left, h.lineTarget, Option.some.injEq]

/-- **Is it mounted?** -/
theorem isMounted_eq (h : LegibleAt target mounts) :
    isMounted target (procMounts mounts) = mounts.any (·.isAt target) := by
  rw [Bool.eq_iff_iff, isMounted, List.contains_iff_mem, parseMountedTargets, List.mem_filterMap,
    List.any_eq_true, splitLinesFrom_procMounts]
  have hseen : ∀ m ∈ mounts, Seen target m ↔ m.isAt target = true := by
    intro m hm
    constructor
    · intro hseen
      exact (h m hm (Or.inr hseen)).seen_iff.mp hseen
    · intro hat
      exact (h m hm (Or.inl hat)).seen_iff.mpr hat
  constructor
  · rintro ⟨line, hline, htarget⟩
    obtain ⟨m, hm, hmem⟩ := List.mem_flatMap.mp hline
    exact ⟨m, hm, (hseen m hm).mp ⟨line, hmem, htarget⟩⟩
  · rintro ⟨m, hm, hat⟩
    obtain ⟨line, hmem, htarget⟩ := (hseen m hm).mpr hat
    exact ⟨line, List.mem_flatMap.mpr ⟨m, hm, hmem⟩, htarget⟩

/-- The fields that a line for the target has name it. -/
theorem lineTarget_of_fields {line : List Char} {fields : MountFields}
    (h : mountFields? line = some fields) :
    lineTarget? line = some (normpath (String.ofList (unicodeEscape fields.target))) := by
  rw [mountFields?] at h
  split at h
  · next source mountTarget fstype options rest hsplit =>
    obtain rfl := Option.some.inj h
    rw [lineTarget?, hsplit]
    rfl
  · cases h

/-- **The record.** The readers take the lowest mount at the target. -/
theorem findFields_eq (h : LegibleAt target mounts) :
    findFields target (procMounts mounts) = (lowest mounts target).map fun m =>
      ⟨mangle m.source, mangle m.target, mangle m.fstype, mangle m.optionText⟩ := by
  rw [findFields, splitLinesFrom_procMounts, lowest]
  induction mounts with
  | nil => rfl
  | cons m rest ih =>
    rw [LegibleAt, List.forall_mem_cons] at h
    obtain ⟨hfirst, hrest⟩ := h
    rw [List.flatMap_cons, List.findSome?_append, ih hrest]
    by_cases hat : m.isAt target = true
    · have hlegible := hfirst (Or.inl hat)
      have hfind : (m :: rest).find? (·.isAt target) = some m := by rw [List.find?_cons, hat]
      have hkept : (some (⟨mangle m.source, mangle m.target, mangle m.fstype, mangle m.optionText⟩ :
          MountFields)).filter (fun fields => normpath (String.ofList (unicodeEscape fields.target))
            = normpath target)
            = some ⟨mangle m.source, mangle m.target, mangle m.fstype, mangle m.optionText⟩ := by
        rw [Option.filter_some, hlegible.target.2.decode, if_pos]
        exact hat
      rw [hfind, hlegible.lines, List.findSome?_cons, hlegible.mountFields, hkept]
      rfl
    · have hfind : (m :: rest).find? (·.isAt target) = rest.find? (·.isAt target) := by
        rw [List.find?_cons, Bool.eq_false_of_not_eq_true hat]
      rw [hfind]
      have hnone : ((splitLinesFrom m.line []).findSome? fun line =>
          (mountFields? line).filter fun fields =>
            normpath (String.ofList (unicodeEscape fields.target)) = normpath target) = none := by
        rw [List.findSome?_eq_none_iff]
        intro line hline
        rw [Option.filter_eq_none_iff]
        intro fields hfields hsame
        have hseen : Seen target m := by
          refine ⟨line, hline, ?_⟩
          rw [lineTarget_of_fields hfields, of_decide_eq_true hsame]
        exact hat ((hfirst (Or.inr hseen)).seen_iff.mp hseen)
      rw [hnone, Option.none_or]

/-- The lowest mount at the target is at the target, and legible. -/
theorem legible_lowest (h : LegibleAt target mounts) {m : MountEntry}
    (hlow : lowest mounts target = some m) : Legible m :=
  h m (List.mem_of_find?_eq_some hlow) (Or.inl (List.find?_some (p := fun m : MountEntry => m.isAt target) hlow))

theorem isMountedWritable_eq (h : LegibleAt target mounts) :
    isMountedWritable target (procMounts mounts) = (lowest mounts target).any (·.writable) := by
  rw [isMountedWritable, mountOptions, findFields_eq h]
  cases hlow : lowest mounts target with
  | none => rfl
  | some m =>
    have hlegible := legible_lowest h hlow
    show ((mangle m.optionText).splitOn ',').contains ['r', 'w'] = m.writable
    rw [hlegible.splitOn_mangle, contains_mangle]

theorem isMountedCifsTarget_eq (T : NameTables) (query : CifsQuery) (h : LegibleAt target mounts) :
    isMountedCifsTarget T target (procMounts mounts) query
      = (lowest mounts target).any (·.identified T query) := by
  rw [isMountedCifsTarget, mountRecord, findFields_eq h]
  cases hlow : lowest mounts target with
  | none => rfl
  | some m =>
    have hlegible := legible_lowest h hlow
    show cifsMatches T query ⟨unicodeEscape (mangle m.source), T.lower (mangle m.fstype),
      (unicodeEscape (mangle m.optionText)).splitOn ','⟩ = m.identified T query
    rw [hlegible.source.2.decode, hlegible.fstype.2.1, hlegible.splitOn_decode]
    rfl

end Readers

/-! ### The share -/

section Share

variable (T : NameTables) (config : MountConfig)

/-- What `build_mount_argv` mounts for a configuration: its source, as CIFS, in its mode, and with no
prefix that was given as an option. -/
structure MadeFor (m : MountEntry) : Prop where
  source : config.source = some m.source
  fstype : T.lower m.fstype = ['c', 'i', 'f', 's']
  mode : config.mode ∈ m.options
  plain : optionPrefixes m.options = []

/-- The configuration names one server, one share and a path, as the table names them. -/
structure MountConfig.Spelled : Prop where
  server : config.server ≠ [] ∧ '/' ∉ config.server
  share : stripSlashes config.share ≠ [] ∧ '/' ∉ stripSlashes config.share
  remotePath : normalizeSmbRemotePath config.remotePath = some (stripSlashes config.remotePath)

variable {T} {config}

theorem slash_mem_casefold (text : List Char) : '/' ∈ T.casefold text ↔ '/' ∈ text := by
  rw [CaseFolding.casefold, List.mem_flatMap]
  constructor
  · rintro ⟨c, hc, hslash⟩
    by_cases hascii : c.toNat < 128
    · rw [T.ascii c hascii, List.mem_singleton] at hslash
      have hall : ∀ n < 128, '/' = (Char.ofNat n).toLower → Char.ofNat n = '/' := by decide
      have hsame := hall c.toNat hascii
      rw [Char.ofNat_toNat] at hsame
      rwa [← hsame hslash]
    · have hletter := T.foreign c (by omega) '/' hslash (by decide)
      exact absurd hletter.1 (by decide)
  · intro hmem
    refine ⟨'/', hmem, ?_⟩
    rw [T.ascii '/' (by decide)]
    decide

/-- A normal path has no slash around it. -/
theorem normalize_ends {value path : List Char} (h : normalizeSmbRemotePath value = some path) :
    path.head? ≠ some '/' ∧ path.getLast? ≠ some '/' := by
  have hends : ∀ raw : List Char, (if raw = [] then some [] else
      if raw.head? = some '/' ∨ raw.getLast? = some '/' then none
      else if (raw.splitOn '/').any (fun part => [[], ['.'], ['.', '.']].contains part) then none
      else some raw) = some path → path.head? ≠ some '/' ∧ path.getLast? ≠ some '/' := by
    intro raw h
    split at h
    · obtain rfl := Option.some.inj h
      exact ⟨nofun, nofun⟩
    rw [Option.ite_none_left_eq_some, Option.ite_none_left_eq_some, Option.some.injEq] at h
    obtain ⟨hends, -, rfl⟩ := h
    exact not_or.mp hends
  rw [normalizeSmbRemotePath, Option.ite_none_left_eq_some, Option.ite_none_left_eq_some] at h
  exact hends _ h.2.2

theorem stripSlashes_eq_self {text : List Char} (h : text.head? ≠ some '/' ∧ text.getLast? ≠ some '/') :
    stripSlashes text = text := by
  have hfront : text.dropWhile (· = '/') = text := by
    cases text with
    | nil => rfl
    | cons c rest =>
      rw [List.dropWhile_cons_of_neg]
      simpa using h.1
  have hback : text.reverse.dropWhile (· = '/') = text.reverse := by
    cases hreverse : text.reverse with
    | nil => rfl
    | cons c rest =>
      rw [List.dropWhile_cons_of_neg]
      have hlast := h.2
      rw [← List.head?_reverse, hreverse] at hlast
      simpa using hlast
  rw [stripSlashes, hfront, hback, List.reverse_reverse]

theorem stripSlashes_normalize {value path : List Char}
    (h : normalizeSmbRemotePath value = some path) : stripSlashes path = path :=
  stripSlashes_eq_self (normalize_ends h)

/-- The parts of a source. -/
theorem splitOn_source {server share : List Char} (rest : List Char) (hserver : '/' ∉ server)
    (hshare : '/' ∉ share) : (server ++ '/' :: (share ++ (if rest = [] then [] else '/' :: rest))).splitOn '/'
      = server :: share :: (if rest = [] then [] else rest.splitOn '/') := by
  rw [List.splitOn_append_cons_self, List.splitOn_eq_singleton hserver, List.singleton_append]
  split
  · rw [List.append_nil, List.splitOn_eq_singleton hshare]
  · rw [List.splitOn_append_cons_self, List.splitOn_eq_singleton hshare, List.singleton_append]

/-- What the checks ask of a mount without a prefix among its options. -/
theorem cifsMatches_iff {query : CifsQuery} {record : MountRecord}
    (hfstype : record.fstype = ['c', 'i', 'f', 's']) (hplain : optionPrefixes record.options = [])
    {text : List Char} (hsource : record.source = '/' :: '/' :: text) :
    cifsMatches T query record = true ↔ ∃ server share rest,
      text.splitOn '/' = server :: share :: rest ∧ server ≠ [] ∧ share ≠ [] ∧
      (∀ asked, query.server = some asked → T.casefold server = T.casefold asked) ∧
      (∀ asked, query.share = some asked → T.casefold share = T.casefold (stripSlashes asked)) ∧
      (∀ readOnly, query.readOnly = some readOnly →
        (if readOnly then ['r', 'o'] else ['r', 'w']) ∈ record.options) ∧
      stripSlashes (['/'].intercalate rest) = stripSlashes (query.remotePath.getD []) := by
  have hguard : ¬ (record.fstype ≠ ['c', 'i', 'f', 's'] ∨ ¬ ['/', '/'] <+: record.source) := by
    rw [hfstype, hsource]
    exact not_or.mpr ⟨not_not.mpr rfl, not_not.mpr ⟨text, rfl⟩⟩
  have hdrop : record.source.drop 2 = text := by rw [hsource]; rfl
  rw [cifsMatches, if_neg hguard, hdrop, hplain]
  split
  · next server share rest hsplit =>
    have hactual : (if stripSlashes (['/'].intercalate rest) = [] then [] else
        stripSlashes (['/'].intercalate rest)) = stripSlashes (['/'].intercalate rest) := by
      split
      · next hnil => exact hnil.symm
      · rfl
    simp only [List.headD_nil, List.length_nil, Nat.zero_le, decide_true, Bool.and_true,
      Bool.or_true, Bool.true_or, hactual, Bool.and_eq_true, decide_eq_true_eq, Option.all_eq_true,
      beq_iff_eq, List.contains_iff_mem]
    constructor
    · rintro ⟨⟨⟨⟨⟨hserver, hshare⟩, hasked⟩, hname⟩, hmode⟩, hpath⟩
      exact ⟨server, share, rest, hsplit, hserver, hshare, hasked, hname, hmode, hpath⟩
    · rintro ⟨server', share', rest', hsplit', hserver, hshare, hasked, hname, hmode, hpath⟩
      obtain ⟨rfl, hcons⟩ := List.cons.inj (hsplit.symm.trans hsplit')
      obtain ⟨rfl, rfl⟩ := List.cons.inj hcons
      exact ⟨⟨⟨⟨⟨hserver, hshare⟩, hasked⟩, hname⟩, hmode⟩, hpath⟩
  · next hsplit =>
    refine iff_of_false Bool.false_ne_true ?_
    rintro ⟨server, share, rest, hparts, -⟩
    exact hsplit server share rest hparts

/-- **A mount of its own.** It is identified, by its server and by any, exactly if the configuration
spells its names as the table does. -/
theorem MadeFor.identified_iff {m : MountEntry} (h : MadeFor T config m) :
    (∀ anyServer, m.identified T (config.query anyServer) = true) ↔ config.Spelled := by
  obtain ⟨remotePath, hnormal, hmade⟩ := Option.map_eq_some_iff.mp h.source
  rw [stripSlashes_normalize hnormal] at hmade
  have hsource : m.source = '/' :: '/' :: (config.server ++ '/' ::
      (stripSlashes config.share ++ (if remotePath = [] then [] else '/' :: remotePath))) := by
    rw [← hmade, List.append_assoc]
    rfl
  have hmatch : ∀ anyServer, m.identified T (config.query anyServer) = true ↔ _ := fun anyServer =>
    @cifsMatches_iff T (config.query anyServer) ⟨m.source, T.lower m.fstype, m.options⟩ h.fstype
      h.plain _ hsource
  have hrest : stripSlashes (['/'].intercalate (if remotePath = [] then []
      else remotePath.splitOn '/')) = remotePath := by
    split
    · next hnil => rw [hnil]; rfl
    · rw [List.intercalate_splitOn, stripSlashes_normalize hnormal]
  constructor
  · intro hall
    obtain ⟨server, share, rest, hsplit, hserver, hshare, hasked, hname, -, hpath⟩ :=
      (hmatch false).mp (hall false)
    have hparts : '/' ∉ server ∧ '/' ∉ share := by
      have hmem : ∀ part ∈ server :: share :: rest, '/' ∉ part := by
        intro part hpart
        rw [← hsplit] at hpart
        exact (mem_splitOn hpart).1
      exact ⟨hmem server (by simp), hmem share (by simp)⟩
    have hserver' : '/' ∉ config.server := by
      have hfold : T.casefold server = T.casefold config.server := hasked _ rfl
      intro hmem
      rw [← @slash_mem_casefold T, ← hfold, slash_mem_casefold] at hmem
      exact hparts.1 hmem
    have hshare' : '/' ∉ stripSlashes config.share := by
      have hfold : T.casefold share = T.casefold (stripSlashes config.share) := hname _ rfl
      intro hmem
      rw [← @slash_mem_casefold T, ← hfold, slash_mem_casefold] at hmem
      exact hparts.2 hmem
    rw [splitOn_source _ hserver' hshare'] at hsplit
    obtain ⟨rfl, hcons⟩ := List.cons.inj hsplit
    obtain ⟨rfl, rfl⟩ := List.cons.inj hcons
    rw [hrest] at hpath
    refine ⟨⟨hserver, hserver'⟩, ⟨hshare, hshare'⟩, ?_⟩
    rw [hnormal, hpath]
    rfl
  · intro hspelled anyServer
    rw [hmatch]
    refine ⟨config.server, stripSlashes config.share, _,
      splitOn_source _ hspelled.server.2 hspelled.share.2, hspelled.server.1, hspelled.share.1,
      fun asked hasked => ?_, fun asked hasked => ?_, fun readOnly hmode => ?_, ?_⟩
    · cases anyServer with
      | true => cases hasked
      | false =>
        obtain rfl := Option.some.inj hasked
        rfl
    · obtain rfl := Option.some.inj hasked
      rfl
    · obtain rfl := Option.some.inj hmode
      exact h.mode
    · rw [hrest]
      have hsame := hspelled.remotePath
      rw [hnormal] at hsame
      exact Option.some.inj hsame

end Share

/-! ### The topmost mount -/

section Topmost

variable (T : NameTables) (config : MountConfig) (mounts : List MountEntry)

/-- The readers answer for the topmost mount at the mount point; one that was made for the
configuration is found and may be unmounted, and no other is. -/
structure Recognised : Prop where
  mounted : isMounted config.mountPoint (procMounts mounts)
    = (topmost mounts config.mountPoint).isSome
  writable : isMountedWritable config.mountPoint (procMounts mounts)
    = (topmost mounts config.mountPoint).any (·.writable)
  identity : ∀ anyServer,
    isMountedCifsTarget T config.mountPoint (procMounts mounts) (config.query anyServer)
      = (topmost mounts config.mountPoint).any (·.identified T (config.query anyServer))
  made : ∀ m, topmost mounts config.mountPoint = some m → MadeFor T config m →
    mountDecision T config (procMounts mounts) = .already ∧ ∀ anyServer,
      unmountDecision T config.mountPoint (procMounts mounts) (config.query anyServer) = .unmount
  foreign : ∀ m, topmost mounts config.mountPoint = some m →
    (m.identified T (config.query config.readOnly) = false →
      mountDecision T config (procMounts mounts) = .refused) ∧ ∀ anyServer,
        m.identified T (config.query anyServer) = false →
          unmountDecision T config.mountPoint (procMounts mounts) (config.query anyServer) = .refused

/-- The lowest and the topmost mount at the mount point are alike, and a topmost mount that was made
for the configuration bears the names that it spells. -/
structure Agreed : Prop where
  writable : (lowest mounts config.mountPoint).any (·.writable)
    = (topmost mounts config.mountPoint).any (·.writable)
  identity : ∀ anyServer,
    (lowest mounts config.mountPoint).any (·.identified T (config.query anyServer))
      = (topmost mounts config.mountPoint).any (·.identified T (config.query anyServer))
  made : ∀ m, topmost mounts config.mountPoint = some m → MadeFor T config m → config.Spelled

variable {T config mounts}

theorem isSome_topmost (target : String) :
    (topmost mounts target).isSome = mounts.any (·.isAt target) := by
  rw [topmost, Bool.eq_iff_iff, List.find?_isSome, List.any_eq_true]
  simp only [List.mem_reverse]

/-- The decisions, from what the readers answer. -/
theorem decisions {m : MountEntry} (hmounted : isMounted config.mountPoint (procMounts mounts)
      = (topmost mounts config.mountPoint).isSome)
    (hidentity : ∀ anyServer,
      isMountedCifsTarget T config.mountPoint (procMounts mounts) (config.query anyServer)
        = (topmost mounts config.mountPoint).any (·.identified T (config.query anyServer)))
    (htop : topmost mounts config.mountPoint = some m) :
    mountDecision T config (procMounts mounts)
      = (if m.identified T (config.query config.readOnly) then .already else .refused) ∧
    ∀ anyServer, unmountDecision T config.mountPoint (procMounts mounts) (config.query anyServer)
      = if m.identified T (config.query anyServer) then .unmount else .refused := by
  rw [htop] at hmounted hidentity
  refine ⟨?_, fun anyServer => ?_⟩
  · rw [mountDecision, hmounted, hidentity]
    rfl
  · rw [unmountDecision, hmounted, hidentity]
    show (if (!m.identified T (config.query anyServer)) = true then UnmountDecision.refused
      else .unmount) = _
    cases m.identified T (config.query anyServer) <;> rfl

end Topmost

/-- The tables for ASCII and for the German alphabet. -/
def germanTables : NameTables where
  toCaseFolding := CaseFolding.german
  lower := fun text => text.map Char.toLower

/-- A share that is mounted read-only, with a path below it. -/
def romShare (remotePath : String) : MountConfig where
  server := "nas".toList
  share := "games".toList
  mountPoint := "/userdata/roms"
  readOnly := true
  remotePath := remotePath.toList

/-- The mount that is made for it. -/
def romMount (remotePath : String) : MountEntry where
  source := "//nas/games/".toList ++ remotePath.toList
  target := "/userdata/roms".toList
  fstype := "cifs".toList
  options := ["ro".toList, "relatime".toList]

/-- Another file system over it. -/
def scratchMount : MountEntry where
  source := "tmpfs".toList
  target := "/userdata/roms".toList
  fstype := "tmpfs".toList
  options := ["rw".toList]

end RomCloud.Mount
