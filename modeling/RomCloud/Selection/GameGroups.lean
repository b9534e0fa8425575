import RomCloud.Selection.Grouping

namespace RomCloud.Selection

open Lib

/-!
# The files of one game and their conflict group

A game `s` has a save file, state files and, on the N64, the files of its controller slots.

* `GameFile` — these files, `markerIndex_append` — where `_root_stem` cuts their names;
* `trimSlot_append_slot`, `trimSlot_append_plain` — what the slot number at the end of a key is;
* `KeepsTogether` — the names whose files have one key, and `game_groups_iff` — that these are the
  games whose files are one group, the one the name of the ROM stands for.
-/

/-! ### The files of a game -/

/-- A file of a game; the number of a slot is a text of digits. -/
inductive GameFile
  | save
  | state
  | slot (digits : List Char)
  | auto
  | controller (digits ending : List Char)

/-- The name of a file of the game `s`. -/
def GameFile.name (s : List Char) : GameFile → List Char
  | .save => s ++ ".srm".toList
  | .state => s ++ ".state".toList
  | .slot digits => s ++ (".state".toList ++ digits)
  | .auto => s ++ ".state.auto".toList
  | .controller digits ending => s ++ '.' :: digits ++ '.' :: ending

/-- A slot number. -/
structure SlotNumber (digits : List Char) : Prop where
  nonempty : digits ≠ []
  digit : ∀ c ∈ digits, c.isDigit = true

/-- The ending of a save: one suffix, and not that of a state of another emulator. -/
structure SaveEnding (C : CaseFolding) (ending : List Char) : Prop where
  nonempty : ending ≠ []
  plain : '.' ∉ ending ∧ '/' ∉ ending
  noState : ¬ "savestat".toList <+: C.casefold ending

/-- The files that a layout keeps of a game, with the endings of its controller slots. -/
def GameFile.Kept (layout : SaveLayout) (endings : List (List Char)) : GameFile → Prop
  | .slot digits => SlotNumber digits
  | .controller digits ending => layout.groupBy = .n64Title ∧ SlotNumber digits ∧ ending ∈ endings
  | _ => True

section Keys

variable {C : CaseFolding} {s : List Char}

/-! ### Where a name is cut -/

/-- A state marker in a name, or else at its ending. -/
theorem markerIndex_append {rest : List Char}
    (hsavestat : find ".savestat".toList ('.' :: rest) = none) (hs : s ≠ []) :
    markerIndex (s ++ '.' :: rest)
      = (markerIndex s).or (if ".state".toList <+: s then none
          else (find ".state".toList ('.' :: rest)).map (· + s.length)) := by
  have hfirst : find ".savestat".toList (s ++ '.' :: rest) = find ".savestat".toList s := by
    have happend := @find_append "savestat".toList rest (by decide) s
    have hmarker : '.' :: "savestat".toList = ".savestat".toList := by decide
    rw [hmarker, hsavestat, Option.map_none, Option.or_none] at happend
    exact happend
  have hsecond : find ".state".toList (s ++ '.' :: rest) = (find ".state".toList s).or
      ((find ".state".toList ('.' :: rest)).map (· + s.length)) := by
    have happend := @find_append "state".toList rest (by decide) s
    have hmarker : '.' :: "state".toList = ".state".toList := by decide
    rwa [hmarker] at happend
  have hpos : 0 < s.length := List.length_pos_iff.mpr hs
  rw [markerIndex, hfirst, hsecond, markerIndex, Option.or_assoc]
  congr 1
  cases hfind : find ".state".toList s with
  | none =>
    have hbegins : ¬ ".state".toList <+: s := by
      intro h
      rw [find_eq_zero_iff.mpr h] at hfind
      cases hfind
    rw [Option.none_or, Option.filter_none, Option.none_or, if_neg hbegins]
    cases find ".state".toList ('.' :: rest) with
    | none => rfl
    | some k =>
      rw [Option.map_some, Option.filter_some, if_pos (by simp; omega)]
  | some k =>
    rw [Option.some_or]
    cases k with
    | zero =>
      rw [if_pos (find_eq_zero_iff.mp hfind), Option.or_none]
    | succ k =>
      rw [Option.filter_some, if_pos (by simp), Option.some_or]

theorem casefold_dot (text : List Char) : C.casefold ('.' :: text) = '.' :: C.casefold text := by
  rw [CaseFolding.casefold_cons, C.ascii '.' (by decide)]
  rfl

/-- Lower case ASCII is folded to itself. -/
theorem casefold_lower {text : List Char} (h : ∀ c ∈ text, c.toNat < 128 ∧ c.toLower = c) :
    C.casefold text = text := by
  rw [C.casefold_ascii fun c hc => (h c hc).1]
  conv_rhs => rw [← List.map_id text]
  exact List.map_congr_left fun c hc => (h c hc).2

/-- The root stem of a name, by the name without its last part. -/
theorem rootStem_append {base ending : List Char} (hbase : base ≠ [])
    (hsavestat : find ".savestat".toList ('.' :: C.casefold ending) = none) :
    rootStem C (base ++ '.' :: ending) =
      (((markerIndex (C.casefold base)).or (if ".state".toList <+: C.casefold base then none
          else (find ".state".toList ('.' :: C.casefold ending)).map
            (· + (C.casefold base).length))).map
        fun index => C.casefold ((base ++ '.' :: ending).take index)).getD
        (C.casefold (stem (base ++ '.' :: ending))) := by
  rw [rootStem, CaseFolding.casefold_append, casefold_dot,
    markerIndex_append hsavestat (C.casefold_ne_nil hbase)]
  set index := (markerIndex (C.casefold base)).or (if ".state".toList <+: C.casefold base then none
    else (find ".state".toList ('.' :: C.casefold ending)).map (· + (C.casefold base).length))
  cases index with
  | none => rw [Option.map_none, Option.getD_none]
  | some index => rw [Option.map_some, Option.getD_some]

/-! ### Slot numbers -/

theorem SlotNumber.isDecimal {digits : List Char} (h : SlotNumber digits) :
    ∀ c ∈ digits, C.isDecimal c = true := by
  intro c hc
  have hdigit := h.digit c hc
  rw [C.isDecimal_ascii c, hdigit]
  have hle : c.toNat ≤ '9'.toNat := by
    rw [Char.isDigit, Bool.and_eq_true] at hdigit
    exact of_decide_eq_true hdigit.2
  exact lt_of_le_of_lt hle (by decide)

/-- A slot number is no part of the key. -/
theorem trimSlot_append_slot {digits : List Char} (h : SlotNumber digits) (text : List Char) :
    trimSlot C (text ++ '.' :: digits) = text := by
  have hreverse : (text ++ '.' :: digits).reverse = digits.reverse ++ '.' :: text.reverse := by
    simp
  have hdecimal : ∀ c ∈ digits.reverse, C.isDecimal c = true :=
    fun c hc => h.isDecimal c (List.mem_reverse.mp hc)
  have hdot : C.isDecimal '.' = false := C.isDecimal_ascii '.' (by decide)
  obtain ⟨e, es, he⟩ := List.exists_cons_of_ne_nil (List.reverse_ne_nil_iff.mpr h.nonempty)
  have htrim : trimReversed C (digits.reverse ++ '.' :: text.reverse) = text.reverse := by
    rw [trimReversed, List.takeWhile_append_of_pos hdecimal, List.dropWhile_append_of_pos hdecimal,
      List.takeWhile_cons_of_neg (by simp [hdot]), List.dropWhile_cons_of_neg (by simp [hdot]), he]
    rfl
  have hnewline : e ≠ '\n' := by
    rintro rfl
    have hdigit := h.digit '\n' (List.mem_reverse.mp (he ▸ List.mem_cons_self))
    exact absurd hdigit (by decide)
  rw [trimSlot, hreverse]
  split
  · next body hbody =>
    rw [he, List.cons_append] at hbody
    exact absurd (List.cons.inj hbody).1 hnewline
  · rw [htrim, List.reverse_reverse]

/-- A key that ends in neither a digit nor a newline ends in no slot number. -/
theorem trimSlot_append_plain {c : Char} (text : List Char) (hdecimal : C.isDecimal c = false)
    (hnewline : c ≠ '\n') : trimSlot C (text ++ [c]) = text ++ [c] := by
  have htrim : trimReversed C (c :: text.reverse) = c :: text.reverse := by
    rw [trimReversed, List.takeWhile_cons_of_neg (by simp [hdecimal])]
  rw [trimSlot, List.reverse_append, List.reverse_singleton, List.singleton_append]
  split
  · next body hbody => exact absurd (List.cons.inj hbody).1 hnewline
  · rw [htrim, List.reverse_cons, List.reverse_reverse]

theorem length_trimReversed_le (text : List Char) :
    (trimReversed C text).length ≤ text.length := by
  rw [trimReversed]
  split
  · next front hsplit =>
    have hle := List.length_dropWhile_le C.isDecimal text
    rw [(Prod.mk.inj hsplit).2, List.length_cons] at hle
    omega
  · exact le_rfl

theorem length_trimSlot_le (text : List Char) : (trimSlot C text).length ≤ text.length := by
  rw [trimSlot]
  split
  · next body hbody =>
    have hle := length_trimReversed_le (C := C) body
    have hlength : text.length = body.length + 1 := by
      rw [← List.length_reverse, hbody, List.length_cons]
    rw [List.length_append, List.length_reverse, List.length_singleton]
    omega
  · rw [List.length_reverse, ← text.length_reverse]
    exact length_trimReversed_le _

/-! ### Endings -/

/-- Only the upper case letters change, and to letters. -/
theorem toLower_cases (c : Char) :
    c.toLower = c ∨ ('A'.toNat ≤ c.toNat ∧ 'a'.toNat ≤ c.toLower.toNat) := by
  by_cases hupper : c.val ≥ 'A'.val ∧ c.val ≤ 'Z'.val
  · right
    have hlow : 'A'.toNat ≤ c.val.toNat := hupper.1
    have hhigh : c.val.toNat ≤ 'Z'.toNat := hupper.2
    have hval : c.toLower.val = c.val + 32 := congrArg Char.val (dif_pos hupper)
    refine ⟨hlow, ?_⟩
    show 'a'.toNat ≤ c.toLower.val.toNat
    rw [hval, UInt32.toNat_add]
    simp at hlow hhigh ⊢
    omega
  · exact Or.inl (dif_neg hupper)

theorem dot_notMem_casefold {text : List Char} (h : '.' ∉ text) : '.' ∉ C.casefold text := by
  intro hmem
  obtain ⟨c, hc, hfold⟩ := List.mem_flatMap.mp hmem
  by_cases hascii : c.toNat < 128
  · rw [C.ascii c hascii, List.mem_singleton] at hfold
    rcases toLower_cases c with heq | ⟨-, hletter⟩
    · exact h (hfold.trans heq ▸ hc)
    · rw [← hfold] at hletter
      exact absurd hletter (by decide)
  · have hletter := C.foreign c (by omega) '.' hfold (by decide)
    exact absurd hletter (by decide)

/-- A marker at the front of an ending without further dots. -/
theorem find_dot {word rest : List Char} (hrest : '.' ∉ rest) :
    find ('.' :: word) ('.' :: rest) = if word <+: rest then some 0 else none := by
  rw [find, find_eq_none_of_notMem hrest]
  simp [List.isPrefixOf_iff_prefix]

theorem SlotNumber.casefold {digits : List Char} (h : SlotNumber digits) :
    C.casefold digits = digits := by
  apply casefold_lower
  intro c hc
  obtain ⟨hlow, hhigh⟩ := Char.isDigit_iff_toNat.mp (h.digit c hc)
  have hnine : '9'.toNat = 57 := rfl
  have hletter : 'A'.toNat = 65 := rfl
  refine ⟨by omega, (toLower_cases c).resolve_right ?_⟩
  rintro ⟨hupper, -⟩
  omega

theorem SlotNumber.dot_notMem {digits : List Char} (h : SlotNumber digits) : '.' ∉ digits :=
  fun hdot => absurd (h.digit '.' hdot) (by decide)

/-- What a file appends to the name of its game, behind the dot. -/
def GameFile.rest : GameFile → List Char
  | .save => ['s', 'r', 'm']
  | .state => ['s', 't', 'a', 't', 'e']
  | .slot digits => ['s', 't', 'a', 't', 'e'] ++ digits
  | .auto => ['s', 't', 'a', 't', 'e', '.', 'a', 'u', 't', 'o']
  | .controller digits ending => digits ++ '.' :: ending

theorem GameFile.name_eq (file : GameFile) : file.name s = s ++ '.' :: file.rest := by
  have hsave : ".srm".toList = '.' :: GameFile.save.rest := by decide
  have hstate : ".state".toList = '.' :: GameFile.state.rest := by decide
  have hauto : ".state.auto".toList = '.' :: GameFile.auto.rest := by decide
  cases file with
  | save => exact congrArg (s ++ ·) hsave
  | state => exact congrArg (s ++ ·) hstate
  | slot digits => exact congrArg (fun marker => s ++ (marker ++ digits)) hstate
  | auto => exact congrArg (s ++ ·) hauto
  | controller digits ending => exact List.append_assoc _ _ _

/-- No file of a game is a state of RPCS3 by what it appends. -/
theorem GameFile.find_savestat {layout : SaveLayout} {endings : List (List Char)}
    (hendings : ∀ ending ∈ endings, SaveEnding C ending) {file : GameFile}
    (hkept : file.Kept layout endings) :
    find ".savestat".toList ('.' :: C.casefold file.rest) = none := by
  have hlower : ∀ {text : List Char}, (∀ c ∈ text, c.toNat < 128 ∧ c.toLower = c) →
      find ".savestat".toList ('.' :: text) = none →
      find ".savestat".toList ('.' :: C.casefold text) = none := by
    intro text htext hfind
    rwa [casefold_lower htext]
  have hmarker : ".savestat".toList = '.' :: "savestat".toList := by decide
  cases file with
  | save => exact hlower (by simp [GameFile.rest]) (by decide)
  | state => exact hlower (by simp [GameFile.rest]) (by decide)
  | auto => exact hlower (by simp [GameFile.rest]) (by decide)
  | slot digits =>
    have hdigits : SlotNumber digits := hkept
    have hdot : '.' ∉ ['s', 't', 'a', 't', 'e'] ++ digits := by
      simp [hdigits.dot_notMem]
    rw [GameFile.rest, C.casefold_append, hdigits.casefold, casefold_lower (by simp), hmarker,
      find_dot hdot, if_neg (by simp)]
  | controller digits ending =>
    obtain ⟨-, hdigits, hmem⟩ := hkept
    have hending := hendings ending hmem
    have hfind := @find_append "savestat".toList (C.casefold ending) (by decide) ('.' :: digits)
    rw [find_dot hdigits.dot_notMem, find_dot (dot_notMem_casefold hending.plain.1),
      if_neg hending.noState] at hfind
    have hplain : ¬ "savestat".toList <+: digits :=
      fun hbegins => absurd (hdigits.digit 's' (hbegins.subset (by decide))) (by decide)
    rw [GameFile.rest, C.casefold_append, casefold_dot, hdigits.casefold, hmarker,
      ← List.cons_append, hfind, if_neg hplain]
    rfl

/-! ### The keys of the files -/

/-- What a layout takes off the end of a key. -/
def trimOf (C : CaseFolding) (layout : SaveLayout) (key : List Char) : List Char :=
  if layout.groupBy = .n64Title then trimSlot C key else key

theorem length_trimOf_le (layout : SaveLayout) (key : List Char) :
    (trimOf C layout key).length ≤ key.length := by
  unfold trimOf
  split
  · exact length_trimSlot_le key
  · exact le_rfl

theorem trimOf_append_plain {c : Char} (layout : SaveLayout) (key : List Char)
    (hdecimal : C.isDecimal c = false) (hnewline : c ≠ '\n') :
    trimOf C layout (key ++ [c]) = key ++ [c] := by
  unfold trimOf
  split
  · exact trimSlot_append_plain key hdecimal hnewline
  · rfl

/-- A name that is cut in its ending has a key of its own. -/
theorem trimOf_append_ne {ending : List Char} (layout : SaveLayout) (key : List Char)
    (hending : ending ≠ []) (hdecimal : ∀ c ∈ ending, C.isDecimal c = false ∧ c ≠ '\n') :
    trimOf C layout (key ++ ending) ≠ trimOf C layout key := by
  intro heq
  have hle := length_trimOf_le (C := C) layout key
  have hpos : 0 < ending.length := List.length_pos_iff.mpr hending
  obtain ⟨hplain, hnewline⟩ := hdecimal _ (List.getLast_mem hending)
  rw [← List.dropLast_append_getLast hending, ← List.append_assoc,
    trimOf_append_plain layout _ hplain hnewline, List.append_assoc,
    List.dropLast_append_getLast hending] at heq
  rw [← heq, List.length_append] at hle
  omega

/-- The key of a file of the game, by what is left of its name. -/
def keyOf (C : CaseFolding) (layout : SaveLayout) (s : List Char) (file : GameFile) : List Char :=
  trimOf C layout (rootStem C (file.name s))

variable {layout : SaveLayout} {endings : List (List Char)}

/-- Behind a marker in the name of the game nothing is left of its files. -/
theorem keyOf_of_marker (hs : s ≠ []) (hendings : ∀ ending ∈ endings, SaveEnding C ending)
    {file : GameFile} (hkept : file.Kept layout endings) {k : ℕ}
    (hk : markerIndex (C.casefold s) = some k) :
    keyOf C layout s file = trimOf C layout (C.casefold ((file.name s).take k)) := by
  rw [keyOf, file.name_eq, rootStem_append hs (file.find_savestat hendings hkept), hk]
  rfl

/-- The key of a file whose ending has no state marker. -/
theorem rootStem_of_plain {base ending : List Char} (hbase : base ≠ [])
    (hsavestat : find ".savestat".toList ('.' :: C.casefold ending) = none)
    (hplain : find ".state".toList ('.' :: C.casefold ending) = none)
    (hnone : markerIndex (C.casefold base) = none) :
    rootStem C (base ++ '.' :: ending) = C.casefold (stem (base ++ '.' :: ending)) := by
  rw [rootStem_append hbase hsavestat, hplain, hnone, Option.map_none, ite_self]
  rfl

/-- The key of a file whose ending is a state marker, where the folded name ends. -/
theorem rootStem_of_state {base ending : List Char} (hbase : base ≠ [])
    (hsavestat : find ".savestat".toList ('.' :: C.casefold ending) = none)
    (hstate : find ".state".toList ('.' :: C.casefold ending) = some 0)
    (hnone : markerIndex (C.casefold base) = none)
    (hfront : ¬ ".state".toList <+: C.casefold base) :
    rootStem C (base ++ '.' :: ending)
      = C.casefold ((base ++ '.' :: ending).take (C.casefold base).length) := by
  rw [rootStem_append hbase hsavestat, hstate, hnone, if_neg hfront, Option.map_some, Nat.zero_add]
  rfl

/-- A name that begins with a state marker hides those behind it. -/
theorem rootStem_of_front {base ending : List Char} (hbase : base ≠ [])
    (hsavestat : find ".savestat".toList ('.' :: C.casefold ending) = none)
    (hnone : markerIndex (C.casefold base) = none) (hfront : ".state".toList <+: C.casefold base) :
    rootStem C (base ++ '.' :: ending) = C.casefold (stem (base ++ '.' :: ending)) := by
  rw [rootStem_append hbase hsavestat, hnone, if_pos hfront]
  rfl

theorem keyOf_save (hs : s ≠ []) (hnone : markerIndex (C.casefold s) = none) :
    keyOf C layout s .save = trimOf C layout (C.casefold s) := by
  have hfold : C.casefold GameFile.save.rest = GameFile.save.rest :=
    casefold_lower (by simp [GameFile.rest])
  rw [keyOf, GameFile.name_eq, rootStem_of_plain hs (by rw [hfold]; decide) (by rw [hfold]; decide)
    hnone, stem_append hs (by simp [GameFile.rest]) (by simp [GameFile.rest])]

/-- A state file, by what it appends. -/
theorem keyOf_state (hs : s ≠ []) (hendings : ∀ ending ∈ endings, SaveEnding C ending)
    {file : GameFile} (hkept : file.Kept layout endings) {more : List Char}
    (hrest : file.rest = ['s', 't', 'a', 't', 'e'] ++ more)
    (hnone : markerIndex (C.casefold s) = none) (hfront : ¬ ".state".toList <+: C.casefold s) :
    keyOf C layout s file
      = trimOf C layout (C.casefold ((file.name s).take (C.casefold s).length)) := by
  have hfold : C.casefold ['s', 't', 'a', 't', 'e'] = ['s', 't', 'a', 't', 'e'] :=
    casefold_lower (by simp)
  have hmarker : ".state".toList = '.' :: ['s', 't', 'a', 't', 'e'] := by decide
  have hfind : find ".state".toList ('.' :: C.casefold file.rest) = some 0 := by
    rw [hrest, C.casefold_append, hfold, hmarker, ← List.cons_append]
    exact find_self_append _ _
  rw [keyOf, file.name_eq, rootStem_of_state hs (file.find_savestat hendings hkept) hfind hnone
    hfront]

/-- The state that is saved by itself, of a name that begins with a state marker. -/
theorem keyOf_auto (hs : s ≠ []) (hnone : markerIndex (C.casefold s) = none)
    (hfront : ".state".toList <+: C.casefold s) :
    keyOf C layout s .auto = trimOf C layout (C.casefold s ++ ".state".toList) := by
  have hname : GameFile.auto.name s = (s ++ ".state".toList) ++ '.' :: ['a', 'u', 't', 'o'] := by
    have hauto : ".state.auto".toList = ".state".toList ++ '.' :: ['a', 'u', 't', 'o'] := by decide
    rw [List.append_assoc, ← hauto]
    rfl
  have hmarker : ".state".toList = ['.', 's', 't', 'a', 't', 'e'] := by decide
  have hfold : C.casefold ".state".toList = ".state".toList := by
    rw [hmarker]
    exact casefold_lower (by simp)
  have hrest : C.casefold GameFile.auto.rest = GameFile.auto.rest :=
    casefold_lower (by simp [GameFile.rest])
  have hstem : stem (GameFile.auto.name s) = s ++ ".state".toList := by
    rw [hname]
    exact stem_append (by simp) (by simp) (by simp)
  rw [keyOf, GameFile.name_eq, rootStem_of_front hs (by rw [hrest]; decide) hnone hfront,
    ← GameFile.name_eq, hstem, C.casefold_append, hfold]

/-- A controller slot of a name that keeps its length. -/
theorem keyOf_controller (hs : s ≠ []) {digits ending : List Char}
    (hgroup : layout.groupBy = .n64Title) (hdigits : SlotNumber digits)
    (hending : SaveEnding C ending) (hnone : markerIndex (C.casefold s) = none)
    (hlength : (C.casefold s).length = s.length) :
    keyOf C layout s (.controller digits ending) = C.casefold s := by
  have hsavestatWord : ".savestat".toList = '.' :: "savestat".toList := by decide
  have hstateWord : ".state".toList = '.' :: "state".toList := by decide
  have hdot : '.' ∉ C.casefold ending := dot_notMem_casefold hending.plain.1
  have hbase : C.casefold (s ++ '.' :: digits) = C.casefold s ++ '.' :: digits := by
    rw [C.casefold_append, casefold_dot, hdigits.casefold]
  have hbaseNe : s ++ '.' :: digits ≠ [] := by simp
  have hsavestat : find ".savestat".toList ('.' :: C.casefold ending) = none := by
    rw [hsavestatWord, find_dot hdot, if_neg hending.noState]
  have hbaseNone : markerIndex (C.casefold (s ++ '.' :: digits)) = none := by
    have hplain : ∀ word : List Char, 's' ∈ word → ¬ word <+: digits :=
      fun word hmem hbegins => absurd (hdigits.digit 's' (hbegins.subset hmem)) (by decide)
    have hnoSavestat : find ".savestat".toList ('.' :: digits) = none := by
      rw [hsavestatWord, find_dot hdigits.dot_notMem, if_neg (hplain _ (by decide))]
    have hnoState : find ".state".toList ('.' :: digits) = none := by
      rw [hstateWord, find_dot hdigits.dot_notMem, if_neg (hplain _ (by decide))]
    rw [hbase, markerIndex_append hnoSavestat (C.casefold_ne_nil hs), hnone, hnoState,
      Option.map_none, ite_self]
    rfl
  have hstem : C.casefold (stem (s ++ '.' :: digits ++ '.' :: ending))
      = C.casefold s ++ '.' :: digits := by
    rw [stem_append hbaseNe hending.nonempty hending.plain.1, hbase]
  have hkey : rootStem C (s ++ '.' :: digits ++ '.' :: ending)
      = C.casefold s ++ '.' :: digits := by
    by_cases hfront : ".state".toList <+: C.casefold (s ++ '.' :: digits)
    · rw [rootStem_of_front hbaseNe hsavestat hbaseNone hfront, hstem]
    · by_cases hstate : "state".toList <+: C.casefold ending
      · rw [rootStem_of_state hbaseNe hsavestat (by rw [hstateWord, find_dot hdot, if_pos hstate])
          hbaseNone hfront, List.take_left' (by simp [hbase, hlength]), hbase]
      · rw [rootStem_of_plain hbaseNe hsavestat (by rw [hstateWord, find_dot hdot, if_neg hstate])
          hbaseNone, hstem]
  rw [keyOf, GameFile.name, hkey, trimOf, if_pos hgroup, trimSlot_append_slot hdigits]

/-- The names whose files have one key.  Folding keeps their length, and they have no state marker
    behind their front; where folding adds characters, the name up to the marker may still fold to
    all of it. -/
def KeepsTogether (C : CaseFolding) (layout : SaveLayout) (s : List Char) : Prop :=
  layout.shared = false ∧ layout.containerAdapterId = "" ∧
  match markerIndex (C.casefold s) with
  | some k => k ≤ s.length ∧
      trimOf C layout (C.casefold (s.take k)) = trimOf C layout (C.casefold s)
  | none => (C.casefold s).length = s.length ∧ ¬ ".state".toList <+: C.casefold s ∧
      trimOf C layout (C.casefold s) = C.casefold s

/-- Every kept file of such a name has the key of the ROM. -/
theorem KeepsTogether.key (h : KeepsTogether C layout s) (hs : s ≠ [])
    (hendings : ∀ ending ∈ endings, SaveEnding C ending) {file : GameFile}
    (hkept : file.Kept layout endings) :
    keyOf C layout s file = trimOf C layout (C.casefold s) := by
  obtain ⟨-, -, h⟩ := h
  cases hindex : markerIndex (C.casefold s) with
  | some k =>
    rw [hindex] at h
    rw [keyOf_of_marker hs hendings hkept hindex, file.name_eq,
      List.take_append_of_le_length h.1, h.2]
  | none =>
    rw [hindex] at h
    obtain ⟨hlength, hfront, htrim⟩ := h
    have hstate : ∀ more, file.rest = ['s', 't', 'a', 't', 'e'] ++ more →
        keyOf C layout s file = trimOf C layout (C.casefold s) := by
      intro more hrest
      rw [keyOf_state hs hendings hkept hrest hindex hfront, file.name_eq,
        List.take_left' hlength.symm]
    match file with
    | .save => exact keyOf_save hs hindex
    | .state => exact hstate [] rfl
    | .slot digits => exact hstate digits rfl
    | .auto => exact hstate ['.', 'a', 'u', 't', 'o'] rfl
    | .controller digits ending =>
      obtain ⟨hgroup, hdigits, hmem⟩ := hkept
      rw [keyOf_controller hs hgroup hdigits (hendings ending hmem) hindex hlength, htrim]

/-- The characters of the endings `.srm` and `.state`. -/
theorem markerChar {c : Char} (hc : c ∈ ['.', 's', 'r', 'm', 't', 'a', 'e']) :
    c.toNat < 128 ∧ c.toLower = c ∧ C.isDecimal c = false ∧ c ≠ '\n' := by
  have hascii : ∀ c ∈ ['.', 's', 'r', 'm', 't', 'a', 'e'],
      c.toNat < 128 ∧ c.toLower = c ∧ c.isDigit = false ∧ c ≠ '\n' := by simp
  obtain ⟨hlt, hlower, hdigit, hnewline⟩ := hascii c hc
  exact ⟨hlt, hlower, (C.isDecimal_ascii c hlt).trans hdigit, hnewline⟩

/-- A name whose files have the key of the ROM is one of these. -/
theorem keepsTogether_of_key (hs : s ≠ []) (hendings : ∀ ending ∈ endings, SaveEnding C ending)
    (hnonempty : endings ≠ []) (hshared : layout.shared = false)
    (hadapter : layout.containerAdapterId = "")
    (h : ∀ file : GameFile, file.Kept layout endings →
      keyOf C layout s file = trimOf C layout (C.casefold s)) : KeepsTogether C layout s := by
  have hcut : ∀ {file : GameFile} {k : ℕ}, file = .save ∨ file = .state → s.length < k →
      trimOf C layout (C.casefold ((file.name s).take k)) ≠ trimOf C layout (C.casefold s) := by
    intro file k hfile hk
    obtain ⟨n, hn⟩ : ∃ n, k - s.length = n + 1 := ⟨k - s.length - 1, by omega⟩
    have hrest : ∀ c ∈ file.rest, c ∈ ['.', 's', 'r', 'm', 't', 'a', 'e'] := by
      rcases hfile with rfl | rfl <;> simp [GameFile.rest]
    have hlower : ∀ c ∈ '.' :: file.rest.take n, c.toNat < 128 ∧ c.toLower = c ∧
        C.isDecimal c = false ∧ c ≠ '\n' := by
      intro c hc
      apply markerChar
      rcases List.mem_cons.mp hc with rfl | hc
      · exact List.mem_cons_self
      · exact hrest c (List.mem_of_mem_take hc)
    rw [file.name_eq, List.take_append, List.take_of_length_le (by omega), hn,
      List.take_succ_cons, C.casefold_append,
      casefold_lower fun c hc => ⟨(hlower c hc).1, (hlower c hc).2.1⟩]
    exact trimOf_append_ne layout _ (by simp) fun c hc => (hlower c hc).2.2
  refine ⟨hshared, hadapter, ?_⟩
  cases hindex : markerIndex (C.casefold s) with
  | some k =>
    have hsave := h .save trivial
    rw [@keyOf_of_marker C s layout endings hs hendings .save trivial k hindex] at hsave
    have hk : k ≤ s.length := by
      by_contra hk
      exact hcut (Or.inl rfl) (by omega) hsave
    rw [GameFile.name_eq, List.take_append_of_le_length hk] at hsave
    exact ⟨hk, hsave⟩
  | none =>
    have hfront : ¬ ".state".toList <+: C.casefold s := by
      intro hfront
      have hauto := h .auto trivial
      rw [keyOf_auto hs hindex hfront] at hauto
      have hmarker : ∀ c ∈ ".state".toList, c ∈ ['.', 's', 'r', 'm', 't', 'a', 'e'] := by simp
      exact trimOf_append_ne layout _ (by simp)
        (fun c hc => (markerChar (hmarker c hc)).2.2) hauto
    have hlength : (C.casefold s).length = s.length := by
      have hstate := h .state trivial
      rw [@keyOf_state C s layout endings hs hendings .state trivial [] rfl hindex hfront] at hstate
      have hle := C.length_le_casefold s
      by_contra hne
      exact hcut (Or.inr rfl) (by omega) hstate
    refine ⟨hlength, hfront, ?_⟩
    by_cases hgroup : layout.groupBy = .n64Title
    · obtain ⟨ending, hending⟩ := List.exists_mem_of_ne_nil endings hnonempty
      have hdigits : SlotNumber ['1'] := ⟨by simp, by simp⟩
      have hcontroller := h (.controller ['1'] ending) ⟨hgroup, hdigits, hending⟩
      rw [keyOf_controller hs hgroup hdigits (hendings ending hending) hindex hlength]
        at hcontroller
      exact hcontroller.symm
    · rw [trimOf, if_neg hgroup]

end Keys

/-! ### The groups of the files -/

section Groups

variable {C : CaseFolding} {layouts : List SaveLayout} {layout : SaveLayout} {s : List Char}
  {endings : List (List Char)} {place : GameFile → String}

/-- The path of a file of the game, in its directory. -/
def GameFile.path (s : List Char) (place : GameFile → String) (file : GameFile) : String :=
  place file ++ "/" ++ String.ofList (file.name s)

/-- The files of the game are all files of the layout. -/
def AllEligible (C : CaseFolding) (layouts : List SaveLayout) (layout : SaveLayout)
    (endings : List (List Char)) (s : List Char) (place : GameFile → String) : Prop :=
  ∀ file : GameFile, file.Kept layout endings → ∃ d,
    groupForPath C layouts (file.path s place) = some d ∧ d.layoutId = layout.layoutId

/-- The files of the game are in the one group that the name of its ROM stands for. -/
def OneGroup (C : CaseFolding) (layouts : List SaveLayout) (layout : SaveLayout)
    (endings : List (List Char)) (s : List Char) (place : GameFile → String) : Prop :=
  ∀ file : GameFile, file.Kept layout endings →
    ∀ d, groupForPath C layouts (file.path s place) = some d →
    ∀ ending : List Char, ending ≠ [] → '.' ∉ ending → '/' ∉ ending →
      groupIdForRom C layouts layout.layoutId (String.ofList (s ++ '.' :: ending)) = some d.groupId

theorem GameFile.name_plain (hs : s ≠ []) (hslash : '/' ∉ s)
    (hendings : ∀ ending ∈ endings, SaveEnding C ending) (file : GameFile)
    (hkept : file.Kept layout endings) : '/' ∉ file.name s ∧ 1 < (file.name s).length := by
  have hrest : '/' ∉ file.rest := by
    have hnumber : ∀ {digits}, SlotNumber digits → '/' ∉ digits :=
      fun h hmem => absurd (h.digit '/' hmem) (by decide)
    match file with
    | .save => simp [GameFile.rest]
    | .state => simp [GameFile.rest]
    | .slot digits => simp [GameFile.rest, hnumber hkept]
    | .auto => simp [GameFile.rest]
    | .controller digits ending =>
      simp [GameFile.rest, hnumber hkept.2.1, (hendings ending hkept.2.2).plain.2]
  have hpos : 0 < s.length := List.length_pos_iff.mpr hs
  rw [file.name_eq, List.length_append, List.length_cons]
  exact ⟨by simp [hslash, hrest], by omega⟩

/-- A name that is no path. -/
theorem posixParts_ofList {name : List Char} (hslash : '/' ∉ name) (hlength : 1 < name.length) :
    posixParts (String.ofList name) = [String.ofList name] := by
  apply posixParts_name
  · rwa [String.toList_ofList]
  · intro hempty
    obtain rfl : name = [] := by simpa using congrArg String.toList hempty
    exact absurd hlength (by decide)
  · intro hdot
    obtain rfl : name = ['.'] := by simpa using congrArg String.toList hdot
    exact absurd hlength (by decide)

/-- The group of a file is that of its key. -/
theorem groupId_of_file (hnodup : (layouts.map SaveLayout.layoutId).Nodup)
    (hlayout : layout ∈ layouts) (hgroup : layout.groupBy = .rootStem ∨ layout.groupBy = .n64Title)
    {file : GameFile} (hslash : '/' ∉ file.name s) (hplain : 1 < (file.name s).length)
    {d : SaveGroupDescriptor} (h : groupForPath C layouts (file.path s place) = some d)
    (hd : d.layoutId = layout.layoutId) :
    d.groupId = layout.layoutId ++ "/" ++ String.ofList (keyOf C layout s file) := by
  obtain ⟨found, hfound, relativePath, root, remainder, hpath, -, hmatched, rfl⟩ :=
    groupForPath_spec h
  obtain rfl : found = layout := List.inj_on_of_nodup_map hnodup hfound hlayout hd
  have hname := posixParts_ofList hslash hplain
  have hlast : remainder.getLastD "" = String.ofList (file.name s) := by
    have hparts := congrArg posixParts hpath
    rw [GameFile.path, posixParts_append, posixParts_append, hmatched.parts, hname] at hparts
    have hlast := congrArg List.getLast? hparts
    rw [List.getLast?_append_of_ne_nil _ (by simp), ← List.append_assoc,
      List.getLast?_append_of_ne_nil _ hmatched.below] at hlast
    rw [List.getLastD_eq_getLast?, ← hlast]
    rfl
  show found.layoutId ++ "/" ++ groupKey C found root remainder = _
  rw [groupKey, hlast, keyOf, trimOf]
  rcases hgroup with hgroup | hgroup <;> simp [hgroup]

/-- The group that the name of a ROM stands for. -/
theorem groupIdForRom_eq (hnodup : (layouts.map SaveLayout.layoutId).Nodup)
    (hlayout : layout ∈ layouts) (hgroup : layout.groupBy = .rootStem ∨ layout.groupBy = .n64Title)
    (hs : s ≠ []) (hslash : '/' ∉ s) {ending : List Char} (hending : ending ≠ [])
    (hdot : '.' ∉ ending) (hplain : '/' ∉ ending) :
    groupIdForRom C layouts layout.layoutId (String.ofList (s ++ '.' :: ending))
      = if layout.shared || layout.containerAdapterId ≠ "" then none
        else some (layout.layoutId ++ "/" ++ String.ofList (trimOf C layout (C.casefold s))) := by
  have hfind : layouts.find? (fun other => other.layoutId = layout.layoutId) = some layout := by
    cases hfound : layouts.find? (fun other => other.layoutId = layout.layoutId) with
    | none => simpa using List.find?_eq_none.mp hfound layout hlayout
    | some found =>
      have hid : found.layoutId = layout.layoutId := by simpa using List.find?_some hfound
      rw [List.inj_on_of_nodup_map hnodup (List.mem_of_find?_eq_some hfound) hlayout hid]
  have hname : posixParts (String.ofList (s ++ '.' :: ending))
      = [String.ofList (s ++ '.' :: ending)] := by
    have hpos : 0 < s.length := List.length_pos_iff.mpr hs
    apply posixParts_ofList
    · simp [hslash, hplain]
    · rw [List.length_append, List.length_cons]
      omega
  rw [groupIdForRom, hfind, hname]
  dsimp only
  rw [List.getLastD_eq_getLast?, List.getLast?_singleton, Option.getD_some, String.toList_ofList,
    stem_append hs hending hdot, trimOf]
  rcases hgroup with hgroup | hgroup <;> simp [hgroup]

/-- **The files of one game.** All files of a game have the group that the name of its ROM stands
    for exactly when its name is one that keeps them together. -/
theorem game_groups_iff (hnodup : (layouts.map SaveLayout.layoutId).Nodup)
    (hlayout : layout ∈ layouts) (hgroup : layout.groupBy = .rootStem ∨ layout.groupBy = .n64Title)
    (hs : s ≠ []) (hslash : '/' ∉ s) (hendings : ∀ ending ∈ endings, SaveEnding C ending)
    (hnonempty : endings ≠ []) (heligible : AllEligible C layouts layout endings s place) :
    OneGroup C layouts layout endings s place ↔ KeepsTogether C layout s := by
  have hid : ∀ {file : GameFile}, file.Kept layout endings → ∀ {d},
      groupForPath C layouts (file.path s place) = some d →
      d.groupId = layout.layoutId ++ "/" ++ String.ofList (keyOf C layout s file) := by
    intro file hkept d hd
    obtain ⟨e, he, hlayoutId⟩ := heligible file hkept
    obtain rfl : d = e := Option.some.inj (hd.symm.trans he)
    obtain ⟨hname, hlength⟩ := file.name_plain hs hslash hendings hkept
    exact groupId_of_file hnodup hlayout hgroup hname hlength hd hlayoutId
  constructor
  · intro h
    have hrom : ∀ {file : GameFile}, file.Kept layout endings →
        (layout.shared || layout.containerAdapterId ≠ "") = false ∧
        keyOf C layout s file = trimOf C layout (C.casefold s) := by
      intro file hkept
      obtain ⟨d, hd, -⟩ := heligible file hkept
      have heq := h file hkept d hd ['r'] (by simp) (by simp) (by simp)
      rw [groupIdForRom_eq hnodup hlayout hgroup hs hslash (by simp) (by simp) (by simp),
        hid hkept hd] at heq
      split at heq
      · cases heq
      · next hplain =>
        rw [Option.some_inj, String.append_right_inj, String.ofList_inj] at heq
        exact ⟨by simpa using hplain, heq.symm⟩
    obtain ⟨hplain, -⟩ := @hrom .save trivial
    rw [Bool.or_eq_false_iff, decide_eq_false_iff_not, not_not] at hplain
    exact keepsTogether_of_key hs hendings hnonempty hplain.1 hplain.2
      fun file hkept => (hrom hkept).2
  · intro h file hkept d hd ending hending hdot hplain
    rw [groupIdForRom_eq hnodup hlayout hgroup hs hslash hending hdot hplain, hid hkept hd,
      h.key hs hendings hkept, if_neg (by simp [h.1, h.2.1])]

/-! ### Games of RetroArch -/

/-- A plain name, alone and in the directory of a system. -/
theorem isCanonical_name {name : List Char} (hslash : '/' ∉ name) (hback : '\\' ∉ name)
    (hlength : 2 < name.length) :
    isCanonical (String.ofList name) = true ∧
      isCanonical ("snes" ++ "/" ++ String.ofList name) = true := by
  have hparts := posixParts_ofList hslash (by omega)
  have hsystem : posixParts ("snes" ++ "/" ++ String.ofList name)
      = ["snes", String.ofList name] := by
    rw [posixParts_append, hparts]
    rfl
  have hne : name ≠ [] := by
    rintro rfl
    exact absurd hlength (by decide)
  have hlast : name.getLast? ≠ some '/' :=
    fun h => hslash (List.mem_of_getLast? h)
  have hhead : name.head? ≠ some '/' :=
    fun h => hslash (List.mem_of_mem_head? h)
  have hdots : String.ofList name ≠ "." ∧ String.ofList name ≠ ".." := by
    constructor <;>
    · intro heq
      have hdot := congrArg String.toList heq
      rw [String.toList_ofList] at hdot
      rw [hdot] at hlength
      exact absurd hlength (by decide)
  constructor
  · have hposix : asPosix (String.ofList name) = String.ofList name := by
      rw [asPosix, hparts, if_neg (by simp), String.intercalate_singleton]
    simp [isCanonical, hposix, hparts, hne, hback, hhead, hlast, hdots]
  · have hposix : asPosix ("snes" ++ "/" ++ String.ofList name)
        = "snes" ++ "/" ++ String.ofList name := by
      rw [asPosix, hsystem, if_neg (by simp)]
      simp
    have hpath : ("snes" ++ "/" ++ String.ofList name).toList
        = ['s', 'n', 'e', 's', '/'] ++ name := by
      simp [String.toList_append]
    rw [isCanonical, hposix, hsystem, hpath, List.getLast?_append_of_ne_nil _ hne]
    simp [hback, hlast, hdots]

/-- A layout of RetroArch's saves. -/
def snesLayout : SaveLayout :=
  { layoutId := "retroarch-root-snes", system := "snes", recursive := true }

/-- It takes every plain name. -/
theorem matchLayout_snes {name : List Char} (hslash : '/' ∉ name) (hback : '\\' ∉ name)
    (hlength : 2 < name.length) :
    matchLayout snesLayout (String.ofList name) = some ([], [String.ofList name]) := by
  obtain ⟨hcanonical, -⟩ := isCanonical_name hslash hback hlength
  have hparts := posixParts_ofList hslash (by omega)
  have hroots : segments snesLayout.rootPattern = [] := by decide
  have heligible : ∀ path : String, matchPattern path "*" = true := by
    intro path
    rw [matchPattern, fnmatch]
    show globMatch [.star] path.toList = true
    rw [globMatch, List.any_eq_true]
    exact ⟨[], (List.mem_tails _ _).mpr (List.nil_suffix), rfl⟩
  rw [matchLayout, hcanonical, hparts, hroots]
  simp [snesLayout, heligible]

end Groups

/-- It groups every plain name, where it is the only layout of its system. -/
theorem groupForPath_snes {C : CaseFolding} {layouts : List SaveLayout} {name : List Char}
    (hlayout : snesLayout ∈ layouts)
    (honly : ∀ other ∈ layouts, other.system = snesLayout.system → other = snesLayout)
    (hslash : '/' ∉ name) (hback : '\\' ∉ name) (hlength : 2 < name.length) :
    groupForPath C layouts ("snes" ++ "/" ++ String.ofList name)
      = some (descriptor C snesLayout ("snes" ++ "/" ++ String.ofList name) []
          [String.ofList name]) :=
  @groupForPath_of_only C layouts snesLayout (String.ofList name) [] [String.ofList name]
    hlayout (by decide) (isCanonical_name hslash hback hlength).2
    (matchLayout_snes hslash hback hlength)
    fun other hother hsystem => Or.inl (honly other hother hsystem)

/-- The files of a game with a plain name are in the group of its ROM. -/
theorem zelda_together :
    OneGroup .german [snesLayout] snesLayout [['s', 'a', 'v']] "zelda".toList fun _ => "snes" := by
  have hs : "zelda".toList ≠ [] := by decide
  have hslash : '/' ∉ "zelda".toList := by decide
  have hendings : ∀ ending ∈ [['s', 'a', 'v']], SaveEnding .german ending := by
    intro ending hending
    obtain rfl := List.mem_singleton.mp hending
    exact ⟨by decide, by decide, by decide⟩
  have heligible : AllEligible .german [snesLayout] snesLayout [['s', 'a', 'v']] "zelda".toList
      fun _ => "snes" := by
    intro file hkept
    obtain ⟨hname, -⟩ := file.name_plain hs hslash hendings hkept
    have hrest : '\\' ∉ file.rest := by
      match file with
      | .save => simp [GameFile.rest]
      | .state => simp [GameFile.rest]
      | .slot digits =>
        have hdigits : SlotNumber digits := hkept
        have hback : '\\' ∉ digits := fun hmem => absurd (hdigits.digit _ hmem) (by decide)
        simp [GameFile.rest, hback]
      | .auto => simp [GameFile.rest]
      | .controller digits ending => exact absurd hkept.1 (by decide)
    have hback : '\\' ∉ file.name "zelda".toList := by
      rw [file.name_eq]
      simp [hrest]
    have hlength : 2 < (file.name "zelda".toList).length := by
      rw [file.name_eq]
      simp
    exact ⟨_, groupForPath_snes (List.mem_singleton_self _)
      (fun _ hother _ => List.mem_singleton.mp hother) hname hback hlength, rfl⟩
  have htogether : KeepsTogether .german snesLayout "zelda".toList := by
    have hindex : markerIndex (CaseFolding.german.casefold "zelda".toList) = none := by decide
    refine ⟨rfl, rfl, ?_⟩
    rw [hindex]
    exact ⟨by decide, by decide, rfl⟩
  exact (game_groups_iff (by decide) (List.mem_singleton_self _) (Or.inl rfl) hs hslash hendings
    (by decide) heligible).mpr htogether

/-- A game whose name gets longer when it is folded has its states in another group than its
    saves. -/
theorem fussball_apart : ∃ d e,
    groupForPath .german layouts "snes/Fußball.srm" = some d ∧
    groupForPath .german layouts "snes/Fußball.state" = some e ∧
    d.layoutId = "retroarch-root-snes" ∧ e.layoutId = "retroarch-root-snes" ∧
    d.groupId ≠ e.groupId := by
  have hrow : retroarchRoot "snes" = snesLayout := by decide +kernel
  have hlayout : snesLayout ∈ layouts := by
    refine List.mem_append_left _ (List.mem_map.mpr ⟨"snes", ?_, hrow⟩)
    rw [List.mem_insertionSort, List.mem_filter]
    exact ⟨by decide +kernel, by decide +kernel⟩
  have honly : ∀ other ∈ layouts, other.system = snesLayout.system → other = snesLayout := by
    intro other hother hsystem
    rcases List.mem_append.mp hother with hretroarch | hstandalone
    · obtain ⟨system, -, rfl⟩ := List.mem_map.mp hretroarch
      rw [show system = "snes" from hsystem, hrow]
    · have hothers : ∀ other ∈ standaloneLayouts, other.system ≠ "snes" := by decide +kernel
      exact absurd hsystem (hothers other hstandalone)
  exact ⟨_, _,
    @groupForPath_snes _ _ "Fußball.srm".toList hlayout honly (by decide) (by decide) (by decide),
    @groupForPath_snes _ _ "Fußball.state".toList hlayout honly (by decide) (by decide)
      (by decide), rfl, rfl, by decide +kernel⟩

end RomCloud.Selection
