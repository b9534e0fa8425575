import RomCloud.SaveSync.SharedMetadata

namespace RomCloud.SaveSync.SharedMetadata

open RomCloud.Lib

/-!
# A malformed journal

A reader contains what is wrong with a file when it returns a document that passed the checks, or
fails with `SaveSyncError`.  Nearly every check looks at the kind of a value before it does anything
with it.  A few do not: membership in a set hashes the value, an encoding meets a lone surrogate,
a file name a null character, and `repr` or `json.dumps` a value that is nested too deep.

* `Raises` — another exception leaves a reader, with what that means for sequences and loops;
* `Content.Traps` — the file is nested too deep, or its value traps;
* `Journal.Traps`, `Journal.raises_load_iff` — the journals whose reader raises something else;
* `Journal.Validated.Valid` — what the checks of a journal make sure of;
* `Journal.resets_iff` — a journal is replaced as long as its reader fails with `SaveSyncError`.
-/

variable {I : Interpreter} {α β : Type}

/-! ### Exceptions -/

/-- An exception that is no `SaveSyncError`. -/
def Raises (x : Except LoadError α) : Prop := ∃ e, x = .error (.raised e)

@[simp] theorem raises_ok (a : α) : ¬ Raises (.ok a : Except LoadError α) := nofun

@[simp] theorem raises_saveSync (message : PyText) :
    ¬ Raises (.error (.saveSync message) : Except LoadError α) := nofun

@[simp] theorem raises_fail (message : PyText) : ¬ Raises (fail message : Except LoadError α) :=
  nofun

@[simp] theorem raises_raised (e : PyError) : Raises (.error (.raised e) : Except LoadError α) :=
  ⟨e, rfl⟩

/-- Something is raised by a first part, or by what follows it. -/
theorem raises_bind {x : Except LoadError α} {f : α → Except LoadError β} :
    Raises (x >>= f) ↔ Raises x ∨ ∃ a, x = .ok a ∧ Raises (f a) := by
  cases x with
  | error e =>
    have hbind : (Except.error e >>= f) = .error e := rfl
    rw [hbind]
    constructor
    · rintro ⟨d, hd⟩
      obtain rfl := Except.error.inj hd
      exact Or.inl ⟨d, rfl⟩
    · rintro (⟨d, hd⟩ | ⟨a, ha, -⟩)
      · obtain rfl := Except.error.inj hd
        exact ⟨d, rfl⟩
      · cases ha
  | ok a =>
    rw [ok_bind]
    constructor
    · exact fun h => Or.inr ⟨a, rfl, h⟩
    · rintro (⟨d, hd⟩ | ⟨b, hb, h⟩)
      · cases hd
      · obtain rfl := Except.ok.inj hb
        exact h

/-- A part that raises nothing. -/
theorem raises_bind_of_not {x : Except LoadError α} {f : α → Except LoadError β}
    (h : ¬ Raises x) : Raises (x >>= f) ↔ ∃ a, x = .ok a ∧ Raises (f a) := by
  rw [raises_bind]
  exact or_iff_right h

/-- What follows raises nothing. -/
theorem raises_bind_iff_left {x : Except LoadError α} {f : α → Except LoadError β}
    (h : ∀ a, ¬ Raises (f a)) : Raises (x >>= f) ↔ Raises x := by
  rw [raises_bind]
  exact or_iff_left fun ⟨a, _, ha⟩ => h a ha

theorem raises_foldlM_iff {step : β → α → Except LoadError β} {l : List α} {s : β} :
    Raises (l.foldlM step s) ↔ ∃ done x rest t, l = done ++ x :: rest
      ∧ done.foldlM step s = .ok t ∧ Raises (step t x) := by
  unfold Raises
  simp only [foldlM_eq_error_iff]
  constructor
  · rintro ⟨e, done, x, rest, t, hl, hdone, hx⟩
    exact ⟨done, x, rest, t, hl, hdone, e, hx⟩
  · rintro ⟨done, x, rest, t, hl, hdone, e, hx⟩
    exact ⟨e, done, x, rest, t, hl, hdone, hx⟩

theorem raises_mapEach_iff {f : α → Except LoadError β} {xs : List α} :
    Raises (mapEach f xs) ↔ ∃ done x rest, xs = done ++ x :: rest
      ∧ (∀ y ∈ done, ∃ b, f y = .ok b) ∧ Raises (f x) := by
  unfold Raises
  simp only [mapEach_eq_error_iff]
  constructor
  · rintro ⟨e, done, x, rest, hxs, hdone, hx⟩
    exact ⟨done, x, rest, hxs, hdone, e, hx⟩
  · rintro ⟨done, x, rest, hxs, hdone, e, hx⟩
    exact ⟨e, done, x, rest, hxs, hdone, hx⟩

/-! ### The checks of single values -/

@[simp] theorem raises_require (p : Prop) [Decidable p] (message : PyText) :
    ¬ Raises (require p (.saveSync message)) := by
  rw [require]
  split
  · exact raises_ok ()
  · exact raises_saveSync message

section Checks

variable {value : PyJson} {message : PyText}

@[simp] theorem raises_dictOr : ¬ Raises (dictOr value message) := by
  cases value <;> exact nofun

@[simp] theorem raises_listOr : ¬ Raises (listOr value message) := by
  cases value <;> exact nofun

@[simp] theorem raises_intFrom {least : ℤ} : ¬ Raises (intFrom least value message) := by
  unfold intFrom
  split
  · split
    · exact raises_fail message
    · exact raises_ok _
  · exact raises_fail message

@[simp] theorem raises_textUnless {bad : PyText → Bool} :
    ¬ Raises (textUnless bad value message) := by
  unfold textUnless
  split
  · split
    · exact raises_fail message
    · exact raises_ok _
  · exact raises_fail message

/-- A set takes no list and no dictionary. -/
theorem raises_nameIn_iff {names : List String} :
    Raises (nameIn names value message) ↔ value.unhashable = true := by
  cases value with
  | list items => exact iff_of_true ⟨_, rfl⟩ rfl
  | dict fields => exact iff_of_true ⟨_, rfl⟩ rfl
  | str t =>
    refine iff_of_false ?_ nofun
    rw [nameIn]
    split
    · exact raises_ok t
    · exact raises_fail message
  | null => exact iff_of_false (raises_fail message) nofun
  | bool b => exact iff_of_false (raises_fail message) nofun
  | int n => exact iff_of_false (raises_fail message) nofun
  | float x => exact iff_of_false (raises_fail message) nofun

theorem raises_repr_iff : Raises (I.repr value) ↔ I.reprDepth < value.depth := by
  unfold Interpreter.repr
  split
  · next h => exact iff_of_true ⟨_, rfl⟩ h
  · next h => exact iff_of_false (raises_ok _) h

theorem raises_str_iff : Raises (I.str value) ↔ I.reprDepth < value.depth := by
  cases value with
  | str t => exact iff_of_false (raises_ok t) (Nat.not_lt_zero _)
  | null => exact raises_repr_iff
  | bool b => exact raises_repr_iff
  | int n => exact raises_repr_iff
  | float x => exact raises_repr_iff
  | list items => exact raises_repr_iff
  | dict fields => exact raises_repr_iff

/-- The message shows a version that is not supported. -/
theorem raises_checkVersion_iff {before after : PyText} :
    Raises (checkVersion I value before after)
      ↔ value.isOne = false ∧ I.reprDepth < value.depth := by
  unfold checkVersion
  split
  · next h => exact iff_of_false (raises_ok ()) fun hnot => by simp [h] at hnot
  · next h =>
    rw [raises_bind_iff_left fun shown => raises_fail _, raises_repr_iff]
    exact (and_iff_right (Bool.eq_false_iff.mpr h)).symm

theorem dictOr_eq_ok_iff {fields : List (PyText × PyJson)} :
    dictOr value message = .ok fields ↔ value = .dict fields := by
  cases value with
  | dict found => exact ⟨fun h => congrArg _ (Except.ok.inj h), fun h => by cases h; rfl⟩
  | _ => exact iff_of_false nofun nofun

theorem listOr_eq_ok_iff {items : List PyJson} :
    listOr value message = .ok items ↔ value = .list items := by
  cases value with
  | list found => exact ⟨fun h => congrArg _ (Except.ok.inj h), fun h => by cases h; rfl⟩
  | _ => exact iff_of_false nofun nofun

theorem intFrom_eq_ok_iff {least n : ℤ} :
    intFrom least value message = .ok n ↔ value = .int n ∧ least ≤ n := by
  cases value with
  | int found =>
    rw [intFrom]
    split
    · next h =>
      refine iff_of_false nofun ?_
      rintro ⟨heq, hle⟩
      obtain rfl := PyJson.int.inj heq
      omega
    · next h =>
      constructor
      · intro heq
        obtain rfl := Except.ok.inj heq
        exact ⟨rfl, by omega⟩
      · rintro ⟨heq, -⟩
        rw [PyJson.int.inj heq]
  | _ => exact iff_of_false nofun fun h => nomatch h.1

theorem textUnless_eq_ok_iff {bad : PyText → Bool} {t : PyText} :
    textUnless bad value message = .ok t ↔ value = .str t ∧ bad t = false := by
  cases value with
  | str found =>
    rw [textUnless]
    split
    · next h =>
      refine iff_of_false nofun ?_
      rintro ⟨heq, hgood⟩
      obtain rfl := PyJson.str.inj heq
      rw [h] at hgood
      cases hgood
    · next h =>
      constructor
      · intro heq
        obtain rfl := Except.ok.inj heq
        exact ⟨rfl, Bool.eq_false_iff.mpr h⟩
      · rintro ⟨heq, -⟩
        rw [PyJson.str.inj heq]
  | _ => exact iff_of_false nofun fun h => nomatch h.1

theorem nameIn_eq_ok_iff {names : List String} {t : PyText} :
    nameIn names value message = .ok t
      ↔ value = .str t ∧ names.any (text · == t) = true := by
  cases value with
  | str found =>
    rw [nameIn]
    split
    · next h =>
      constructor
      · intro heq
        obtain rfl := Except.ok.inj heq
        exact ⟨rfl, h⟩
      · rintro ⟨heq, -⟩
        rw [PyJson.str.inj heq]
    · next h =>
      refine iff_of_false nofun ?_
      rintro ⟨heq, hname⟩
      obtain rfl := PyJson.str.inj heq
      exact h hname
  | _ => exact iff_of_false nofun fun h => nomatch h.1

theorem checkVersion_eq_ok_iff {before after : PyText} :
    checkVersion I value before after = .ok () ↔ value.isOne = true := by
  unfold checkVersion
  split
  · next h => exact iff_of_true rfl h
  · next h =>
    refine iff_of_false ?_ h
    cases hrepr : I.repr value with
    | error e => exact nofun
    | ok shown => exact nofun

end Checks

/-! ### Reading a file -/

/-- `json.loads` reaches its recursion limit. -/
def Document.TooDeep (I : Interpreter) : Document → Prop
  | .malformed depth => I.scanDepth < depth
  | .json value => I.scanDepth < value.depth

/-- A file is nested too deep, or holds a value that `traps`. -/
def Content.Traps (I : Interpreter) (traps : PyJson → Prop) : Content → Prop
  | .unreadable => False
  | .undecodable => False
  | .text document => document.TooDeep I ∨ ∃ value, document = .json value ∧ traps value

theorem loads_eq_ok_iff {document : Document} {value : PyJson} :
    I.loads document = .ok value ↔ document = .json value ∧ ¬ document.TooDeep I := by
  cases document with
  | malformed depth =>
    refine iff_of_false ?_ fun h => by cases h.1
    rw [Interpreter.loads]
    by_cases hdeep : I.scanDepth < depth
    · rw [if_pos hdeep]
      exact fun h => by cases h
    · rw [if_neg hdeep]
      exact fun h => by cases h
  | json found =>
    rw [Interpreter.loads]
    split
    · next h => exact iff_of_false (fun h => by cases h) fun hnot => hnot.2 h
    · next h =>
      constructor
      · intro heq
        exact ⟨congrArg Document.json (Except.ok.inj heq), h⟩
      · rintro ⟨heq, -⟩
        rw [Document.json.inj heq]

/-- The scanner fails with a value error, unless the text is nested too deep. -/
theorem loads_error {document : Document} {e : PyError} (h : I.loads document = .error e) :
    (document.TooDeep I ∧ e = .recursionError) ∨ (¬ document.TooDeep I ∧ e = .valueError) := by
  cases document with
  | malformed depth =>
    rw [Interpreter.loads] at h
    split at h
    · next hdeep => exact Or.inl ⟨hdeep, (Except.error.inj h).symm⟩
    · next hdeep => exact Or.inr ⟨hdeep, (Except.error.inj h).symm⟩
  | json value =>
    rw [Interpreter.loads] at h
    split at h
    · next hdeep => exact Or.inl ⟨hdeep, (Except.error.inj h).symm⟩
    · cases h

theorem loads_of_tooDeep {document : Document} (h : document.TooDeep I) :
    I.loads document = .error .recursionError := by
  cases document with
  | malformed depth => exact if_pos h
  | json value => exact if_pos h

theorem raises_handledAs_iff {caught : PyError → Bool} {message : PyText} {x : Except PyError α} :
    Raises (handledAs caught message x) ↔ ∃ e, x = .error e ∧ caught e = false := by
  cases x with
  | ok a => exact iff_of_false (raises_ok a) fun ⟨e, h, _⟩ => by cases h
  | error e =>
    rw [handledAs]
    split
    · next h =>
      refine iff_of_false (raises_fail message) ?_
      rintro ⟨d, hd, hnot⟩
      obtain rfl := Except.error.inj hd
      rw [h] at hnot
      cases hnot
    · next h => exact iff_of_true (raises_raised e) ⟨e, rfl, Bool.eq_false_iff.mpr h⟩

theorem handledAs_eq_ok_iff {caught : PyError → Bool} {message : PyText} {x : Except PyError α}
    {a : α} : handledAs caught message x = .ok a ↔ x = .ok a := by
  cases x with
  | ok b =>
    rw [handledAs]
    constructor
    · exact fun h => congrArg Except.ok (Except.ok.inj h)
    · exact fun h => congrArg Except.ok (Except.ok.inj h)
  | error e =>
    rw [handledAs]
    by_cases hcaught : caught e = true
    · rw [if_pos hcaught]
      exact iff_of_false (fun h => by cases h) (fun h => by cases h)
    · rw [if_neg hcaught]
      exact iff_of_false (fun h => by cases h) (fun h => by cases h)

/-- **Reading.** A reader of a file raises what its checks raise on the value in it, and where the
    text is nested too deep for the scanner. -/
theorem raises_readJson_bind_iff {corrupt : PyText} {content : Content}
    {next : PyJson → Except LoadError α} {traps : PyJson → Prop}
    (hnext : ∀ value, Raises (next value) ↔ traps value) :
    Raises (I.readJson corrupt content >>= next) ↔ content.Traps I traps := by
  rw [raises_bind, Interpreter.readJson, raises_handledAs_iff]
  simp only [handledAs_eq_ok_iff]
  cases content with
  | unreadable =>
    refine iff_of_false ?_ id
    rintro (⟨e, he, hnot⟩ | ⟨value, hvalue, -⟩)
    · obtain rfl := Except.error.inj he
      cases hnot
    · cases hvalue
  | undecodable =>
    refine iff_of_false ?_ id
    rintro (⟨e, he, hnot⟩ | ⟨value, hvalue, -⟩)
    · obtain rfl := Except.error.inj he
      cases hnot
    · cases hvalue
  | text document =>
    show (∃ e, I.loads document = .error e ∧ fileErrors e = false)
        ∨ (∃ value, I.loads document = .ok value ∧ Raises (next value))
      ↔ document.TooDeep I ∨ ∃ value, document = .json value ∧ traps value
    constructor
    · rintro (⟨e, he, hnot⟩ | ⟨value, hvalue, hraises⟩)
      · rcases loads_error he with ⟨hdeep, -⟩ | ⟨-, rfl⟩
        · exact Or.inl hdeep
        · cases hnot
      · exact Or.inr ⟨value, (loads_eq_ok_iff.mp hvalue).1, (hnext value).mp hraises⟩
    · intro h
      by_cases hdeep : document.TooDeep I
      · exact Or.inl ⟨_, loads_of_tooDeep hdeep, rfl⟩
      · obtain ⟨value, hvalue, htraps⟩ := h.resolve_left hdeep
        exact Or.inr ⟨value, loads_eq_ok_iff.mpr ⟨hvalue, hdeep⟩, (hnext value).mpr htraps⟩

/-- The schema version is not supported, and too deep to be shown. -/
def VersionTraps (I : Interpreter) (version : PyJson) : Prop :=
  version.isOne = false ∧ I.reprDepth < version.depth

/-- A text that is not blank. -/
def IsText (value : PyJson) : Prop := ∃ t, value = .str t ∧ t.blank = false

/-! ### The journal -/

namespace Journal

/-- Nothing, or a text. -/
def IsOptional (value : PyJson) : Prop := value = .null ∨ ∃ t, value = .str t

/-- The entry passes the checks before the one of its operation, after a generation. -/
structure ReachesOperation (last : ℤ) (fields : List (PyText × PyJson)) : Prop where
  generation : ∃ n, get fields "generation" = .int n ∧ 1 ≤ n ∧ last < n
  texts : ∀ key ∈ ["timestamp", "device_id", "revision", "system", "layout_id"],
    IsText (get fields key)
  optional : ∀ key ∈ ["group_id", "object_id"], IsOptional (get fields key)

/-- The loop over the history comes to an entry whose operation has no hash. -/
def HistoryTraps (items : List PyJson) : Prop :=
  ∃ done fields rest entries, items = done ++ .dict fields :: rest
    ∧ done.foldlM historyStep [] = .ok entries
    ∧ ReachesOperation (lastGeneration entries) fields
    ∧ (get fields "operation").unhashable = true

end Journal

namespace Journal

@[simp] theorem raises_requiredText {value : PyJson} {label : String} :
    ¬ Raises (requiredText value label) := raises_textUnless

theorem requiredText_eq_ok_iff {value : PyJson} {label : String} {t : PyText} :
    requiredText value label = .ok t ↔ value = .str t ∧ t.blank = false := textUnless_eq_ok_iff

@[simp] theorem raises_optionalText {value : PyJson} : ¬ Raises (optionalText value) := by
  cases value <;> exact fun ⟨e, h⟩ => by cases h

theorem exists_optionalText_iff {value : PyJson} :
    (∃ t, optionalText value = .ok t) ↔ IsOptional value := by
  cases value with
  | null => exact iff_of_true ⟨none, rfl⟩ (Or.inl rfl)
  | str t => exact iff_of_true ⟨_, rfl⟩ (Or.inr ⟨t, rfl⟩)
  | _ =>
    refine iff_of_false ?_ ?_
    · rintro ⟨t, h⟩
      cases h
    · rintro (h | ⟨t, h⟩)
      · cases h
      · cases h

/-- An entry traps where the set of operations is to hash a list or a dictionary. -/
theorem raises_validateEntry_iff {index : ℕ} {last : ℤ} {item : PyJson} :
    Raises (validateEntry index last item) ↔ ∃ fields, item = .dict fields
      ∧ ReachesOperation last fields ∧ (get fields "operation").unhashable = true := by
  rw [validateEntry]
  rw [raises_bind_of_not raises_dictOr]
  simp only [dictOr_eq_ok_iff]
  refine exists_congr fun fields => and_congr_right fun _ => ?_
  rw [raises_bind_of_not raises_intFrom]
  simp only [intFrom_eq_ok_iff]
  constructor
  · rintro ⟨n, ⟨hn, hone⟩, h⟩
    by_cases hlast : n ≤ last
    · rw [if_pos hlast] at h
      exact absurd h (raises_fail _)
    · rw [if_neg hlast] at h
      obtain ⟨timestamp, htimestamp, h⟩ := (raises_bind_of_not raises_requiredText).mp h
      obtain ⟨deviceId, hdevice, h⟩ := (raises_bind_of_not raises_requiredText).mp h
      obtain ⟨revision, hrevision, h⟩ := (raises_bind_of_not raises_requiredText).mp h
      obtain ⟨system, hsystem, h⟩ := (raises_bind_of_not raises_requiredText).mp h
      obtain ⟨layoutId, hlayout, h⟩ := (raises_bind_of_not raises_requiredText).mp h
      obtain ⟨groupId, hgroup, h⟩ := (raises_bind_of_not raises_optionalText).mp h
      obtain ⟨objectId, hobject, h⟩ := (raises_bind_of_not raises_optionalText).mp h
      rw [raises_bind_iff_left fun _ => raises_ok _] at h
      refine ⟨⟨⟨n, hn, hone, by omega⟩, ?_, ?_⟩, raises_nameIn_iff.mp h⟩
      · simp only [List.forall_mem_cons, List.not_mem_nil, false_imp_iff, implies_true, and_true]
        exact ⟨⟨_, requiredText_eq_ok_iff.mp htimestamp⟩, ⟨_, requiredText_eq_ok_iff.mp hdevice⟩,
          ⟨_, requiredText_eq_ok_iff.mp hrevision⟩, ⟨_, requiredText_eq_ok_iff.mp hsystem⟩,
          ⟨_, requiredText_eq_ok_iff.mp hlayout⟩⟩
      · simp only [List.forall_mem_cons, List.not_mem_nil, false_imp_iff, implies_true, and_true]
        exact ⟨exists_optionalText_iff.mp ⟨_, hgroup⟩, exists_optionalText_iff.mp ⟨_, hobject⟩⟩
  · rintro ⟨⟨⟨n, hn, hone, hlast⟩, htexts, hoptional⟩, hoperation⟩
    refine ⟨n, ⟨hn, hone⟩, ?_⟩
    simp only [List.forall_mem_cons, List.not_mem_nil, false_imp_iff, implies_true,
      and_true] at htexts hoptional
    obtain ⟨⟨_, htimestamp⟩, ⟨_, hdevice⟩, ⟨_, hrevision⟩, ⟨_, hsystem⟩, ⟨_, hlayout⟩⟩ := htexts
    obtain ⟨_, hgroup⟩ := exists_optionalText_iff.mpr hoptional.1
    obtain ⟨_, hobject⟩ := exists_optionalText_iff.mpr hoptional.2
    rw [if_neg (by omega), requiredText_eq_ok_iff.mpr htimestamp, ok_bind,
      requiredText_eq_ok_iff.mpr hdevice, ok_bind, requiredText_eq_ok_iff.mpr hrevision, ok_bind,
      requiredText_eq_ok_iff.mpr hsystem, ok_bind, requiredText_eq_ok_iff.mpr hlayout, ok_bind,
      hgroup, ok_bind, hobject, ok_bind, raises_bind_iff_left fun _ => raises_ok _]
    exact raises_nameIn_iff.mpr hoperation

/-- The history traps at an entry that follows entries that passed. -/
theorem raises_history_iff {items : List PyJson} :
    Raises (items.foldlM historyStep []) ↔ HistoryTraps items := by
  rw [raises_foldlM_iff]
  constructor
  · rintro ⟨done, item, rest, entries, rfl, hdone, h⟩
    rw [historyStep, raises_bind_iff_left fun _ => raises_ok _] at h
    obtain ⟨fields, rfl, hreaches, hoperation⟩ := raises_validateEntry_iff.mp h
    exact ⟨done, fields, rest, entries, rfl, hdone, hreaches, hoperation⟩
  · rintro ⟨done, fields, rest, entries, rfl, hdone, hreaches, hoperation⟩
    refine ⟨done, .dict fields, rest, entries, rfl, hdone, ?_⟩
    rw [historyStep, raises_bind_iff_left fun _ => raises_ok _]
    exact raises_validateEntry_iff.mpr ⟨fields, rfl, hreaches, hoperation⟩

/-- A journal on which another exception leaves the checks. -/
def Traps (I : Interpreter) (payload : PyJson) : Prop :=
  ∃ fields, payload = .dict fields ∧
    (VersionTraps I (get fields "schema_version") ∨
      (get fields "schema_version").isOne = true
        ∧ (∃ n, get fields "generation" = .int n ∧ 0 ≤ n)
        ∧ ∃ items, get fields "history" = .list items ∧ HistoryTraps items)

theorem raises_validateDocument_iff {path : PyText} {payload : PyJson} :
    Raises (validateDocument I path payload) ↔ Traps I payload := by
  rw [validateDocument, raises_bind_of_not raises_dictOr]
  simp only [dictOr_eq_ok_iff]
  refine exists_congr fun fields => and_congr_right fun _ => ?_
  rw [raises_bind, raises_checkVersion_iff]
  refine or_congr Iff.rfl ?_
  constructor
  · rintro ⟨_, hversion, h⟩
    obtain ⟨n, hn, h⟩ := (raises_bind_of_not raises_intFrom).mp h
    obtain ⟨items, hitems, h⟩ := (raises_bind_of_not raises_listOr).mp h
    refine ⟨checkVersion_eq_ok_iff.mp hversion, ⟨n, intFrom_eq_ok_iff.mp hn⟩, items,
      listOr_eq_ok_iff.mp hitems, raises_history_iff.mp ((raises_bind_iff_left ?_).mp h)⟩
    intro normalized
    split
    · exact raises_fail _
    · exact raises_ok _
  · rintro ⟨hversion, ⟨n, hn⟩, items, hitems, htraps⟩
    refine ⟨(), checkVersion_eq_ok_iff.mpr hversion, ?_⟩
    rw [intFrom_eq_ok_iff.mpr hn, ok_bind, listOr_eq_ok_iff.mpr hitems, ok_bind, raises_bind]
    exact Or.inl (raises_history_iff.mpr htraps)

/-- **The journal.** Its reader raises something else exactly on the values that trap. -/
theorem raises_load_iff {path : PyText} {content : Content} :
    Raises (load I path (some content)) ↔ content.Traps I (Traps I) :=
  raises_readJson_bind_iff fun _ => raises_validateDocument_iff

end Journal

/-! ### Journals that passed -/

namespace Journal

/-- What the checks make sure of for an entry. -/
structure Entry.Valid (entry : Entry) : Prop where
  generation : 1 ≤ entry.generation
  timestamp : entry.timestamp.blank = false
  deviceId : entry.deviceId.blank = false
  revision : entry.revision.blank = false
  system : entry.system.blank = false
  layoutId : entry.layoutId.blank = false
  operation : ["create", "update", "delete"].any (text · == entry.operation) = true

/-- The generations of a journal rise, and its own is not behind. -/
structure Validated.Valid (document : Validated) : Prop where
  generation : 0 ≤ document.generation
  entries : ∀ entry ∈ document.history, entry.Valid ∧ entry.generation ≤ document.generation
  rising : (document.history.map Entry.generation).Pairwise (· < ·)

theorem validateEntry_spec {index : ℕ} {last : ℤ} {item : PyJson} {entry : Entry}
    (h : validateEntry index last item = .ok entry) : entry.Valid ∧ last < entry.generation := by
  rw [validateEntry] at h
  obtain ⟨fields, -, h⟩ := bind_eq_ok h
  obtain ⟨n, hn, h⟩ := bind_eq_ok h
  by_cases hlast : n ≤ last
  · rw [if_pos hlast] at h
    cases h
  rw [if_neg hlast] at h
  obtain ⟨timestamp, htimestamp, h⟩ := bind_eq_ok h
  obtain ⟨deviceId, hdevice, h⟩ := bind_eq_ok h
  obtain ⟨revision, hrevision, h⟩ := bind_eq_ok h
  obtain ⟨system, hsystem, h⟩ := bind_eq_ok h
  obtain ⟨layoutId, hlayout, h⟩ := bind_eq_ok h
  obtain ⟨groupId, -, h⟩ := bind_eq_ok h
  obtain ⟨objectId, -, h⟩ := bind_eq_ok h
  obtain ⟨operation, hoperation, h⟩ := bind_eq_ok h
  obtain rfl := Except.ok.inj h
  refine ⟨⟨(intFrom_eq_ok_iff.mp hn).2, (requiredText_eq_ok_iff.mp htimestamp).2,
    (requiredText_eq_ok_iff.mp hdevice).2, (requiredText_eq_ok_iff.mp hrevision).2,
    (requiredText_eq_ok_iff.mp hsystem).2, (requiredText_eq_ok_iff.mp hlayout).2,
    (nameIn_eq_ok_iff.mp hoperation).2⟩, ?_⟩
  show last < n
  omega

theorem lastGeneration_append (entries : List Entry) (entry : Entry) :
    lastGeneration (entries ++ [entry]) = entry.generation := by
  rw [lastGeneration, List.getLast?_concat]
  rfl

/-- The entries so far, none of them after the last one. -/
structure Rising (entries : List Entry) : Prop where
  passed : ∀ entry ∈ entries, entry.Valid ∧ entry.generation ≤ lastGeneration entries
  rising : (entries.map Entry.generation).Pairwise (· < ·)

theorem Rising.append {entries : List Entry} (h : Rising entries) {entry : Entry}
    (hvalid : entry.Valid) (hlast : lastGeneration entries < entry.generation) :
    Rising (entries ++ [entry]) := by
  refine ⟨fun e he => ?_, ?_⟩
  · rw [lastGeneration_append]
    rcases List.mem_append.mp he with hold | hnew
    · obtain ⟨hentry, hle⟩ := h.passed e hold
      exact ⟨hentry, by omega⟩
    · rw [List.mem_singleton.mp hnew]
      exact ⟨hvalid, le_refl _⟩
  · rw [List.map_append, List.pairwise_append]
    refine ⟨h.rising, List.pairwise_singleton _ _, ?_⟩
    intro m hm n hn
    obtain ⟨e, he, rfl⟩ := List.mem_map.mp hm
    rw [List.map_singleton, List.mem_singleton] at hn
    have hle := (h.passed e he).2
    omega

theorem rising_of_history {items : List PyJson} {entries : List Entry}
    (h : items.foldlM historyStep [] = .ok entries) : Rising entries := by
  refine (@foldlM_outcome LoadError (List Entry) PyJson historyStep Rising (fun _ => True) items
    ?_ [] ⟨fun e he => absurd he List.not_mem_nil, List.Pairwise.nil⟩).1 entries h
  intro s hs item _
  refine ⟨fun t ht => ?_, fun e _ => trivial⟩
  rw [historyStep] at ht
  obtain ⟨entry, hentry, ht⟩ := bind_eq_ok ht
  obtain rfl := Except.ok.inj ht
  obtain ⟨hvalid, hlast⟩ := validateEntry_spec hentry
  exact hs.append hvalid hlast

/-- What the checks return is valid. -/
theorem valid_of_validateDocument {path : PyText} {payload : PyJson} {document : Validated}
    (h : validateDocument I path payload = .ok document) : document.Valid := by
  rw [validateDocument] at h
  obtain ⟨fields, -, h⟩ := bind_eq_ok h
  obtain ⟨_, -, h⟩ := bind_eq_ok h
  obtain ⟨n, hn, h⟩ := bind_eq_ok h
  obtain ⟨items, -, h⟩ := bind_eq_ok h
  obtain ⟨entries, hentries, h⟩ := bind_eq_ok h
  by_cases hbehind : n < lastGeneration entries
  · rw [if_pos hbehind] at h
    cases h
  rw [if_neg hbehind] at h
  obtain rfl := Except.ok.inj h
  have hrising := rising_of_history hentries
  refine ⟨(intFrom_eq_ok_iff.mp hn).2, fun entry hentry => ?_, hrising.rising⟩
  obtain ⟨hvalid, hle⟩ := hrising.passed entry hentry
  refine ⟨hvalid, ?_⟩
  show entry.generation ≤ n
  omega

theorem valid_of_load {path : PyText} {file : Option Content} {document : Validated}
    (h : load I path file = .ok document) : document.Valid := by
  cases file with
  | none =>
    obtain rfl := Except.ok.inj h
    exact ⟨le_refl _, fun entry hentry => absurd hentry List.not_mem_nil, List.Pairwise.nil⟩
  | some content =>
    obtain ⟨payload, -, h⟩ := bind_eq_ok h
    exact valid_of_validateDocument h

/-! ### Resetting a journal -/

theorem depth_empty : empty.toJson.depth = 2 := rfl

theorem validateDocument_empty (path : PyText) :
    validateDocument I path empty.toJson = .ok empty := rfl

/-- The empty journal can be written, and read again. -/
theorem save_empty (path : PyText) :
    save I path empty.toJson = .ok (.text (.json empty.toJson)) := by
  have hfits : ¬ I.dumpDepth < empty.toJson.depth := by
    have h := I.dumps
    rw [depth_empty]
    omega
  rw [save, validateDocument_empty, ok_bind, if_neg hfits]

theorem load_empty (path : PyText) :
    load I path (some (.text (.json empty.toJson))) = .ok empty := by
  have hfits : ¬ I.scanDepth < empty.toJson.depth := by
    have h := I.scans
    rw [depth_empty]
    omega
  have hread : I.readJson (text "SaveSync journal is corrupt: " ++ path)
      (.text (.json empty.toJson)) = .ok empty.toJson :=
    handledAs_eq_ok_iff.mpr (loads_eq_ok_iff.mpr ⟨rfl, hfits⟩)
  rw [load, hread, ok_bind, validateDocument_empty]

/-- The call returns a valid journal and leaves one. -/
def Resets (I : Interpreter) (path : PyText) (movable : Bool) (files : Files) : Prop :=
  ∃ document after, loadOrReset I path movable files = (.ok document, after) ∧ document.Valid
    ∧ ∃ content left, after.journal = some content
      ∧ load I path (some content) = .ok left ∧ left.Valid

/-- **Resetting.** A journal that does not pass is replaced, as long as its reader fails with
    `SaveSyncError`. -/
theorem resets_iff {path : PyText} {movable : Bool} {content : Content}
    {corrupt : Option Content} :
    Resets I path movable ⟨some content, corrupt⟩ ↔ ¬ Raises (load I path (some content)) := by
  unfold Resets
  cases hload : load I path (some content) with
  | ok document =>
    refine iff_of_true ?_ (raises_ok document)
    refine ⟨document, ⟨some content, corrupt⟩, ?_, valid_of_load hload, content, document, rfl,
      hload, valid_of_load hload⟩
    rw [loadOrReset, hload]
  | error e =>
    cases e with
    | raised e =>
      refine iff_of_false ?_ (not_not.mpr (raises_raised e))
      rintro ⟨document, after, h, -⟩
      rw [loadOrReset, hload] at h
      cases h
    | saveSync message =>
      refine iff_of_true ?_ (raises_saveSync message)
      have hempty : empty.Valid := valid_of_load (load_empty path : load I path _ = _)
      obtain ⟨after, hreset, hafter⟩ : ∃ after : Files,
          loadOrReset I path movable ⟨some content, corrupt⟩ = (.ok empty, after)
            ∧ after.journal = some (.text (.json empty.toJson)) := by
        rw [loadOrReset, hload]
        dsimp only
        rw [save_empty]
        exact ⟨_, rfl, rfl⟩
      exact ⟨empty, after, hreset, hempty, _, empty, hafter, load_empty path, hempty⟩

end Journal

end RomCloud.SaveSync.SharedMetadata
