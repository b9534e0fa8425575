import RomCloud.SaveSync.StateDocument
import RomCloud.SaveSync.StateTransitions

namespace RomCloud.SaveSync.Durable

open RomCloud.Lib

/-!
# The state document read back

Every nested record is read back in order, and what is read passes its checks and is in order, with
one exception: the checks of a conflict accept a receipt of its resolution that is blank, which no
document can say.

* `sortedState` — a state with all its lists in the order of a document that was read;
* `NoBlankReceipt` — no conflict has a blank `resolved_at` or `resolution_revision`;
* `reads_conflict`, `reads_group`, … — the records, each by the ones inside it;
* `encoding_round_trips_iff` — a state is read back, in order, exactly if no receipt is blank.
-/

/-! ### Values -/

section Values

variable {value : Json} {label : String}

@[simp] theorem readMapping_obj (fields : List (String × Json)) :
    readMapping (.obj fields) label = .ok fields := rfl

@[simp] theorem readList_arr (items : List Json) : readList (.arr items) label = .ok items := rfl

@[simp] theorem readText_str (text : String) : readText (.str text) label = .ok text := rfl

@[simp] theorem readInt_int (value : ℤ) : readInt (.int value) label = .ok value := rfl

@[simp] theorem nonnegative_natCast (n : ℕ) (error : StateError) :
    nonnegative (n : ℤ) error = .ok n := by
  simp [nonnegative]

@[simp] theorem readNonnegativeInt_natCast (n : ℕ) :
    readNonnegativeInt (.int n) label = .ok n :=
  nonnegative_natCast n _

theorem readNonemptyText_str {text : String} (h : strip text ≠ "") :
    readNonemptyText (.str text) label = .ok text := by
  unfold readNonemptyText
  rw [readText_str, ok_bind, (nonemptyText_eq_ok_iff text label).mpr h]
  rfl

theorem strip_of_readNonemptyText {text : String} (h : readNonemptyText value label = .ok text) :
    strip text ≠ "" := by
  obtain ⟨read, -, h⟩ := bind_eq_ok h
  rw [check_bind_eq_ok_iff, nonemptyText_eq_ok_iff] at h
  rw [← Except.ok.inj h.2]
  exact h.1

theorem readCanonicalPath_str {path : Path} {other : String}
    (h : canonicalPath path other = .ok ()) : readCanonicalPath (.str path) label = .ok path := by
  unfold readCanonicalPath
  rw [readText_str, ok_bind, canonicalPath_of_label label h]
  rfl

theorem canonicalPath_of_read {path : Path} (h : readCanonicalPath value label = .ok path) :
    canonicalPath path label = .ok () := by
  obtain ⟨read, -, h⟩ := bind_eq_ok h
  rw [check_bind_eq_ok_iff] at h
  rw [← Except.ok.inj h.2]
  exact h.1

/-- An optional text is read back exactly if it is not blank. -/
theorem readOptionalText_optionalText_iff (text : Option String) (read : Option String) :
    readOptionalText (optionalText text) label = .ok read
      ↔ read = text ∧ ∀ t, text = some t → strip t ≠ "" := by
  cases text with
  | none =>
    show Except.ok none = Except.ok read ↔ _
    rw [Except.ok.injEq, eq_comm]
    simp
  | some text =>
    show (readNonemptyText (.str text) label).map some = .ok read ↔ _
    constructor
    · intro h
      obtain ⟨t, ht, hread⟩ := map_eq_ok h
      have hstrip := strip_of_readNonemptyText ht
      obtain ⟨same, hsame, ht⟩ := bind_eq_ok ht
      rw [check_bind_eq_ok_iff] at ht
      rw [← hread, ← Except.ok.inj ht.2, ← Except.ok.inj hsame]
      rw [← Except.ok.inj ht.2, ← Except.ok.inj hsame] at hstrip
      refine ⟨rfl, ?_⟩
      intro t' ht'
      rw [← Option.some.inj ht']
      exact hstrip
    · intro h
      rw [readNonemptyText_str (h.2 text rfl), h.1]
      rfl

theorem strip_of_readOptionalText {text : Option String}
    (h : readOptionalText value label = .ok text) : ∀ t, text = some t → strip t ≠ "" := by
  intro t ht
  unfold readOptionalText at h
  split at h
  · rw [← Except.ok.inj h] at ht
    exact absurd ht (by simp)
  · obtain ⟨read, hread, hsome⟩ := map_eq_ok h
    rw [ht] at hsome
    rw [← Option.some.inj hsome]
    exact strip_of_readNonemptyText hread

/-- The text of a choice is read back as the choice. -/
theorem readChoice_text {α : Type} {textOf : α → String} {choices : List α}
    (hinj : ∀ a ∈ choices, ∀ b ∈ choices, textOf a = textOf b → a = b) {choice : α}
    (h : choice ∈ choices) : readChoice textOf choices (.str (textOf choice)) label = .ok choice := by
  unfold readChoice
  dsimp only
  cases hfind : choices.find? (fun other => decide (textOf other = textOf choice)) with
  | none =>
    have hnone := List.find?_eq_none.mp hfind choice h
    exact absurd hnone (by simp)
  | some found =>
    have hfound := List.find?_some hfind
    rw [decide_eq_true_eq] at hfound
    rw [hinj found (List.mem_of_find?_eq_some hfind) choice h hfound]

theorem readItems_str {read : Json → String → Read String} {texts : List String}
    (h : ∀ t ∈ texts, read (.str t) label = .ok t) :
    readItems read (.arr (texts.map .str)) label = .ok texts := by
  unfold readItems
  rw [readList_arr, ok_bind]
  induction texts with
  | nil => rfl
  | cons t rest ih =>
    rw [List.map_cons, List.mapM_cons, h t List.mem_cons_self, ok_bind,
      ih (fun t' ht' => h t' (List.mem_cons_of_mem _ ht'))]
    rfl

/-- What is read of optional records, from what is read of the records. -/
theorem Reads.optional {α : Type} {write : α → Json} {read : Json → String → Read α}
    {normal : α → α} {Good : α → Prop} (h : Reads write read normal Good)
    (hnull : ∀ a, write a ≠ .null) :
    Reads (optionalDict write) (readOptional read) (Option.map normal)
      (fun value => ∀ a, value = some a → Good a) where
  back := by
    intro value hgood label
    cases value with
    | none => rfl
    | some a =>
      have hread : readOptional read (write a) label = (read (write a) label).map some := by
        unfold readOptional
        split
        · next heq => exact absurd heq (hnull a)
        · rfl
      show readOptional read (write a) label = _
      rw [hread, h.back a (hgood a rfl)]
      rfl
  sound := by
    intro payload label value hread
    unfold readOptional at hread
    split at hread
    · rw [← Except.ok.inj hread]
      exact ⟨fun a ha => absurd ha (by simp), rfl⟩
    · obtain ⟨a, ha, rfl⟩ := map_eq_ok hread
      obtain ⟨hgood, hnormal⟩ := h.sound _ _ _ ha
      refine ⟨?_, by rw [Option.map_some, hnormal]⟩
      intro b hb
      rw [← Option.some.inj hb]
      exact hgood

end Values

/-! ### Artifacts and snapshots -/

/-- What the checks of a list of artifacts ask, wherever it stands. -/
theorem validateArtifacts_eq_ok_iff (artifacts : List SaveArtifact) (label : String) :
    validateArtifacts artifacts label = .ok ()
      ↔ (∀ artifact ∈ artifacts, canonicalPath artifact.relativePath "" = .ok ()
          ∧ isDigest artifact.contentHash = true)
        ∧ (artifacts.map SaveArtifact.relativePath).Nodup := by
  simp [validateArtifacts, canonicalPath]

/-- Sorted artifacts pass the checks of the list. -/
theorem validateArtifacts_sorted {artifacts : List SaveArtifact} {label : String} (other : String)
    (h : validateArtifacts artifacts label = .ok ()) :
    validateArtifacts (sortedArtifacts artifacts) other = .ok () := by
  rw [validateArtifacts_eq_ok_iff] at h ⊢
  refine ⟨fun artifact hmem => h.1 artifact ((mem_sortOn _ _ _).mp hmem), ?_⟩
  exact ((sortOn_perm SaveArtifact.relativePath artifacts).map _).nodup_iff.mpr h.2

@[simp] theorem sortedArtifacts_sortedArtifacts (artifacts : List SaveArtifact) :
    sortedArtifacts (sortedArtifacts artifacts) = sortedArtifacts artifacts :=
  sortOn_sortOn SaveArtifact.relativePath artifacts

theorem strip_of_isDigest {digest : String} (h : isDigest digest = true) : strip digest ≠ "" := by
  simp only [isDigest, Bool.and_eq_true, decide_eq_true_eq, List.all_eq_true] at h
  cases hchars : digest.toList with
  | nil =>
    rw [hchars] at h
    exact absurd h.1 (by simp)
  | cons c rest =>
    have hmem : c ∈ digest.toList := by rw [hchars]; exact List.mem_cons_self
    refine strip_ne_empty_of_mem hmem ?_
    have hnone : ∀ c ∈ "0123456789abcdefABCDEF".toList, isSpace c = false := by simp [isSpace]
    exact hnone c (h.2 c hmem)

theorem reads_artifact : Reads artifactToDict artifactFromDict id
    (fun artifact => validateArtifacts [artifact] "" = .ok ()) where
  back := by
    intro artifact hgood label
    have hvalid := (validateArtifacts_eq_ok_iff [artifact] label).mpr
      ((validateArtifacts_eq_ok_iff _ _).mp hgood)
    obtain ⟨hpath, hdigest⟩ :=
      ((validateArtifacts_eq_ok_iff _ _).mp hgood).1 artifact (List.mem_singleton.mpr rfl)
    unfold artifactFromDict artifactToDict
    rw [readMapping_obj, ok_bind]
    simp only [Json.get, Json.getOr, Json.lookup, ↓reduceIte, String.reduceEq, Option.getD_some]
    rw [readInt_int, ok_bind, readCanonicalPath_str hpath, ok_bind,
      readNonemptyText_str (strip_of_isDigest hdigest), ok_bind, nonnegative_natCast, ok_bind,
      hvalid, ok_bind, id]
  sound := by
    intro payload label artifact hread
    unfold artifactFromDict at hread
    obtain ⟨data, -, hread⟩ := bind_eq_ok hread
    obtain ⟨size, -, hread⟩ := bind_eq_ok hread
    obtain ⟨path, -, hread⟩ := bind_eq_ok hread
    obtain ⟨contentHash, -, hread⟩ := bind_eq_ok hread
    obtain ⟨sizeBytes, -, hread⟩ := bind_eq_ok hread
    rw [check_bind_eq_ok_iff] at hread
    rw [← Except.ok.inj hread.2]
    refine ⟨?_, rfl⟩
    rw [validateArtifacts_eq_ok_iff] at hread ⊢
    exact hread.1

/-- A list of artifacts is read back in order. -/
theorem artifactsFromList_map {artifacts : List SaveArtifact} {other : String}
    (h : validateArtifacts artifacts other = .ok ()) (label : String) :
    artifactsFromList (.arr (artifacts.map artifactToDict)) label
      = .ok (sortedArtifacts artifacts) := by
  have hvalid := (validateArtifacts_eq_ok_iff artifacts label).mpr
    ((validateArtifacts_eq_ok_iff _ _).mp h)
  have heach : ∀ artifact ∈ artifacts, validateArtifacts [artifact] "" = .ok () := by
    intro artifact hmem
    rw [validateArtifacts_eq_ok_iff] at h ⊢
    simpa using h.1 artifact hmem
  unfold artifactsFromList
  rw [readList_arr, ok_bind, reads_artifact.each label heach 0, List.map_id, ok_bind, hvalid,
    ok_bind]

/-- A list of artifacts that is read is valid and in order. -/
theorem artifactsFromList_sound {payload : Json} {label : String} {artifacts : List SaveArtifact}
    (h : artifactsFromList payload label = .ok artifacts) :
    sortedArtifacts artifacts = artifacts := by
  unfold artifactsFromList at h
  obtain ⟨values, -, h⟩ := bind_eq_ok h
  obtain ⟨items, -, h⟩ := bind_eq_ok h
  rw [check_bind_eq_ok_iff] at h
  rw [← Except.ok.inj h.2, sortedArtifacts_sortedArtifacts]

/-- A snapshot with its artifacts in order. -/
def sortedSnapshot (snapshot : SaveGroupSnapshot) : SaveGroupSnapshot :=
  { snapshot with artifacts := sortedArtifacts snapshot.artifacts }

theorem validateSnapshot_sorted {label : String} {gid : GroupId} {layoutId : LayoutId}
    {snapshot : SaveGroupSnapshot} (h : validateSnapshot label gid layoutId snapshot = .ok ()) :
    validateSnapshot label gid layoutId (sortedSnapshot snapshot) = .ok () := by
  simp only [validateSnapshot, check_bind_eq_ok_iff] at h ⊢
  obtain ⟨hgid, hlid, hgroup, hlayout, hartifacts, hobserved⟩ := h
  exact ⟨hgid, hlid, hgroup, hlayout, validateArtifacts_sorted _ hartifacts, hobserved⟩

theorem reads_snapshot : Reads snapshotToDict snapshotFromDict sortedSnapshot
    (fun snapshot => validateSnapshot "" snapshot.groupId snapshot.layoutId snapshot = .ok ()) where
  back := by
    intro snapshot hgood label
    have hvalid := validateSnapshot_sorted (validateSnapshot_of_label label hgood)
    simp only [validateSnapshot, check_bind_eq_ok_iff, whenSome_eq_ok_iff,
      nonemptyText_eq_ok_iff] at hgood
    obtain ⟨hgid, hlid, -, -, hartifacts, hobserved⟩ := hgood
    have hread : ∀ l, readOptionalText (optionalText snapshot.observedAt) l
        = .ok snapshot.observedAt :=
      fun l => (readOptionalText_optionalText_iff _ _).mpr ⟨rfl, hobserved⟩
    unfold snapshotFromDict snapshotToDict
    rw [readMapping_obj, ok_bind]
    simp only [Json.get, Json.getOr, Json.lookup, ↓reduceIte, String.reduceEq, Option.getD_some]
    rw [readNonemptyText_str hgid, ok_bind, readNonemptyText_str hlid, ok_bind,
      artifactsFromList_map hartifacts, ok_bind, hread, ok_bind]
    show (validateSnapshot label snapshot.groupId snapshot.layoutId (sortedSnapshot snapshot)
      >>= fun _ => Except.ok (sortedSnapshot snapshot)) = _
    rw [hvalid, ok_bind]
  sound := by
    intro payload label snapshot hread
    unfold snapshotFromDict at hread
    obtain ⟨data, -, hread⟩ := bind_eq_ok hread
    obtain ⟨gid, -, hread⟩ := bind_eq_ok hread
    obtain ⟨layoutId, -, hread⟩ := bind_eq_ok hread
    obtain ⟨artifacts, hartifacts, hread⟩ := bind_eq_ok hread
    obtain ⟨observedAt, -, hread⟩ := bind_eq_ok hread
    rw [check_bind_eq_ok_iff] at hread
    rw [← Except.ok.inj hread.2]
    refine ⟨validateSnapshot_of_label _ hread.1, ?_⟩
    unfold sortedSnapshot
    rw [artifactsFromList_sound hartifacts]

theorem reads_optional_snapshot :
    Reads (optionalDict snapshotToDict) (readOptional snapshotFromDict)
      (Option.map sortedSnapshot) (fun value => ∀ snapshot, value = some snapshot →
        validateSnapshot "" snapshot.groupId snapshot.layoutId snapshot = .ok ()) :=
  Reads.optional reads_snapshot (fun _ => by simp [snapshotToDict])

/-! ### Groups -/

/-- A group with its snapshots in order. -/
def sortedGroup (group : SaveGroupState) : SaveGroupState :=
  { group with
    baseline := group.baseline.map sortedSnapshot
    localObserved := group.localObserved.map sortedSnapshot
    remoteObserved := group.remoteObserved.map sortedSnapshot }

/-- An optional snapshot of a group passes its checks once in order. -/
theorem whenSome_validateSnapshot_sorted {label : String} {gid : GroupId} {layoutId : LayoutId}
    {snapshot : Option SaveGroupSnapshot}
    (h : whenSome (validateSnapshot label gid layoutId) snapshot = .ok ()) :
    whenSome (validateSnapshot label gid layoutId) (snapshot.map sortedSnapshot) = .ok () := by
  rw [whenSome_eq_ok_iff] at h ⊢
  intro sorted hsorted
  obtain ⟨original, horiginal, rfl⟩ := Option.map_eq_some_iff.mp hsorted
  exact validateSnapshot_sorted (h original horiginal)

theorem validateGroup_sorted {group : SaveGroupState} (h : validateGroup group = .ok ()) :
    validateGroup (sortedGroup group) = .ok () := by
  simp only [validateGroup, check_bind_eq_ok_iff] at h ⊢
  obtain ⟨hgid, hlid, hbase, hlocal, hremote, hhints, hnodup, hverified⟩ := h
  exact ⟨hgid, hlid, whenSome_validateSnapshot_sorted hbase,
    whenSome_validateSnapshot_sorted hlocal, whenSome_validateSnapshot_sorted hremote, hhints,
    hnodup, hverified⟩

/-- A snapshot of a group passes the checks it would pass on its own. -/
theorem snapshot_good {label : String} {gid : GroupId} {layoutId : LayoutId}
    {snapshot : Option SaveGroupSnapshot}
    (h : whenSome (validateSnapshot label gid layoutId) snapshot = .ok ()) :
    ∀ s, snapshot = some s → validateSnapshot "" s.groupId s.layoutId s = .ok () := by
  intro s hs
  have hvalid := (whenSome_eq_ok_iff _ _).mp h s hs
  have hsame := hvalid
  simp only [validateSnapshot, check_bind_eq_ok_iff, require_eq_ok_iff] at hsame
  rw [hsame.2.2.1, hsame.2.2.2.1]
  exact validateSnapshot_of_label _ hvalid

theorem readChoice_condition (condition : SaveGroupCondition) (label : String) :
    readChoice SaveGroupCondition.text [.clean, .localDirty, .remoteDirty, .conflict]
      (.str (SaveGroupCondition.text condition)) label = .ok condition :=
  readChoice_text (by decide) (by cases condition <;> decide)

theorem reads_group : Reads groupToDict groupFromDict sortedGroup
    (fun group => validateGroup group = .ok ()) where
  back := by
    intro group hgood label
    have hvalid := validateGroup_sorted hgood
    simp only [validateGroup, check_bind_eq_ok_iff, nonemptyText_eq_ok_iff, checkAll_eq_ok_iff]
      at hgood
    obtain ⟨hgid, hlid, hbase, hlocal, hremote, hhints, -, hverified⟩ := hgood
    have hitems : ∀ l, readItems readCanonicalPath (.arr (group.dirtyPathHints.map .str)) l
        = .ok group.dirtyPathHints :=
      fun l => readItems_str (fun path hpath => readCanonicalPath_str (hhints path hpath))
    have hread : ∀ l, readOptionalText (optionalText group.verifiedAt) l
        = .ok group.verifiedAt := by
      intro l
      rw [readOptionalText_optionalText_iff]
      simpa using hverified
    unfold groupFromDict groupToDict
    rw [readMapping_obj, ok_bind]
    simp only [Json.get, Json.getOr, Json.lookup, ↓reduceIte, String.reduceEq, Option.getD_some]
    rw [readChoice_condition, ok_bind, readNonemptyText_str hgid, ok_bind,
      readNonemptyText_str hlid, ok_bind, reads_optional_snapshot.back _ (snapshot_good hbase),
      ok_bind, reads_optional_snapshot.back _ (snapshot_good hlocal), ok_bind,
      reads_optional_snapshot.back _ (snapshot_good hremote), ok_bind, hitems, ok_bind, hread,
      ok_bind]
    show (validateGroup (sortedGroup group) >>= fun _ => Except.ok (sortedGroup group)) = _
    rw [hvalid, ok_bind]
  sound := by
    intro payload label group hread
    unfold groupFromDict at hread
    obtain ⟨data, -, hread⟩ := bind_eq_ok hread
    obtain ⟨condition, -, hread⟩ := bind_eq_ok hread
    obtain ⟨gid, -, hread⟩ := bind_eq_ok hread
    obtain ⟨layoutId, -, hread⟩ := bind_eq_ok hread
    obtain ⟨baseline, hbase, hread⟩ := bind_eq_ok hread
    obtain ⟨localObserved, hlocal, hread⟩ := bind_eq_ok hread
    obtain ⟨remoteObserved, hremote, hread⟩ := bind_eq_ok hread
    obtain ⟨hints, -, hread⟩ := bind_eq_ok hread
    obtain ⟨verifiedAt, -, hread⟩ := bind_eq_ok hread
    rw [check_bind_eq_ok_iff] at hread
    rw [← Except.ok.inj hread.2]
    refine ⟨hread.1, ?_⟩
    unfold sortedGroup
    dsimp only
    rw [(reads_optional_snapshot.sound _ _ _ hbase).2, (reads_optional_snapshot.sound _ _ _ hlocal).2,
      (reads_optional_snapshot.sound _ _ _ hremote).2]

/-! ### Conflicts -/

/-- A conflict with its snapshots in order. -/
def sortedConflict (conflict : SaveConflictRecord) : SaveConflictRecord :=
  { conflict with
    baseline := conflict.baseline.map sortedSnapshot
    localSnapshot := sortedSnapshot conflict.localSnapshot
    remoteSnapshot := sortedSnapshot conflict.remoteSnapshot }

/-- The receipt of the resolution of a conflict is not blank. -/
def Receipted (conflict : SaveConflictRecord) : Prop :=
  (∀ resolvedAt, conflict.resolvedAt = some resolvedAt → strip resolvedAt ≠ "")
    ∧ ∀ revision, conflict.resolutionRevision = some revision → strip revision ≠ ""

@[simp] theorem snapshotContent_sorted (snapshot : SaveGroupSnapshot) :
    snapshotContent (sortedSnapshot snapshot) = snapshotContent snapshot :=
  sortedArtifacts_sortedArtifacts _

/-- The id of a conflict does not depend on the order of its artifacts. -/
@[simp] theorem fingerprint_sorted (conflict : SaveConflictRecord) :
    fingerprint (sortedConflict conflict) = fingerprint conflict := by
  have hbase : (conflict.baseline.map sortedSnapshot).map snapshotContent
      = conflict.baseline.map snapshotContent := by
    rw [Option.map_map]
    exact congrArg (fun f => conflict.baseline.map f) (funext snapshotContent_sorted)
  unfold fingerprint fingerprintOf sortedConflict
  rw [hbase, snapshotContent_sorted, snapshotContent_sorted]

theorem validateConflict_sorted {conflict : SaveConflictRecord}
    (h : validateConflict conflict = .ok ()) :
    validateConflict (sortedConflict conflict) = .ok () := by
  simp only [validateConflict, check_bind_eq_ok_iff, require_eq_ok_iff] at h ⊢
  obtain ⟨hgid, hlid, hdetected, hseen, hbase, hlocal, hremote, hack, hresolution⟩ := h
  exact ⟨hgid, hlid, hdetected, hseen, whenSome_validateSnapshot_sorted hbase,
    validateSnapshot_sorted hlocal, validateSnapshot_sorted hremote, hack, hresolution⟩

theorem readOptional_resolution (resolution : Option SaveConflictResolution) (label : String) :
    readOptional (readChoice SaveConflictResolution.text [.keepLocal, .keepRemote, .manual])
      (optionalText (resolution.map SaveConflictResolution.text)) label = .ok resolution := by
  cases resolution with
  | none => rfl
  | some resolution =>
    show (readChoice SaveConflictResolution.text [.keepLocal, .keepRemote, .manual]
      (.str (SaveConflictResolution.text resolution)) label).map some = _
    rw [readChoice_text (by decide) (by cases resolution <;> decide)]
    rfl

section Conflicts

variable (digest : ConflictId → Text)

theorem reads_conflict : Reads (conflictToDict digest) (conflictFromDict digest) sortedConflict
    (fun conflict => validateConflict conflict = .ok () ∧ Receipted conflict) where
  back := by
    intro conflict hgood label
    obtain ⟨hgood, hresolvedAt, hrevision⟩ := hgood
    have hvalid := validateConflict_sorted hgood
    simp only [validateConflict, check_bind_eq_ok_iff, nonemptyText_eq_ok_iff] at hgood
    obtain ⟨hgid, hlid, hdetected, hseen, hbase, hlocal, hremote, hack, -⟩ := hgood
    have hside : ∀ (snapshot : SaveGroupSnapshot) (field : String),
        validateSnapshot field conflict.groupId conflict.layoutId snapshot = .ok () →
        ∀ l, readOptional snapshotFromDict (snapshotToDict snapshot) l
          = .ok (some (sortedSnapshot snapshot)) := by
      intro snapshot field hsnapshot l
      have hsome : whenSome (validateSnapshot field conflict.groupId conflict.layoutId)
          (some snapshot) = .ok () := hsnapshot
      exact reads_optional_snapshot.back (some snapshot) (snapshot_good hsome) l
    have htext : ∀ text : Option String, (∀ t, text = some t → strip t ≠ "") →
        ∀ l, readOptionalText (optionalText text) l = .ok text :=
      fun text h l => (readOptionalText_optionalText_iff _ _).mpr ⟨rfl, h⟩
    have hack : ∀ t, conflict.acknowledgedAt = some t → strip t ≠ "" := by simpa using hack
    have hid := fingerprint_sorted conflict
    unfold conflictFromDict conflictToDict
    rw [readMapping_obj, ok_bind]
    simp only [Json.get, Json.getOr, Json.lookup, ↓reduceIte, String.reduceEq, Option.getD_some]
    rw [readOptional_resolution, ok_bind, hside _ _ hlocal, ok_bind, hside _ _ hremote, ok_bind]
    dsimp only
    rw [readNonemptyText_str (digest _).property, ok_bind, readNonemptyText_str hgid, ok_bind,
      readNonemptyText_str hlid, ok_bind, readNonemptyText_str hdetected, ok_bind,
      readNonemptyText_str hseen, ok_bind, reads_optional_snapshot.back _ (snapshot_good hbase),
      ok_bind, htext _ hack, ok_bind, htext _ hresolvedAt, ok_bind, htext _ hrevision, ok_bind]
    show (validateConflict (sortedConflict conflict) >>= fun _ =>
      require ((digest (fingerprint conflict)).val
        = (digest (fingerprint (sortedConflict conflict))).val) (.mismatchedConflictId label)
      >>= fun _ => Except.ok (sortedConflict conflict)) = _
    rw [hvalid, ok_bind, hid, (require_eq_ok_iff _ _).mpr rfl, ok_bind]
  sound := by
    intro payload label conflict hread
    unfold conflictFromDict at hread
    obtain ⟨data, -, hread⟩ := bind_eq_ok hread
    obtain ⟨resolution, -, hread⟩ := bind_eq_ok hread
    obtain ⟨localRead, hlocal, hread⟩ := bind_eq_ok hread
    obtain ⟨remoteRead, hremote, hread⟩ := bind_eq_ok hread
    cases localRead with
    | none => exact absurd hread (by simp)
    | some localSnapshot =>
      cases remoteRead with
      | none => exact absurd hread (by simp)
      | some remoteSnapshot =>
        dsimp only at hread
        obtain ⟨conflictId, -, hread⟩ := bind_eq_ok hread
        obtain ⟨gid, -, hread⟩ := bind_eq_ok hread
        obtain ⟨layoutId, -, hread⟩ := bind_eq_ok hread
        obtain ⟨detectedAt, -, hread⟩ := bind_eq_ok hread
        obtain ⟨lastSeenAt, -, hread⟩ := bind_eq_ok hread
        obtain ⟨baseline, hbase, hread⟩ := bind_eq_ok hread
        obtain ⟨acknowledgedAt, -, hread⟩ := bind_eq_ok hread
        obtain ⟨resolvedAt, hresolvedAt, hread⟩ := bind_eq_ok hread
        obtain ⟨revision, hrevision, hread⟩ := bind_eq_ok hread
        rw [check_bind_eq_ok_iff, check_bind_eq_ok_iff] at hread
        rw [← Except.ok.inj hread.2.2]
        refine ⟨⟨hread.1, strip_of_readOptionalText hresolvedAt,
          strip_of_readOptionalText hrevision⟩, ?_⟩
        have hlocal := (reads_optional_snapshot.sound _ _ _ hlocal).2
        have hremote := (reads_optional_snapshot.sound _ _ _ hremote).2
        rw [Option.map_some, Option.some.injEq] at hlocal hremote
        unfold sortedConflict
        dsimp only
        rw [(reads_optional_snapshot.sound _ _ _ hbase).2, hlocal, hremote]

/-- A conflict that is read back from its own record has no blank receipt. -/
theorem receipted_of_read {conflict read : SaveConflictRecord} {label : String}
    (h : conflictFromDict digest (conflictToDict digest conflict) label = .ok read) :
    Receipted conflict := by
  unfold conflictFromDict conflictToDict at h
  rw [readMapping_obj, ok_bind] at h
  simp only [Json.get, Json.getOr, Json.lookup, ↓reduceIte, String.reduceEq,
    Option.getD_some] at h
  obtain ⟨resolution, -, h⟩ := bind_eq_ok h
  obtain ⟨localRead, -, h⟩ := bind_eq_ok h
  obtain ⟨remoteRead, -, h⟩ := bind_eq_ok h
  cases localRead with
  | none => exact absurd h (by simp)
  | some localSnapshot =>
    cases remoteRead with
    | none => exact absurd h (by simp)
    | some remoteSnapshot =>
      dsimp only at h
      obtain ⟨conflictId, -, h⟩ := bind_eq_ok h
      obtain ⟨gid, -, h⟩ := bind_eq_ok h
      obtain ⟨layoutId, -, h⟩ := bind_eq_ok h
      obtain ⟨detectedAt, -, h⟩ := bind_eq_ok h
      obtain ⟨lastSeenAt, -, h⟩ := bind_eq_ok h
      obtain ⟨baseline, -, h⟩ := bind_eq_ok h
      obtain ⟨acknowledgedAt, -, h⟩ := bind_eq_ok h
      obtain ⟨resolvedAt, hresolvedAt, h⟩ := bind_eq_ok h
      obtain ⟨revision, hrevision, h⟩ := bind_eq_ok h
      exact ⟨((readOptionalText_optionalText_iff _ _).mp hresolvedAt).2,
        ((readOptionalText_optionalText_iff _ _).mp hrevision).2⟩

end Conflicts

/-! ### Container baselines -/

/-- An entry has the texts a document needs. -/
def EntryTexts (entry : String × String × ℕ) : Prop := strip entry.1 ≠ "" ∧ strip entry.2.1 ≠ ""

theorem reads_entry : Reads entryToDict entryFromDict id EntryTexts where
  back := by
    intro entry hgood label
    unfold entryFromDict entryToDict
    rw [readMapping_obj, ok_bind]
    simp only [Json.get, Json.getOr, Json.lookup, ↓reduceIte, String.reduceEq, Option.getD_some]
    rw [readInt_int, ok_bind, readNonemptyText_str hgood.1, ok_bind,
      readNonemptyText_str hgood.2, ok_bind, nonnegative_natCast, ok_bind, id]
  sound := by
    intro payload label entry hread
    unfold entryFromDict at hread
    obtain ⟨data, -, hread⟩ := bind_eq_ok hread
    obtain ⟨size, -, hread⟩ := bind_eq_ok hread
    obtain ⟨identity, hidentity, hread⟩ := bind_eq_ok hread
    obtain ⟨canonicalHash, hhash, hread⟩ := bind_eq_ok hread
    obtain ⟨sizeBytes, -, hread⟩ := bind_eq_ok hread
    rw [← Except.ok.inj hread]
    exact ⟨⟨strip_of_readNonemptyText hidentity, strip_of_readNonemptyText hhash⟩, rfl⟩

/-- A domain with its entries in order. -/
def sortedDomain (domain : String × List (String × String × ℕ)) :
    String × List (String × String × ℕ) :=
  (domain.1, sortOn Prod.fst domain.2)

theorem reads_domain : Reads domainToDict domainFromDict sortedDomain
    (fun domain => strip domain.1 ≠ "" ∧ ∀ entry ∈ domain.2, EntryTexts entry) where
  back := by
    intro domain hgood label
    unfold domainFromDict domainToDict
    rw [readMapping_obj, ok_bind]
    simp only [Json.get, Json.getOr, Json.lookup, ↓reduceIte, String.reduceEq, Option.getD_some]
    rw [readList_arr, ok_bind, reads_entry.each _ hgood.2, ok_bind,
      readNonemptyText_str hgood.1, ok_bind, List.map_id]
    rfl
  sound := by
    intro payload label domain hread
    unfold domainFromDict at hread
    obtain ⟨data, -, hread⟩ := bind_eq_ok hread
    obtain ⟨values, -, hread⟩ := bind_eq_ok hread
    obtain ⟨entries, hentries, hread⟩ := bind_eq_ok hread
    obtain ⟨domainId, hid, hread⟩ := bind_eq_ok hread
    rw [← Except.ok.inj hread]
    obtain ⟨hgood, -⟩ := reads_entry.sound_each hentries
    refine ⟨⟨strip_of_readNonemptyText hid, ?_⟩, ?_⟩
    · exact fun entry hentry => hgood entry ((mem_sortOn _ _ _).mp hentry)
    · unfold sortedDomain
      rw [sortOn_sortOn]

theorem validateEntries_eq_ok_iff (seen : List String) (entries : List (String × String × ℕ)) :
    validateEntries seen entries = .ok ()
      ↔ (∀ entry ∈ entries, strip entry.1 ≠ "" ∧ isDigest entry.2.1 = true)
        ∧ (entries.map Prod.fst).Nodup ∧ ∀ entry ∈ entries, entry.1 ∉ seen := by
  unfold validateEntries
  rw [checkEach_seen_iff]
  simp only [nonemptyText_eq_ok_iff, require_eq_ok_iff]

/-- What the loop over the domains asks: no domain, and no identity of an entry, twice. -/
theorem validateDomains_eq_ok_iff (domainIds entryIds : List String)
    (domains : List (String × List (String × String × ℕ))) :
    validateDomains domainIds entryIds domains = .ok ()
      ↔ (∀ domain ∈ domains, strip domain.1 ≠ "" ∧ domain.1 ∉ domainIds
          ∧ ∀ entry ∈ domain.2, strip entry.1 ≠ "" ∧ isDigest entry.2.1 = true
            ∧ entry.1 ∉ entryIds)
        ∧ (domains.map Prod.fst).Nodup
        ∧ (domains.flatMap (fun domain => domain.2.map Prod.fst)).Nodup := by
  induction domains generalizing domainIds entryIds with
  | nil => simp [validateDomains]
  | cons domain rest ih =>
    rw [validateDomains, check_bind_eq_ok_iff, check_bind_eq_ok_iff, check_bind_eq_ok_iff,
      nonemptyText_eq_ok_iff, require_eq_ok_iff, validateEntries_eq_ok_iff, ih,
      List.forall_mem_cons, List.map_cons, List.nodup_cons, List.flatMap_cons, List.nodup_append]
    -- what the rest has not in common with the head is what it must not have been seen to have
    simp only [List.mem_cons, List.mem_append, List.mem_map, List.mem_flatMap, not_or, not_exists,
      not_and, ne_eq]
    constructor
    · intro h
      obtain ⟨hid, hnew, ⟨hentries, hnodup, hseen⟩, hrest, hids, hidentities⟩ := h
      refine ⟨⟨⟨hid, hnew, fun e he => ⟨(hentries e he).1, (hentries e he).2, hseen e he⟩⟩, ?_⟩,
        ⟨?_, hids⟩, hnodup, hidentities, ?_⟩
      · intro d hd
        obtain ⟨h1, h2, h3⟩ := hrest d hd
        exact ⟨h1, h2.2, fun e he => ⟨(h3 e he).1, (h3 e he).2.1, (h3 e he).2.2.2⟩⟩
      · intro d hd heq
        exact (hrest d hd).2.1.1 heq
      · intro a ha b hb hab
        obtain ⟨e, he, hea⟩ := ha
        obtain ⟨d, hd, e', he', heb⟩ := hb
        exact ((hrest d hd).2.2 e' he').2.2.1 e he (by rw [hea, hab, heb])
    · intro h
      obtain ⟨⟨⟨hid, hnew, hentries⟩, hrest⟩, ⟨hhead, hids⟩, hnodup, hidentities, hapart⟩ := h
      refine ⟨hid, hnew, ⟨fun e he => ⟨(hentries e he).1, (hentries e he).2.1⟩, hnodup,
        fun e he => (hentries e he).2.2⟩, ?_, hids, hidentities⟩
      intro d hd
      obtain ⟨h1, h2, h3⟩ := hrest d hd
      refine ⟨h1, ⟨hhead d hd, h2⟩, ?_⟩
      intro e he
      refine ⟨(h3 e he).1, (h3 e he).2.1, ?_, (h3 e he).2.2⟩
      intro e' he' heq
      exact hapart _ ⟨e', he', rfl⟩ _ ⟨d, hd, e, he, rfl⟩ heq

/-- A container baseline with its domains, entries and tombstones in order. -/
def sortedBaseline (baseline : ContainerBaseline) : ContainerBaseline :=
  { baseline with
    domains := sortOn Prod.fst (baseline.domains.map sortedDomain)
    tombstones := sortOn id baseline.tombstones }

theorem sortedDomain_perm (domains : List (String × List (String × String × ℕ))) :
    (sortOn Prod.fst (domains.map sortedDomain)).Perm (domains.map sortedDomain) :=
  sortOn_perm _ _

theorem validateDomains_sorted {domains : List (String × List (String × String × ℕ))}
    (h : validateDomains [] [] domains = .ok ()) :
    validateDomains [] [] (sortOn Prod.fst (domains.map sortedDomain)) = .ok () := by
  rw [validateDomains_eq_ok_iff] at h ⊢
  obtain ⟨heach, hids, hidentities⟩ := h
  refine ⟨?_, ?_, ?_⟩
  · intro domain hdomain
    rw [mem_sortOn, List.mem_map] at hdomain
    obtain ⟨original, horiginal, rfl⟩ := hdomain
    obtain ⟨hid, hnew, hentries⟩ := heach original horiginal
    exact ⟨hid, hnew, fun entry hentry => hentries entry ((mem_sortOn _ _ _).mp hentry)⟩
  · exact nodup_sortOn_map Prod.fst Prod.fst sortedDomain (fun _ => rfl) hids
  · rw [((sortedDomain_perm domains).flatMap_right _).nodup_iff, List.flatMap_map]
    have hsame : (domains.flatMap fun domain => (sortedDomain domain).2.map Prod.fst).Perm
        (domains.flatMap fun domain => domain.2.map Prod.fst) :=
      List.Perm.flatMap_left _ (fun domain _ => (sortOn_perm Prod.fst domain.2).map _)
    exact hsame.nodup_iff.mpr hidentities

theorem validateContainerBaseline_sorted {baseline : ContainerBaseline}
    (h : validateContainerBaseline baseline = .ok ()) :
    validateContainerBaseline (sortedBaseline baseline) = .ok () := by
  simp only [validateContainerBaseline, check_bind_eq_ok_iff, checkAll_eq_ok_iff,
    require_eq_ok_iff] at h ⊢
  obtain ⟨hid, hadapter, hschema, hformat, hdomains, hnodup, htombstones, hapart⟩ := h
  refine ⟨hid, hadapter, hschema, hformat, validateDomains_sorted hdomains, ?_, ?_, ?_⟩
  · exact (sortOn_perm id baseline.tombstones).nodup_iff.mpr hnodup
  · exact fun domain hdomain => htombstones domain ((mem_sortOn _ _ _).mp hdomain)
  · intro domain hdomain hmem
    have hdomain := (mem_sortOn _ _ _).mp hdomain
    obtain ⟨original, horiginal, rfl⟩ := List.mem_map.mp hdomain
    exact hapart original horiginal ((mem_sortOn _ _ _).mp hmem)

/-- Sorting items in normal form leaves them in normal form. -/
theorem map_sortOn_of_normal {α κ : Type} [LinearOrder κ] {key : α → κ} {normal : α → α}
    {items : List α} (h : items.map normal = items) :
    (sortOn key items).map normal = sortOn key items := by
  have heach : ∀ a ∈ items, normal a = id a := by
    rw [← List.map_inj_left, List.map_id]
    exact h
  calc (sortOn key items).map normal
      = (sortOn key items).map id :=
        List.map_inj_left.mpr (fun a ha => heach a ((mem_sortOn _ _ _).mp ha))
    _ = sortOn key items := List.map_id _

theorem reads_baseline : Reads containerBaselineToDict containerBaselineFromDict sortedBaseline
    (fun baseline => validateContainerBaseline baseline = .ok ()) where
  back := by
    intro baseline hgood label
    have hvalid := validateContainerBaseline_sorted hgood
    simp only [validateContainerBaseline, check_bind_eq_ok_iff, checkAll_eq_ok_iff,
      nonemptyText_eq_ok_iff] at hgood
    obtain ⟨hid, hadapter, -, hformat, hdomains, -, htombstones, -⟩ := hgood
    have hgood : ∀ domain ∈ baseline.domains,
        strip domain.1 ≠ "" ∧ ∀ entry ∈ domain.2, EntryTexts entry := by
      intro domain hdomain
      obtain ⟨hdomainId, -, hentries⟩ :=
        ((validateDomains_eq_ok_iff _ _ _).mp hdomains).1 domain hdomain
      exact ⟨hdomainId, fun entry hentry =>
        ⟨(hentries entry hentry).1, strip_of_isDigest (hentries entry hentry).2.1⟩⟩
    have hitems : ∀ l, readItems readNonemptyText (.arr (baseline.tombstones.map .str)) l
        = .ok baseline.tombstones :=
      fun l => readItems_str (fun domain hdomain => readNonemptyText_str (htombstones domain hdomain))
    unfold containerBaselineFromDict containerBaselineToDict
    rw [readMapping_obj, ok_bind]
    simp only [Json.get, Json.getOr, Json.lookup, ↓reduceIte, String.reduceEq, Option.getD_some]
    rw [readList_arr, ok_bind, reads_domain.each _ hgood, ok_bind, readInt_int, ok_bind,
      readCanonicalPath_str hid, ok_bind, readNonemptyText_str hadapter, ok_bind,
      readNonemptyText_str hformat, ok_bind, hitems, ok_bind, nonnegative_natCast, ok_bind]
    show (validateContainerBaseline (sortedBaseline baseline)
      >>= fun _ => Except.ok (sortedBaseline baseline)) = _
    rw [hvalid, ok_bind]
  sound := by
    intro payload label baseline hread
    unfold containerBaselineFromDict at hread
    obtain ⟨data, -, hread⟩ := bind_eq_ok hread
    obtain ⟨values, -, hread⟩ := bind_eq_ok hread
    obtain ⟨domains, hdomains, hread⟩ := bind_eq_ok hread
    obtain ⟨schema, -, hread⟩ := bind_eq_ok hread
    obtain ⟨containerId, -, hread⟩ := bind_eq_ok hread
    obtain ⟨adapterId, -, hread⟩ := bind_eq_ok hread
    obtain ⟨formatVariant, -, hread⟩ := bind_eq_ok hread
    obtain ⟨tombstones, -, hread⟩ := bind_eq_ok hread
    obtain ⟨schemaVersion, -, hread⟩ := bind_eq_ok hread
    rw [check_bind_eq_ok_iff] at hread
    rw [← Except.ok.inj hread.2]
    refine ⟨hread.1, ?_⟩
    have hnormal := (reads_domain.sound_each hdomains).2
    unfold sortedBaseline
    dsimp only
    rw [map_sortOn_of_normal hnormal, sortOn_sortOn, sortOn_sortOn]

/-! ### Receipts, reports and observations -/

/-- A receipt with its manifest in order. -/
def sortedRecord (record : SaveSyncRecord) : SaveSyncRecord :=
  { record with manifest := sortedArtifacts record.manifest }

theorem validateRecord_eq_ok_iff (label : String) (record : SaveSyncRecord) :
    validateRecord label record = .ok ()
      ↔ strip record.revision ≠ "" ∧ strip record.timestamp ≠ "" ∧ strip record.deviceId ≠ ""
        ∧ validateArtifacts record.manifest "" = .ok () := by
  simp only [validateRecord, check_bind_eq_ok_iff, nonemptyText_eq_ok_iff,
    validateArtifacts_eq_ok_iff]

theorem validateRecord_sorted {label : String} {record : SaveSyncRecord}
    (h : validateRecord label record = .ok ()) :
    validateRecord label (sortedRecord record) = .ok () := by
  rw [validateRecord_eq_ok_iff] at h ⊢
  exact ⟨h.1, h.2.1, h.2.2.1, validateArtifacts_sorted _ h.2.2.2⟩

theorem reads_record : Reads recordToDict recordFromDict sortedRecord
    (fun record => validateRecord "" record = .ok ()) where
  back := by
    intro record hgood label
    rw [validateRecord_eq_ok_iff] at hgood
    have hvalid : validateRecord label (sortedRecord record) = .ok () :=
      validateRecord_sorted ((validateRecord_eq_ok_iff _ _).mpr hgood)
    obtain ⟨hrevision, htimestamp, hdevice, hmanifest⟩ := hgood
    unfold recordFromDict recordToDict
    rw [readMapping_obj, ok_bind]
    simp only [Json.get, Json.getOr, Json.lookup, ↓reduceIte, String.reduceEq, Option.getD_some]
    rw [readNonemptyText_str hrevision, ok_bind, readNonemptyText_str htimestamp, ok_bind,
      readNonemptyText_str hdevice, ok_bind, artifactsFromList_map hmanifest, ok_bind]
    show (validateRecord label (sortedRecord record)
      >>= fun _ => Except.ok (sortedRecord record)) = _
    rw [hvalid, ok_bind]
  sound := by
    intro payload label record hread
    unfold recordFromDict at hread
    obtain ⟨data, -, hread⟩ := bind_eq_ok hread
    obtain ⟨revision, -, hread⟩ := bind_eq_ok hread
    obtain ⟨timestamp, -, hread⟩ := bind_eq_ok hread
    obtain ⟨deviceId, -, hread⟩ := bind_eq_ok hread
    obtain ⟨manifest, hmanifest, hread⟩ := bind_eq_ok hread
    rw [check_bind_eq_ok_iff] at hread
    rw [← Except.ok.inj hread.2]
    refine ⟨(validateRecord_eq_ok_iff _ _).mpr ((validateRecord_eq_ok_iff _ _).mp hread.1), ?_⟩
    unfold sortedRecord
    rw [artifactsFromList_sound hmanifest]

theorem reads_report : Reads reportToDict reportFromDict id
    (fun report => validateReport report = .ok ()) where
  back := by
    intro report hvalid label
    have hgood := hvalid
    simp only [validateReport, check_bind_eq_ok_iff, checkAll_eq_ok_iff, nonemptyText_eq_ok_iff]
      at hgood
    obtain ⟨hrevision, htimestamp, hscope, hpaths⟩ := hgood
    have hitems : ∀ l, readItems readCanonicalPath (.arr (report.conflictPaths.map .str)) l
        = .ok report.conflictPaths :=
      fun l => readItems_str (fun path hpath => readCanonicalPath_str (hpaths path hpath))
    unfold reportFromDict reportToDict
    rw [readMapping_obj, ok_bind]
    simp only [Json.get, Json.getOr, Json.lookup, ↓reduceIte, String.reduceEq, Option.getD_some]
    rw [readNonemptyText_str hrevision, ok_bind, readNonemptyText_str htimestamp, ok_bind,
      readNonnegativeInt_natCast, ok_bind, readNonnegativeInt_natCast, ok_bind,
      readNonnegativeInt_natCast, ok_bind, readNonnegativeInt_natCast, ok_bind,
      readNonnegativeInt_natCast, ok_bind, readNonnegativeInt_natCast, ok_bind, hitems, ok_bind,
      readNonemptyText_str hscope, ok_bind, Json.truthy_bool]
    show (validateReport report >>= fun _ => Except.ok report) = _
    rw [hvalid, ok_bind, id]
  sound := by
    intro payload label report hread
    unfold reportFromDict at hread
    obtain ⟨data, -, hread⟩ := bind_eq_ok hread
    obtain ⟨revision, -, hread⟩ := bind_eq_ok hread
    obtain ⟨timestamp, -, hread⟩ := bind_eq_ok hread
    obtain ⟨uploaded, -, hread⟩ := bind_eq_ok hread
    obtain ⟨downloaded, -, hread⟩ := bind_eq_ok hread
    obtain ⟨conflicts, -, hread⟩ := bind_eq_ok hread
    obtain ⟨unchanged, -, hread⟩ := bind_eq_ok hread
    obtain ⟨uploadBytes, -, hread⟩ := bind_eq_ok hread
    obtain ⟨downloadBytes, -, hread⟩ := bind_eq_ok hread
    obtain ⟨conflictPaths, -, hread⟩ := bind_eq_ok hread
    obtain ⟨scope, -, hread⟩ := bind_eq_ok hread
    rw [check_bind_eq_ok_iff] at hread
    rw [← Except.ok.inj hread.2]
    exact ⟨hread.1, rfl⟩

theorem remoteFromDict_remoteToDict {observation : SaveRemoteObservation}
    (h : validateRemote observation = .ok ()) :
    remoteFromDict (remoteToDict observation) = .ok observation := by
  have hchecked : ∀ l, readOptionalText (optionalText observation.checkedAt) l
      = .ok observation.checkedAt := by
    intro l
    rw [readOptionalText_optionalText_iff]
    simpa [validateRemote] using h
  have havailability : ∀ l, readChoice SaveRemoteAvailability.text
      [.unknown, .available, .unavailable]
      (.str (SaveRemoteAvailability.text observation.availability)) l
        = .ok observation.availability :=
    fun l => readChoice_text (by decide) (by cases observation.availability <;> decide)
  unfold remoteFromDict remoteToDict
  rw [readMapping_obj, ok_bind]
  simp only [Json.get, Json.getOr, Json.lookup, ↓reduceIte, String.reduceEq, Option.getD_some]
  rw [havailability, ok_bind, hchecked, ok_bind, readText_str, ok_bind]
  show (validateRemote observation >>= fun _ => Except.ok observation) = _
  rw [h, ok_bind]

theorem reads_operation : Reads operationToDict operationFromDict id
    (fun operation => validateOperation operation = .ok ()) where
  back := by
    intro operation hvalid label
    have hgood := hvalid
    simp only [validateOperation, check_bind_eq_ok_iff, checkAll_eq_ok_iff,
      nonemptyText_eq_ok_iff] at hgood
    obtain ⟨hid, hdirection, hphase, hstarted, -, hgroups⟩ := hgood
    have hitems : ∀ l, readItems readNonemptyText (.arr (operation.groupIds.map .str)) l
        = .ok operation.groupIds :=
      fun l => readItems_str (fun gid hgid => readNonemptyText_str (hgroups gid hgid))
    unfold operationFromDict operationToDict
    rw [readMapping_obj, ok_bind]
    simp only [Json.get, Json.getOr, Json.lookup, ↓reduceIte, String.reduceEq, Option.getD_some]
    rw [readNonemptyText_str hid, ok_bind, readNonemptyText_str hdirection, ok_bind,
      readNonemptyText_str hphase, ok_bind, readNonemptyText_str hstarted, ok_bind, hitems, ok_bind]
    show (validateOperation operation >>= fun _ => Except.ok operation) = _
    rw [hvalid, ok_bind, id]
  sound := by
    intro payload label operation hread
    unfold operationFromDict at hread
    obtain ⟨data, -, hread⟩ := bind_eq_ok hread
    obtain ⟨operationId, -, hread⟩ := bind_eq_ok hread
    obtain ⟨direction, -, hread⟩ := bind_eq_ok hread
    obtain ⟨phase, -, hread⟩ := bind_eq_ok hread
    obtain ⟨startedAt, -, hread⟩ := bind_eq_ok hread
    obtain ⟨groupIds, -, hread⟩ := bind_eq_ok hread
    rw [check_bind_eq_ok_iff] at hread
    rw [← Except.ok.inj hread.2]
    exact ⟨hread.1, rfl⟩

theorem reads_error : Reads errorToDict errorFromDict id
    (fun error => validateError error = .ok ()) where
  back := by
    intro error hvalid label
    have hgood := hvalid
    simp only [validateError, check_bind_eq_ok_iff, whenSome_eq_ok_iff, nonemptyText_eq_ok_iff]
      at hgood
    obtain ⟨hcode, hmessage, hoccurred, hoperation⟩ := hgood
    have hread : ∀ l, readOptionalText (optionalText error.operationId) l
        = .ok error.operationId :=
      fun l => (readOptionalText_optionalText_iff _ _).mpr ⟨rfl, hoperation⟩
    unfold errorFromDict errorToDict
    rw [readMapping_obj, ok_bind]
    simp only [Json.get, Json.getOr, Json.lookup, ↓reduceIte, String.reduceEq, Option.getD_some]
    rw [readNonemptyText_str hcode, ok_bind, readNonemptyText_str hmessage, ok_bind,
      readNonemptyText_str hoccurred, ok_bind, hread, ok_bind]
    show (validateError error >>= fun _ => Except.ok error) = _
    rw [hvalid, ok_bind, id]
  sound := by
    intro payload label error hread
    unfold errorFromDict at hread
    obtain ⟨data, -, hread⟩ := bind_eq_ok hread
    obtain ⟨code, -, hread⟩ := bind_eq_ok hread
    obtain ⟨message, -, hread⟩ := bind_eq_ok hread
    obtain ⟨occurredAt, -, hread⟩ := bind_eq_ok hread
    obtain ⟨operationId, -, hread⟩ := bind_eq_ok hread
    rw [check_bind_eq_ok_iff] at hread
    rw [← Except.ok.inj hread.2]
    exact ⟨hread.1, rfl⟩

/-! ### The document -/

section Document

variable (digest : ConflictId → Text)

/-- A state as it is read back: with artifacts, groups, conflicts, container baselines, domains,
    entries and tombstones in order. -/
def sortedState (state : DurableState) : DurableState :=
  { state with
    lastUpload := state.lastUpload.map sortedRecord
    lastDownload := state.lastDownload.map sortedRecord
    sharedManifest := sortedArtifacts state.sharedManifest
    groups := sortOn SaveGroupState.groupId (state.groups.map sortedGroup)
    conflicts := sortOn (fun conflict => (digest (fingerprint conflict)).val)
      (state.conflicts.map sortedConflict)
    containerBaselines := sortOn ContainerBaseline.containerId
      (state.containerBaselines.map sortedBaseline) }

/-- No conflict has a blank receipt of its resolution. -/
def NoBlankReceipt (state : DurableState) : Prop :=
  ∀ conflict ∈ state.conflicts, Receipted conflict

/-- The group of an id, once the groups are in order. -/
theorem groupOf_sorted {groups : List SaveGroupState}
    (h : (groups.map SaveGroupState.groupId).Nodup) (gid : GroupId) :
    groupOf (sortOn SaveGroupState.groupId (groups.map sortedGroup)) gid
      = (groupOf groups gid).map sortedGroup := by
  have hnodup : ((sortOn SaveGroupState.groupId (groups.map sortedGroup)).map
      SaveGroupState.groupId).Nodup :=
    nodup_sortOn_map _ SaveGroupState.groupId sortedGroup (fun _ => rfl) h
  refine Option.ext ?_
  intro group
  rw [groupOf_eq_some_iff hnodup, mem_sortOn, List.mem_map, Option.map_eq_some_iff]
  constructor
  · intro hgroup
    obtain ⟨⟨original, horiginal, rfl⟩, hid⟩ := hgroup
    exact ⟨original, (groupOf_eq_some_iff h gid original).mpr ⟨horiginal, hid⟩, rfl⟩
  · intro hgroup
    obtain ⟨original, horiginal, rfl⟩ := hgroup
    obtain ⟨hmem, hid⟩ := (groupOf_eq_some_iff h gid original).mp horiginal
    exact ⟨⟨original, hmem, rfl⟩, hid⟩

/-- A valid state is valid in order. -/
theorem validateState_sorted {state : DurableState} (h : validateState state = .ok ()) :
    validateState (sortedState digest state) = .ok () := by
  have hgroupsOk := groupsOk_of_validateState h
  simp only [validateState, check_bind_eq_ok_iff, checkEach_eq_ok_iff] at h ⊢
  obtain ⟨hdevice, hupload, hdownload, hshared, hreport, ⟨hgroups, hgids⟩, ⟨hconflicts, hcids⟩,
    ⟨hbaselines, hbids⟩, hrest⟩ := h
  have hrecord : ∀ (label : String) (record : Option SaveSyncRecord),
      whenSome (validateRecord label) record = .ok () →
      whenSome (validateRecord label) (record.map sortedRecord) = .ok () := by
    intro label record hrecord
    rw [whenSome_eq_ok_iff] at hrecord ⊢
    intro sorted hsorted
    obtain ⟨original, horiginal, rfl⟩ := Option.map_eq_some_iff.mp hsorted
    exact validateRecord_sorted (hrecord original horiginal)
  refine ⟨hdevice, hrecord _ _ hupload, hrecord _ _ hdownload, validateArtifacts_sorted _ hshared,
    hreport, ⟨?_, ?_⟩, ⟨?_, ?_⟩, ⟨?_, ?_⟩, hrest⟩
  · intro group hgroup
    obtain ⟨original, horiginal, rfl⟩ := List.mem_map.mp ((mem_sortOn _ _ _).mp hgroup)
    exact ⟨validateGroup_sorted (hgroups original horiginal).1, trivial⟩
  · exact nodup_sortOn_map SaveGroupState.groupId SaveGroupState.groupId sortedGroup
      (fun _ => rfl) hgids
  · intro conflict hconflict
    obtain ⟨original, horiginal, rfl⟩ := List.mem_map.mp ((mem_sortOn _ _ _).mp hconflict)
    obtain ⟨hvalid, hactive⟩ := hconflicts original horiginal
    refine ⟨validateConflict_sorted hvalid, ?_⟩
    rw [checkActive_eq_ok_iff] at hactive ⊢
    intro hopen
    obtain ⟨group, hgroup, hlayout, hcondition⟩ := hactive hopen
    refine ⟨sortedGroup group, ?_, hlayout, hcondition⟩
    show groupOf (sortOn SaveGroupState.groupId (state.groups.map sortedGroup)) original.groupId = _
    rw [groupOf_sorted hgroupsOk.nodup, hgroup]
    rfl
  · exact nodup_sortOn_map _ fingerprint sortedConflict fingerprint_sorted hcids
  · intro baseline hbaseline
    obtain ⟨original, horiginal, rfl⟩ := List.mem_map.mp ((mem_sortOn _ _ _).mp hbaseline)
    exact ⟨validateContainerBaseline_sorted (hbaselines original horiginal).1, trivial⟩
  · exact nodup_sortOn_map ContainerBaseline.containerId ContainerBaseline.containerId
      sortedBaseline (fun _ => rfl) hbids

/-- What the checks of a state ask of its parts. -/
theorem parts_of_validateState {state : DurableState} (h : validateState state = .ok ()) :
    strip state.deviceId ≠ ""
      ∧ (∀ record, state.lastUpload = some record → validateRecord "" record = .ok ())
      ∧ (∀ record, state.lastDownload = some record → validateRecord "" record = .ok ())
      ∧ validateArtifacts state.sharedManifest "" = .ok ()
      ∧ (∀ report, state.lastReconcile = some report → validateReport report = .ok ())
      ∧ (∀ baseline ∈ state.containerBaselines, validateContainerBaseline baseline = .ok ())
      ∧ validateRemote state.remoteObservation = .ok ()
      ∧ (∀ operation, state.activeOperation = some operation → validateOperation operation = .ok ())
      ∧ (∀ error, state.lastError = some error → validateError error = .ok ())
      ∧ ∀ id, state.lastCompletedOperationId = some id → strip id ≠ "" := by
  simp only [validateState, check_bind_eq_ok_iff, checkEach_eq_ok_iff, whenSome_eq_ok_iff,
    nonemptyText_eq_ok_iff] at h
  obtain ⟨hdevice, hupload, hdownload, hshared, hreport, -, -, ⟨hbaselines, -⟩, hremote, hactive,
    herror, hcompleted, -⟩ := h
  refine ⟨hdevice, ?_, ?_, ?_, hreport, fun baseline hmem => (hbaselines baseline hmem).1, hremote,
    hactive, herror, hcompleted⟩
  · exact fun record hrecord =>
      (validateRecord_eq_ok_iff _ _).mpr ((validateRecord_eq_ok_iff _ _).mp (hupload record hrecord))
  · exact fun record hrecord => (validateRecord_eq_ok_iff _ _).mpr
      ((validateRecord_eq_ok_iff _ _).mp (hdownload record hrecord))
  · exact (validateArtifacts_eq_ok_iff _ _).mpr ((validateArtifacts_eq_ok_iff _ _).mp hshared)

/-- **Read back.** A valid state without a blank receipt is read back in order. -/
theorem stateFromDict_stateDict {state : DurableState} (h : validateState state = .ok ())
    (hreceipts : NoBlankReceipt state) :
    stateFromDict digest (stateDict digest state) = .ok (sortedState digest state) := by
  have hvalid := validateState_sorted digest h
  have hgroups := groupsOk_of_validateState h
  have hconflicts := conflictsOk_of_validateState h
  obtain ⟨hdevice, hupload, hdownload, hshared, hreport, hbaselines, hremote, hactive, herror,
    hcompleted⟩ := parts_of_validateState h
  have hrecord := Reads.optional reads_record (fun _ => by simp [recordToDict])
  have hreports := Reads.optional reads_report (fun _ => by simp [reportToDict])
  have hoperations := Reads.optional reads_operation (fun _ => by simp [operationToDict])
  have herrors := Reads.optional reads_error (fun _ => by simp [errorToDict])
  have hversion : ∀ (version : ℕ) (rest : List (String × Json)), 1 ≤ version →
      documentVersion (("version", .int version) :: rest) = .ok version := by
    intro version rest hpositive
    unfold documentVersion
    simp only [Json.get, Json.getOr, Json.lookup, ↓reduceIte, Option.getD_some]
    rw [if_neg (by omega), Int.toNat_natCast]
  have hgroupList : groupsFromList (.arr (state.groups.map groupToDict))
      = .ok (sortOn SaveGroupState.groupId (state.groups.map sortedGroup)) := by
    unfold groupsFromList
    rw [readList_arr, ok_bind, reads_group.each _ hgroups.each, ok_bind]
  have hconflictList : conflictsFromList digest (.arr (state.conflicts.map (conflictToDict digest)))
      = .ok (sortedState digest state).conflicts := by
    unfold conflictsFromList
    rw [readList_arr, ok_bind, (reads_conflict digest).each _
      (fun c hc => ⟨hconflicts.each c hc, hreceipts c hc⟩), ok_bind]
    rfl
  have hbaselineList :
      containerBaselinesFromList (.arr (state.containerBaselines.map containerBaselineToDict))
        = .ok (sortedState digest state).containerBaselines := by
    unfold containerBaselinesFromList
    rw [readList_arr, ok_bind, reads_baseline.each _ hbaselines, ok_bind]
    rfl
  have hcompletedRead : ∀ l, readOptionalText (optionalText state.lastCompletedOperationId) l
      = .ok state.lastCompletedOperationId :=
    fun l => (readOptionalText_optionalText_iff _ _).mpr ⟨rfl, hcompleted⟩
  have hcursor : ∀ l, readOptionalNonnegativeInt (optionalDict
      (fun generation : ℕ => .int generation) state.quickSyncCursorGeneration) l
        = .ok state.quickSyncCursorGeneration := by
    intro l
    cases state.quickSyncCursorGeneration with
    | none => rfl
    | some generation =>
      show (readNonnegativeInt (.int generation) l).map some = _
      rw [readNonnegativeInt_natCast]
      rfl
  unfold stateFromDict stateDict
  rw [readMapping_obj, ok_bind, hversion _ _ (by decide), ok_bind,
    (require_eq_ok_iff _ _).mpr (le_refl _), ok_bind]
  simp only [Json.get, Json.getOr, Json.lookup, ↓reduceIte, String.reduceEq, Option.getD_some,
    sinceVersion, currentStateVersion, Nat.reduceLeDiff, le_refl]
  rw [readNonemptyText_str hdevice, ok_bind, hrecord.back _ hupload, ok_bind,
    hrecord.back _ hdownload, ok_bind, artifactsFromList_map hshared, ok_bind,
    hreports.back _ hreport, ok_bind, hgroupList, ok_bind, hconflictList, ok_bind, hbaselineList,
    ok_bind, remoteFromDict_remoteToDict hremote, ok_bind, hoperations.back _ hactive, ok_bind,
    herrors.back _ herror, ok_bind, hcompletedRead, ok_bind, hcursor, ok_bind, Json.truthy_bool,
    ok_bind]
  rw [Option.map_id, Option.map_id, Option.map_id]
  show (validateState (sortedState digest state)
    >>= fun _ => Except.ok (sortedState digest state)) = _
  rw [hvalid, ok_bind]

/-- A field a version does not have is its default. -/
theorem sinceVersion_cases {α : Type} {since version : ℕ} {default value : α} {read : Read α}
    (h : sinceVersion since version default read = .ok value) :
    read = .ok value ∨ value = default := by
  unfold sinceVersion at h
  split at h
  · exact Or.inl h
  · exact Or.inr (Except.ok.inj h).symm

/-- Groups that are read are in order. -/
theorem groupsFromList_sound {payload : Json} {groups : List SaveGroupState}
    (h : groupsFromList payload = .ok groups) :
    sortOn SaveGroupState.groupId (groups.map sortedGroup) = groups := by
  unfold groupsFromList at h
  obtain ⟨values, -, h⟩ := bind_eq_ok h
  obtain ⟨items, hitems, h⟩ := bind_eq_ok h
  rw [← Except.ok.inj h, map_sortOn_of_normal (reads_group.sound_each hitems).2, sortOn_sortOn]

/-- Conflicts that are read have no blank receipt and are in order. -/
theorem conflictsFromList_sound {payload : Json} {conflicts : List SaveConflictRecord}
    (h : conflictsFromList digest payload = .ok conflicts) :
    (∀ conflict ∈ conflicts, Receipted conflict)
      ∧ sortOn (fun conflict => (digest (fingerprint conflict)).val)
        (conflicts.map sortedConflict) = conflicts := by
  unfold conflictsFromList at h
  obtain ⟨values, -, h⟩ := bind_eq_ok h
  obtain ⟨items, hitems, h⟩ := bind_eq_ok h
  obtain ⟨hgood, hnormal⟩ := (reads_conflict digest).sound_each hitems
  rw [← Except.ok.inj h]
  refine ⟨fun conflict hc => (hgood conflict ((mem_sortOn _ _ _).mp hc)).2, ?_⟩
  rw [map_sortOn_of_normal hnormal, sortOn_sortOn]

/-- Container baselines that are read are in order. -/
theorem containerBaselinesFromList_sound {payload : Json} {baselines : List ContainerBaseline}
    (h : containerBaselinesFromList payload = .ok baselines) :
    sortOn ContainerBaseline.containerId (baselines.map sortedBaseline) = baselines := by
  unfold containerBaselinesFromList at h
  obtain ⟨values, -, h⟩ := bind_eq_ok h
  obtain ⟨items, hitems, h⟩ := bind_eq_ok h
  rw [← Except.ok.inj h, map_sortOn_of_normal (reads_baseline.sound_each hitems).2, sortOn_sortOn]

/-- The common manifest of a migrated document is in order. -/
theorem migratedManifest_sorted (version : ℕ) {lastUpload lastDownload : Option SaveSyncRecord}
    {sharedManifest : List SaveArtifact} (hupload : lastUpload.map sortedRecord = lastUpload)
    (hdownload : lastDownload.map sortedRecord = lastDownload)
    (hshared : sortedArtifacts sharedManifest = sharedManifest) :
    sortedArtifacts (migratedManifest version lastUpload lastDownload sharedManifest)
      = migratedManifest version lastUpload lastDownload sharedManifest := by
  have hmanifest : ∀ record : SaveSyncRecord, (some record).map sortedRecord = some record →
      sortedArtifacts record.manifest = record.manifest := by
    intro record h
    exact congrArg SaveSyncRecord.manifest (Option.some.inj h)
  unfold migratedManifest
  split
  · cases lastUpload with
    | none =>
      cases lastDownload with
      | none => exact hshared
      | some download => exact hmanifest download hdownload
    | some upload =>
      cases lastDownload with
      | none => exact hmanifest upload hupload
      | some download =>
        dsimp only
        split
        · exact hmanifest download hdownload
        · exact hmanifest upload hupload
  · exact hshared

/-- **What is read.** It passes its checks, is in order, and has no blank receipt. -/
theorem stateFromDict_sound {payload : Json} {state : DurableState}
    (h : stateFromDict digest payload = .ok state) :
    validateState state = .ok () ∧ NoBlankReceipt state ∧ sortedState digest state = state := by
  unfold stateFromDict at h
  obtain ⟨data, -, h⟩ := bind_eq_ok h
  obtain ⟨version, -, h⟩ := bind_eq_ok h
  rw [check_bind_eq_ok_iff] at h
  obtain ⟨-, h⟩ := h
  obtain ⟨deviceId, -, h⟩ := bind_eq_ok h
  obtain ⟨lastUpload, hupload, h⟩ := bind_eq_ok h
  obtain ⟨lastDownload, hdownload, h⟩ := bind_eq_ok h
  obtain ⟨sharedManifest, hshared, h⟩ := bind_eq_ok h
  obtain ⟨lastReconcile, -, h⟩ := bind_eq_ok h
  obtain ⟨groups, hgroups, h⟩ := bind_eq_ok h
  obtain ⟨conflicts, hconflicts, h⟩ := bind_eq_ok h
  obtain ⟨baselines, hbaselines, h⟩ := bind_eq_ok h
  obtain ⟨remoteObservation, -, h⟩ := bind_eq_ok h
  obtain ⟨activeOperation, -, h⟩ := bind_eq_ok h
  obtain ⟨lastError, -, h⟩ := bind_eq_ok h
  obtain ⟨lastCompletedOperationId, -, h⟩ := bind_eq_ok h
  obtain ⟨quickSyncCursorGeneration, -, h⟩ := bind_eq_ok h
  obtain ⟨quickSyncReady, -, h⟩ := bind_eq_ok h
  rw [check_bind_eq_ok_iff] at h
  obtain ⟨hvalid, h⟩ := h
  have hrecord := Reads.optional reads_record (fun _ => by simp [recordToDict])
  have hupload := (hrecord.sound _ _ _ hupload).2
  have hdownload := (hrecord.sound _ _ _ hdownload).2
  have hgroups : sortOn SaveGroupState.groupId (groups.map sortedGroup) = groups := by
    rcases sinceVersion_cases hgroups with h | rfl
    · exact groupsFromList_sound h
    · rfl
  have hconflicts : (∀ conflict ∈ conflicts, Receipted conflict)
      ∧ sortOn (fun conflict => (digest (fingerprint conflict)).val)
        (conflicts.map sortedConflict) = conflicts := by
    rcases sinceVersion_cases hconflicts with h | rfl
    · exact conflictsFromList_sound digest h
    · exact ⟨by simp, rfl⟩
  have hbaselines : sortOn ContainerBaseline.containerId (baselines.map sortedBaseline)
      = baselines := by
    rcases sinceVersion_cases hbaselines with h | rfl
    · exact containerBaselinesFromList_sound h
    · rfl
  rw [← Except.ok.inj h]
  refine ⟨hvalid, hconflicts.1, ?_⟩
  unfold sortedState
  dsimp only
  rw [hupload, hdownload, hgroups, hconflicts.2, hbaselines, migratedManifest_sorted version hupload
    hdownload (artifactsFromList_sound hshared)]

/-- A state that is read back at all has no blank receipt. -/
theorem noBlankReceipt_of_read {state read : DurableState}
    (h : stateFromDict digest (stateDict digest state) = .ok read) : NoBlankReceipt state := by
  unfold stateFromDict stateDict at h
  rw [readMapping_obj, ok_bind] at h
  simp only [Json.get, Json.getOr, Json.lookup, ↓reduceIte, String.reduceEq,
    Option.getD_some] at h
  obtain ⟨version, hversion, h⟩ := bind_eq_ok h
  rw [check_bind_eq_ok_iff] at h
  obtain ⟨-, h⟩ := h
  obtain ⟨deviceId, -, h⟩ := bind_eq_ok h
  obtain ⟨lastUpload, -, h⟩ := bind_eq_ok h
  obtain ⟨lastDownload, -, h⟩ := bind_eq_ok h
  obtain ⟨sharedManifest, -, h⟩ := bind_eq_ok h
  obtain ⟨lastReconcile, -, h⟩ := bind_eq_ok h
  obtain ⟨groups, -, h⟩ := bind_eq_ok h
  obtain ⟨conflicts, hconflicts, h⟩ := bind_eq_ok h
  have hversion : version = 4 := (Except.ok.inj hversion).symm
  rw [hversion] at hconflicts
  obtain ⟨values, hvalues, hconflicts⟩ := bind_eq_ok hconflicts
  obtain ⟨items, hitems, -⟩ := bind_eq_ok hconflicts
  rw [← Except.ok.inj hvalues] at hitems
  intro conflict hmem
  obtain ⟨label, item, hread⟩ := Json.exists_of_readEach hitems (List.mem_map_of_mem hmem)
  exact receipted_of_read digest hread

/-- **The encoding round-trips, but for blank receipts.** A valid state is encoded, read back in
    order, and read back the same once more, exactly if no conflict has a blank receipt of its
    resolution.  Every state that is read from a document of any version is valid, and is read back
    from its own document, of version 4. -/
theorem encoding_round_trips_iff :
    (∀ state, validateState state = .ok () →
      ((∃ document read, stateToDict digest state = .ok document
          ∧ stateFromDict digest document = .ok read
          ∧ read = sortedState digest state
          ∧ ∃ again, stateToDict digest read = .ok again ∧ stateFromDict digest again = .ok read)
        ↔ NoBlankReceipt state))
      ∧ ∀ document state, stateFromDict digest document = .ok state →
        validateState state = .ok ()
          ∧ ∃ fields, stateToDict digest state = .ok (.obj fields)
            ∧ Json.get fields "version" = .int 4
            ∧ stateFromDict digest (.obj fields) = .ok state := by
  have hencode : ∀ state, validateState state = .ok () →
      stateToDict digest state = .ok (stateDict digest state) := by
    intro state hvalid
    unfold stateToDict
    rw [hvalid, ok_bind]
  have hback : ∀ document state, stateFromDict digest document = .ok state →
      stateFromDict digest (stateDict digest state) = .ok state := by
    intro document state hread
    obtain ⟨hvalid, hreceipts, hsorted⟩ := stateFromDict_sound digest hread
    rw [stateFromDict_stateDict digest hvalid hreceipts, hsorted]
  constructor
  · intro state hvalid
    constructor
    · intro h
      obtain ⟨document, read, hdocument, hread, -⟩ := h
      rw [hencode state hvalid] at hdocument
      rw [← Except.ok.inj hdocument] at hread
      exact noBlankReceipt_of_read digest hread
    · intro hreceipts
      have hread := stateFromDict_stateDict digest hvalid hreceipts
      refine ⟨_, _, hencode state hvalid, hread, rfl, _, ?_, hback _ _ hread⟩
      exact hencode _ (validateState_sorted digest hvalid)
  · intro document state hread
    have hvalid := (stateFromDict_sound digest hread).1
    exact ⟨hvalid, _, hencode state hvalid, rfl, hback _ _ hread⟩

end Document

/-! ### A blank receipt -/

/-- A digest for runs on fixed inputs. -/
def fixedDigest (_ : ConflictId) : Text := ⟨"5c", by decide⟩

/-- A device on which a conflict was resolved at the given time. -/
def resolvedState (resolvedAt : String) : DurableState :=
  { newState "deck" with
    conflicts :=
      [{ groupId := "snes/zelda"
         layoutId := "snes"
         detectedAt := "dawn"
         lastSeenAt := "noon"
         baseline := none
         localSnapshot := ⟨"snes/zelda", "snes", [], some "dawn"⟩
         remoteSnapshot := ⟨"snes/zelda", "snes", [], none⟩
         acknowledgedAt := none
         resolvedAt := some resolvedAt
         resolution := some .keepLocal
         resolutionRevision := some "r7" }] }

/-- A resolved conflict is read back. -/
theorem resolved_state_read_back :
    ∃ document, stateToDict fixedDigest (resolvedState "dusk") = .ok document
      ∧ stateFromDict fixedDigest document
        = .ok (sortedState fixedDigest (resolvedState "dusk")) := by
  have hreceipts : NoBlankReceipt (resolvedState "dusk") := by
    intro conflict hmem
    rw [List.mem_singleton.mp hmem]
    constructor
    · intro resolvedAt h
      rw [← Option.some.inj h]
      decide
    · intro revision h
      rw [← Option.some.inj h]
      decide
  obtain ⟨document, read, hdocument, hread, rfl, -⟩ :=
    ((encoding_round_trips_iff fixedDigest).1 (resolvedState "dusk") (by decide +kernel)).mpr
      hreceipts
  exact ⟨document, hdocument, hread⟩

/-- **A state nobody can read.** A blank time of resolution passes the checks and is written, and
    the document is refused. -/
theorem blank_receipt_not_read_back :
    validateState (resolvedState " ") = .ok ()
      ∧ ∃ document, stateToDict fixedDigest (resolvedState " ") = .ok document
        ∧ stateFromDict fixedDigest document
          = .error (.emptyText "conflicts[0].resolved_at") := by
  refine ⟨by decide +kernel, stateDict fixedDigest (resolvedState " "), rfl, ?_⟩
  decide +kernel

end RomCloud.SaveSync.Durable
