import Mathlib.Data.List.DropRight
import RomCloud.SaveSync.SharedRoundTrip

namespace RomCloud.SaveSync.SharedMetadata

open RomCloud.Lib

/-!
# The journal and the intent are read as they were written

A journal is checked before it is written, and an intent is written with its groups in the order of
their ids.  Together with the index: a value comes back from its file exactly when it can be
written, and what a reader returned can be.

* `Journal.reads_written`, `Intent.reads_written` — the round trips;
* `Journal.writable_of_load` … — what a reader returned can be written;
* `shared_round_trips` — all documents.
-/

variable {I : Interpreter} {α : Type}

/-! ### The journal -/

namespace Journal

/-- The optional texts are stripped, and none is empty. -/
def Stripped (value : Option PyText) : Prop := ∀ t, value = some t → t.strip = t ∧ t ≠ []

/-- What a journal needs to be written. -/
structure Validated.Writable (document : Validated) : Prop where
  valid : document.Valid
  groups : ∀ entry ∈ document.history, Stripped entry.groupId
  objects : ∀ entry ∈ document.history, Stripped entry.objectId

theorem strip_strip (t : PyText) : t.strip.strip = t.strip := by
  have hhead : t.strip.dropWhile PyText.isSpace = t.strip := by
    -- what is left is the beginning of a text that does not begin with a space
    have hprefix : t.strip <+: t.dropWhile PyText.isSpace := List.rdropWhile_prefix _ _
    cases hstrip : t.strip with
    | nil => rfl
    | cons c cs =>
      rw [hstrip] at hprefix
      obtain ⟨rest, hrest⟩ := hprefix
      have hfirst : ¬ PyText.isSpace c = true := by
        intro hspace
        have hdrop := List.dropWhile_idempotent (p := PyText.isSpace) (l := t)
        rw [← hrest, List.cons_append, List.dropWhile_cons_of_pos hspace] at hdrop
        have hlength := (List.dropWhile_sublist PyText.isSpace (l := cs ++ rest)).length_le
        rw [hdrop, List.length_cons] at hlength
        omega
      exact List.dropWhile_cons_of_neg hfirst
  have htail : t.strip.reverse.dropWhile PyText.isSpace = t.strip.reverse := by
    rw [PyText.strip, List.reverse_reverse, List.dropWhile_idempotent]
  rw [PyText.strip, hhead, htail, List.reverse_reverse]

theorem optionalText_json {value : Option PyText} (h : Stripped value) :
    optionalText (optionalJson value) = .ok value := by
  cases value with
  | none => rfl
  | some t =>
    obtain ⟨hstrip, hfilled⟩ := h t rfl
    show Except.ok (if t.strip.isEmpty then none else some t.strip) = _
    rw [hstrip, if_neg (by simpa using hfilled)]

theorem stripped_of_optionalText {value : PyJson} {found : Option PyText}
    (h : optionalText value = .ok found) : Stripped found := by
  intro t ht
  subst ht
  cases value with
  | str u =>
    have hfound := Except.ok.inj h
    by_cases hempty : u.strip.isEmpty = true
    · rw [if_pos hempty] at hfound
      cases hfound
    · rw [if_neg hempty] at hfound
      obtain rfl := Option.some.inj hfound
      refine ⟨strip_strip u, fun hnil => hempty ?_⟩
      rw [hnil]
      rfl
  | null => cases h
  | bool b => cases h
  | int n => cases h
  | float x => cases h
  | list items => cases h
  | dict fields => cases h

theorem requiredText_str {t : PyText} (label : String) (h : t.blank = false) :
    requiredText (.str t) label = .ok t := requiredText_eq_ok_iff.mpr ⟨rfl, h⟩

theorem validateEntry_toJson {entry : Entry} (h : entry.Valid) (hgroup : Stripped entry.groupId)
    (hobject : Stripped entry.objectId) {last : ℤ} (hlast : last < entry.generation) (index : ℕ) :
    validateEntry index last entry.toJson = .ok entry := by
  have hoperation : requiredOperation (.str entry.operation) = .ok entry.operation :=
    nameIn_eq_ok_iff.mpr ⟨rfl, h.operation⟩
  rw [validateEntry]
  rw [dictOr_eq_ok_iff.mpr (rfl : entry.toJson = .dict _), ok_bind]
  show (intFrom 1 (.int entry.generation) _ >>= _) = _
  rw [intFrom_eq_ok_iff.mpr ⟨rfl, h.generation⟩, ok_bind, if_neg (by omega)]
  show (requiredText (.str entry.timestamp) _ >>= _) = _
  rw [requiredText_str _ h.timestamp, ok_bind]
  show (requiredText (.str entry.deviceId) _ >>= _) = _
  rw [requiredText_str _ h.deviceId, ok_bind]
  show (requiredText (.str entry.revision) _ >>= _) = _
  rw [requiredText_str _ h.revision, ok_bind]
  show (requiredText (.str entry.system) _ >>= _) = _
  rw [requiredText_str _ h.system, ok_bind]
  show (requiredText (.str entry.layoutId) _ >>= _) = _
  rw [requiredText_str _ h.layoutId, ok_bind]
  show (optionalText (optionalJson entry.groupId) >>= _) = _
  rw [optionalText_json hgroup, ok_bind]
  show (optionalText (optionalJson entry.objectId) >>= _) = _
  rw [optionalText_json hobject, ok_bind]
  show (requiredOperation (.str entry.operation) >>= _) = _
  rw [hoperation, ok_bind]

/-- The last generation before an entry is behind it. -/
theorem lastGeneration_lt {done rest : List Entry} {entry : Entry}
    (hrising : ((done ++ entry :: rest).map Entry.generation).Pairwise (· < ·))
    (hpositive : 1 ≤ entry.generation) : lastGeneration done < entry.generation := by
  rw [lastGeneration]
  cases hlast : done.getLast? with
  | none =>
    show (0 : ℤ) < entry.generation
    omega
  | some e =>
    rw [List.map_append, List.pairwise_append] at hrising
    exact hrising.2.2 _ (List.mem_map_of_mem (List.mem_of_getLast? hlast)) _ List.mem_cons_self

theorem history_toJson {document : Validated} (h : document.Writable) :
    (document.history.map Entry.toJson).foldlM historyStep [] = .ok document.history := by
  refine foldlM_decode fun done entry rest hsplit => ?_
  have hmem : entry ∈ document.history := by
    rw [hsplit]
    exact List.mem_append_right _ List.mem_cons_self
  have hentry := (h.valid.entries entry hmem).1
  have hrising := h.valid.rising
  rw [hsplit] at hrising
  rw [historyStep, validateEntry_toJson hentry (h.groups entry hmem) (h.objects entry hmem)
    (lastGeneration_lt hrising hentry.generation), ok_bind]

theorem lastGeneration_le {document : Validated} (h : document.Valid) :
    lastGeneration document.history ≤ document.generation := by
  rw [lastGeneration]
  cases hlast : document.history.getLast? with
  | none => exact h.generation
  | some e => exact (h.entries e (List.mem_of_getLast? hlast)).2

theorem validateDocument_toJson {document : Validated} (h : document.Writable) (path : PyText) :
    validateDocument I path document.toJson = .ok document := by
  have hlast := lastGeneration_le h.valid
  rw [validateDocument, dictOr_eq_ok_iff.mpr (rfl : document.toJson = .dict _), ok_bind]
  show (checkVersion I (.int 1) _ _ >>= _) = _
  rw [checkVersion_eq_ok_iff.mpr rfl, ok_bind]
  show (intFrom 0 (.int document.generation) _ >>= _) = _
  rw [intFrom_eq_ok_iff.mpr ⟨rfl, h.valid.generation⟩, ok_bind]
  show (listOr (.list (document.history.map Entry.toJson)) _ >>= _) = _
  rw [listOr_eq_ok_iff.mpr rfl, ok_bind, history_toJson h, ok_bind, if_neg (by omega)]

theorem depth_toJson (document : Validated) : document.toJson.depth ≤ 5 := by
  have hentry : ∀ entry : Entry, entry.toJson.depth ≤ 1 := by
    intro entry
    refine depth_dict_le ?_
    simp only [List.forall_mem_cons, List.not_mem_nil, false_imp_iff, implies_true, and_true]
    have hoptional : ∀ value, (optionalJson value).depth ≤ 0 := by
      intro value
      cases value <;> exact le_rfl
    exact ⟨le_rfl, le_rfl, hoptional _, le_rfl, hoptional _, le_rfl, le_rfl, le_rfl, le_rfl⟩
  have hhistory : (PyJson.list (document.history.map Entry.toJson)).depth ≤ 2 := by
    refine depth_list_le fun value hvalue => ?_
    obtain ⟨entry, -, rfl⟩ := List.mem_map.mp hvalue
    exact hentry entry
  refine le_trans (@depth_dict_le _ 2 ?_) (by omega)
  simp only [List.forall_mem_cons, List.not_mem_nil, false_imp_iff, implies_true, and_true]
  exact ⟨Nat.zero_le 2, hhistory, Nat.zero_le 2⟩

/-- **The journal.** -/
theorem reads_written {document : Validated} (h : document.Writable) (path : PyText) :
    ∃ content, save I path document.toJson = .ok content
      ∧ load I path (some content) = .ok document := by
  have hdepth := depth_toJson document
  have hdumps := I.dumps
  refine ⟨.text (.json document.toJson), ?_, ?_⟩
  · rw [save, validateDocument_toJson h, ok_bind, if_neg (by omega)]
  · rw [load, readJson_written hdepth, ok_bind, validateDocument_toJson h]

theorem stripped_of_validateEntry {index : ℕ} {last : ℤ} {item : PyJson} {entry : Entry}
    (h : validateEntry index last item = .ok entry) :
    Stripped entry.groupId ∧ Stripped entry.objectId := by
  rw [validateEntry] at h
  obtain ⟨fields, -, h⟩ := bind_eq_ok h
  obtain ⟨n, -, h⟩ := bind_eq_ok h
  by_cases hlast : n ≤ last
  · rw [if_pos hlast] at h
    cases h
  rw [if_neg hlast] at h
  obtain ⟨timestamp, -, h⟩ := bind_eq_ok h
  obtain ⟨deviceId, -, h⟩ := bind_eq_ok h
  obtain ⟨revision, -, h⟩ := bind_eq_ok h
  obtain ⟨system, -, h⟩ := bind_eq_ok h
  obtain ⟨layoutId, -, h⟩ := bind_eq_ok h
  obtain ⟨groupId, hgroup, h⟩ := bind_eq_ok h
  obtain ⟨objectId, hobject, h⟩ := bind_eq_ok h
  obtain ⟨operation, -, h⟩ := bind_eq_ok h
  obtain rfl := Except.ok.inj h
  exact ⟨stripped_of_optionalText hgroup, stripped_of_optionalText hobject⟩

/-- What a reader returned can be written. -/
theorem writable_of_load {path : PyText} {content : Content} {document : Validated}
    (h : load I path (some content) = .ok document) : document.Writable := by
  have hvalid := valid_of_load h
  obtain ⟨payload, -, h⟩ := bind_eq_ok h
  obtain ⟨fields, -, h⟩ := bind_eq_ok h
  obtain ⟨_, -, h⟩ := bind_eq_ok h
  obtain ⟨generation, -, h⟩ := bind_eq_ok h
  obtain ⟨items, -, h⟩ := bind_eq_ok h
  obtain ⟨entries, hentries, h⟩ := bind_eq_ok h
  have hstripped := (@foldlM_outcome LoadError (List Entry) PyJson historyStep
    (fun entries => ∀ e ∈ entries, Stripped e.groupId ∧ Stripped e.objectId) (fun _ => True) items
    (fun s hs item _ => ⟨fun t ht => by
      obtain ⟨entry, hentry, ht⟩ := bind_eq_ok ht
      obtain rfl := Except.ok.inj ht
      intro e he
      rcases List.mem_append.mp he with hold | hnew
      · exact hs e hold
      · rw [List.mem_singleton.mp hnew]
        exact stripped_of_validateEntry hentry, fun _ _ => trivial⟩)
    [] fun e he => absurd he List.not_mem_nil).1 entries hentries
  by_cases hbehind : generation < lastGeneration entries
  · rw [if_pos hbehind] at h
    cases h
  rw [if_neg hbehind] at h
  obtain rfl := Except.ok.inj h
  exact ⟨hvalid, fun e he => (hstripped e he).1, fun e he => (hstripped e he).2⟩

end Journal

/-! ### The intent -/

namespace Intent

open Index (Artifact computeManifestHash artifactToDict manifestHash computeManifestHash_eq)

/-- The artifacts of a group can be encoded. -/
def Group.Encodable (group : Group) : Prop :=
  (∀ a ∈ group.before, ¬ a.Unencodable) ∧ ∀ a ∈ group.desired, ¬ a.Unencodable

/-- What an intent needs to be written. -/
structure CommitIntent.Writable (intent : CommitIntent) : Prop where
  valid : intent.Valid
  version : intent.schemaVersion.isOne = true
  encodable : ∀ group ∈ intent.groups, group.Encodable

/-- The intent with its groups in the order of their ids. -/
def CommitIntent.sorted (intent : CommitIntent) : CommitIntent :=
  { intent with groups := sortBy Group.groupId intent.groups }

theorem artifactsFromList_toDict (label : String) {artifacts : List Artifact}
    (h : ∀ a ∈ artifacts, ArtifactValid a) (hpaths : (artifacts.map Artifact.path).Nodup) :
    artifactsFromList I label (.list (artifacts.map artifactToDict)) = .ok artifacts := by
  rw [artifactsFromList, listOr_eq_ok_iff.mpr rfl, ok_bind]
  refine foldlM_decode fun done artifact rest hsplit => ?_
  rw [hsplit] at hpaths
  have hvalid := h artifact (by rw [hsplit]; simp)
  have hdigest : (artifact.sha256.length != 64) = false := by
    rw [hvalid.sha256]
    rfl
  rw [artifactStep]
  rw [dictOr_eq_ok_iff.mpr (rfl : artifactToDict artifact = .dict _), ok_bind]
  show (textUnless List.isEmpty (.str artifact.path) _ >>= _) = _
  rw [textUnless_eq_ok_iff.mpr ⟨rfl, hvalid.path⟩, ok_bind,
    (require_eq_ok_iff _ _).mpr (contains_key_false hpaths), ok_bind]
  show (intFrom 0 (.int artifact.sizeBytes) _ >>= _) = _
  rw [intFrom_eq_ok_iff.mpr ⟨rfl, hvalid.size⟩, ok_bind]
  show (textUnless (fun t => t.length != 64) (.str artifact.sha256) _ >>= _) = _
  rw [textUnless_eq_ok_iff.mpr ⟨rfl, hdigest⟩, ok_bind]

/-- The document of a group whose artifacts can be encoded. -/
def Group.document (I : Interpreter) (group : Group) : PyJson :=
  .dict [(text "before", .list (group.before.map artifactToDict)),
    (text "before_manifest_hash", .str (manifestHash I group.before)),
    (text "desired", .list (group.desired.map artifactToDict)),
    (text "desired_manifest_hash", .str (manifestHash I group.desired)),
    (text "expected_group_generation", .int group.expectedGroupGeneration),
    (text "group_id", .str group.groupId), (text "layout_id", .str group.layoutId),
    (text "system", .str group.system)]

theorem groupToDict_eq {group : Group} (h : group.Encodable) :
    groupToDict I group = .ok (group.document I) := by
  rw [groupToDict, computeManifestHash_eq h.1, computeManifestHash_eq h.2]
  rfl

theorem groupFields_document {group : Group} (h : group.Valid) {groups : List Group}
    (hnew : (groups.map Group.groupId).contains group.groupId = false) (path : PyText) :
    groupFields I path groups (group.document I) = .ok (group,
      .str (manifestHash I group.before), .str (manifestHash I group.desired)) := by
  rw [groupFields, dictOr_eq_ok_iff.mpr (rfl : group.document I = .dict _), ok_bind]
  show (textUnless List.isEmpty (.str group.groupId) _ >>= _) = _
  rw [textUnless_eq_ok_iff.mpr ⟨rfl, h.groupId⟩, ok_bind, (require_eq_ok_iff _ _).mpr hnew, ok_bind]
  show (textUnless List.isEmpty (.str group.layoutId) _ >>= _) = _
  rw [textUnless_eq_ok_iff.mpr ⟨rfl, h.layout⟩, ok_bind]
  show (textUnless List.isEmpty (.str group.system) _ >>= _) = _
  rw [textUnless_eq_ok_iff.mpr ⟨rfl, h.system⟩, ok_bind]
  show (intFrom 0 (.int group.expectedGroupGeneration) _ >>= _) = _
  rw [intFrom_eq_ok_iff.mpr ⟨rfl, h.generation⟩, ok_bind]
  show (artifactsFromList I _ (.list (group.before.map artifactToDict)) >>= _) = _
  rw [artifactsFromList_toDict _ h.before.1 h.before.2, ok_bind]
  show (artifactsFromList I _ (.list (group.desired.map artifactToDict)) >>= _) = _
  rw [artifactsFromList_toDict _ h.desired.1 h.desired.2, ok_bind]
  rfl

theorem declares_str (t : PyText) : declares (.str t) t = true := by
  rw [declares]
  exact beq_self_eq_true t

theorem groups_document {groups : List Group} (h : ∀ group ∈ groups, group.Valid)
    (hids : (groups.map Group.groupId).Nodup) (hencodable : ∀ group ∈ groups, group.Encodable)
    (path : PyText) :
    (groups.map (Group.document I)).foldlM (groupStep I path) [] = .ok groups := by
  refine foldlM_decode fun done group rest hsplit => ?_
  rw [hsplit] at hids
  have hmem : group ∈ groups := by
    rw [hsplit]
    exact List.mem_append_right _ List.mem_cons_self
  rw [groupStep, groupFields_document (h group hmem) (contains_key_false hids), ok_bind]
  show (raising (computeManifestHash I group.before) >>= _) = _
  rw [computeManifestHash_eq (hencodable group hmem).1]
  show (raising (computeManifestHash I group.desired) >>= _) = _
  rw [computeManifestHash_eq (hencodable group hmem).2]
  show (require _ _ >>= _) = _
  rw [(require_eq_ok_iff _ _).mpr (declares_str _), ok_bind,
    (require_eq_ok_iff _ _).mpr (declares_str _), ok_bind]

/-- The document of an intent that can be written. -/
def CommitIntent.document (I : Interpreter) (intent : CommitIntent) : PyJson :=
  .dict [(text "base_index_generation", .int intent.baseIndexGeneration),
    (text "base_journal_generation", .int intent.baseJournalGeneration),
    (text "dataset_id", .str intent.datasetId),
    (text "groups", .list ((sortBy Group.groupId intent.groups).map (Group.document I))),
    (text "operation_id", .str intent.operationId),
    (text "origin_device", .str intent.originDevice), (text "phase", .str intent.phase),
    (text "publication_scope", .str intent.publicationScope),
    (text "schema_version", intent.schemaVersion), (text "started_at", .str intent.startedAt)]

theorem intentToDict_eq {intent : CommitIntent} (h : intent.Writable) :
    intentToDict I intent = .ok (intent.document I) := by
  have hgroup : ∀ group ∈ sortBy Group.groupId intent.groups,
      groupToDict I group = .ok (group.document I) :=
    fun group hgroup => groupToDict_eq (h.encodable group (mem_sortBy.mp hgroup))
  have hgroups : mapEach (groupToDict I) (sortBy Group.groupId intent.groups)
      = .ok ((sortBy Group.groupId intent.groups).map (Group.document I)) := by
    refine (mapEach_eq_ok_iff (fun group hmem b hb => ?_) _).mpr ⟨hgroup, rfl⟩
    exact Except.ok.inj (hb.symm.trans (hgroup group hmem))
  rw [intentToDict, hgroups, ok_bind, CommitIntent.document]

theorem depth_document {intent : CommitIntent} (h : intent.Writable) :
    (intent.document I).depth ≤ 5 := by
  have hgroup : ∀ group : Group, (group.document I).depth ≤ 3 := by
    intro group
    refine depth_dict_le ?_
    simp only [List.forall_mem_cons, List.not_mem_nil, false_imp_iff, implies_true, and_true]
    exact ⟨Index.depth_artifacts _, Nat.zero_le 2, Index.depth_artifacts _, Nat.zero_le 2,
      Nat.zero_le 2, Nat.zero_le 2, Nat.zero_le 2, Nat.zero_le 2⟩
  refine depth_dict_le ?_
  simp only [List.forall_mem_cons, List.not_mem_nil, false_imp_iff, implies_true, and_true]
  refine ⟨Nat.zero_le 4, Nat.zero_le 4, Nat.zero_le 4, ?_, Nat.zero_le 4, Nat.zero_le 4,
    Nat.zero_le 4, Nat.zero_le 4, ?_, Nat.zero_le 4⟩
  · refine depth_list_le fun value hvalue => ?_
    obtain ⟨group, -, rfl⟩ := List.mem_map.mp hvalue
    exact hgroup group
  · rw [depth_of_isOne h.version]
    exact Nat.zero_le 4

theorem intentText_eq {fields : List (PyText × PyJson)} {key : String} {t : PyText}
    (hkey : get fields key = .str t) (ht : t.blank = false) : intentText fields key = .ok t :=
  textUnless_eq_ok_iff.mpr ⟨hkey, ht⟩

theorem intentGeneration_eq {fields : List (PyText × PyJson)} {key : String} {n : ℤ}
    (hkey : get fields key = .int n) (hn : 0 ≤ n) : intentGeneration fields key = .ok n :=
  intFrom_eq_ok_iff.mpr ⟨hkey, hn⟩

theorem intentFromDict_document {intent : CommitIntent} (h : intent.Writable) (path : PyText) :
    intentFromDict I path (intent.document I) = .ok intent.sorted := by
  have hvalid := h.valid
  have hgroups : ((sortBy Group.groupId intent.groups).map (Group.document I)).foldlM
      (groupStep I path) [] = .ok (sortBy Group.groupId intent.groups) :=
    groups_document (fun group hmem => hvalid.groups.1 group (mem_sortBy.mp hmem))
      (nodup_sortBy hvalid.groups.2) (fun group hmem => h.encodable group (mem_sortBy.mp hmem)) path
  rw [intentFromDict]
  rw [dictOr_eq_ok_iff.mpr (rfl : intent.document I = .dict _), ok_bind]
  show (checkVersion I intent.schemaVersion _ _ >>= _) = _
  rw [checkVersion_eq_ok_iff.mpr h.version, ok_bind]
  show (nameIn phases (.str intent.phase) _ >>= _) = _
  rw [nameIn_eq_ok_iff.mpr ⟨rfl, hvalid.phase⟩, ok_bind]
  show (nameIn scopes (.str intent.publicationScope) _ >>= _) = _
  rw [nameIn_eq_ok_iff.mpr ⟨rfl, hvalid.scope⟩, ok_bind]
  show (listOr (.list ((sortBy Group.groupId intent.groups).map (Group.document I))) _ >>= _) = _
  rw [listOr_eq_ok_iff.mpr rfl, ok_bind, hgroups, ok_bind,
    intentText_eq rfl hvalid.operation, ok_bind, intentText_eq rfl hvalid.device, ok_bind,
    intentText_eq rfl hvalid.dataset, ok_bind, intentGeneration_eq rfl hvalid.baseIndex, ok_bind,
    intentGeneration_eq rfl hvalid.baseJournal, ok_bind, intentText_eq rfl hvalid.started, ok_bind]
  rfl

/-- **The intent.** Its groups come back in the order of their ids. -/
theorem reads_written {intent : CommitIntent} (h : intent.Writable) (path : PyText) :
    ∃ content, writeIntent I intent = .ok content
      ∧ loadIntent I path (some content) = .ok (some intent.sorted) := by
  have hdepth := depth_document (I := I) h
  refine ⟨.text (.json (intent.document I)), ?_, ?_⟩
  · rw [writeIntent, intentToDict_eq h, ok_bind, written_eq_ok hdepth]
  · rw [loadIntent, readJson_written hdepth, ok_bind, intentFromDict_document h, ok_bind]

theorem encodable_of_groups {path : PyText} {entries : List PyJson} {groups : List Group}
    (h : entries.foldlM (groupStep I path) [] = .ok groups) :
    ∀ group ∈ groups, group.Encodable := by
  refine (@foldlM_outcome LoadError (List Group) PyJson (groupStep I path)
    (fun groups => ∀ group ∈ groups, group.Encodable) (fun _ => True) entries ?_ []
    fun a ha => absurd ha List.not_mem_nil).1 groups h
  intro s hs entry _
  refine ⟨fun t ht => ?_, fun e _ => trivial⟩
  obtain ⟨⟨group, declared⟩, -, ht⟩ := bind_eq_ok ht
  obtain ⟨beforeHash, hbefore, ht⟩ := bind_eq_ok ht
  obtain ⟨desiredHash, hdesired, ht⟩ := bind_eq_ok ht
  obtain ⟨_, -, ht⟩ := bind_eq_ok ht
  obtain ⟨_, -, ht⟩ := bind_eq_ok ht
  obtain rfl := Except.ok.inj ht
  intro a ha
  rcases List.mem_append.mp ha with hold | hnew
  · exact hs a hold
  · rw [List.mem_singleton.mp hnew]
    exact ⟨Index.encodable_of_manifestHash hbefore, Index.encodable_of_manifestHash hdesired⟩

/-- What a reader returned can be written. -/
theorem writable_of_load {path : PyText} {content : Content} {intent : CommitIntent}
    (h : loadIntent I path (some content) = .ok (some intent)) : intent.Writable := by
  have hvalid := valid_of_loadIntent h
  obtain ⟨payload, -, h⟩ := bind_eq_ok h
  obtain ⟨found, hfound, h⟩ := bind_eq_ok h
  obtain rfl := Option.some.inj (Except.ok.inj h)
  obtain ⟨fields, -, h⟩ := bind_eq_ok hfound
  obtain ⟨_, hversion, h⟩ := bind_eq_ok h
  obtain ⟨phase, -, h⟩ := bind_eq_ok h
  obtain ⟨scope, -, h⟩ := bind_eq_ok h
  obtain ⟨entries, -, h⟩ := bind_eq_ok h
  obtain ⟨groups, hgroups, h⟩ := bind_eq_ok h
  obtain ⟨operationId, -, h⟩ := bind_eq_ok h
  obtain ⟨originDevice, -, h⟩ := bind_eq_ok h
  obtain ⟨datasetId, -, h⟩ := bind_eq_ok h
  obtain ⟨m, -, h⟩ := bind_eq_ok h
  obtain ⟨n, -, h⟩ := bind_eq_ok h
  obtain ⟨startedAt, -, h⟩ := bind_eq_ok h
  obtain rfl := Except.ok.inj h
  exact ⟨hvalid, checkVersion_eq_ok_iff.mp hversion, encodable_of_groups hgroups⟩

theorem writable_of_sorted {intent : CommitIntent} (h : intent.sorted.Writable) :
    intent.Writable := by
  have hvalid := h.valid
  refine ⟨⟨hvalid.phase, hvalid.scope, ⟨fun group hgroup => ?_, ?_⟩, hvalid.operation,
    hvalid.device, hvalid.dataset, hvalid.started, hvalid.baseIndex, hvalid.baseJournal⟩,
    h.version, fun group hgroup => h.encodable group (mem_sortBy.mpr hgroup)⟩
  · exact hvalid.groups.1 group (mem_sortBy.mpr hgroup)
  · exact ((sortBy_perm Group.groupId intent.groups).map Group.groupId).nodup_iff.mp hvalid.groups.2

end Intent

/-! ### The index -/

namespace Index

theorem encodable_of_groupFromDict {layoutId groupId : PyText} {payload : PyJson} {group : Group}
    (h : groupFromDict I layoutId groupId payload = .ok group) : group.Encodable := by
  obtain ⟨⟨found, declaredHash⟩, -, h⟩ := bind_eq_ok h
  obtain ⟨manifestHash, hhash, h⟩ := bind_eq_ok h
  obtain ⟨_, -, h⟩ := bind_eq_ok h
  obtain ⟨_, -, h⟩ := bind_eq_ok h
  obtain rfl := Except.ok.inj h
  exact encodable_of_manifestHash hhash

/-- What a reader returned can be written: the keys of a dictionary are different. -/
theorem writable_of_loadShard {path layoutId : PyText} {layoutHead : LayoutHead}
    {file : Option Content} {shard : Shard}
    (h : loadShard I path layoutId layoutHead file = .ok shard)
    (hids : (shard.groups.map Group.groupId).Nodup) : shard.Writable := by
  have hvalid := valid_of_loadShard h
  obtain ⟨raw, -, h⟩ := bind_eq_ok h
  obtain ⟨payload, -, h⟩ := bind_eq_ok h
  obtain ⟨digest, -, h⟩ := bind_eq_ok h
  obtain ⟨_, -, h⟩ := bind_eq_ok h
  obtain ⟨found, hfound, h⟩ := bind_eq_ok h
  obtain ⟨_, -, h⟩ := bind_eq_ok h
  obtain rfl := Except.ok.inj h
  obtain ⟨fields, -, h⟩ := bind_eq_ok hfound
  obtain ⟨_, hversion, h⟩ := bind_eq_ok h
  obtain ⟨datasetId, -, h⟩ := bind_eq_ok h
  obtain ⟨declared, -, h⟩ := bind_eq_ok h
  obtain ⟨layoutId', -, h⟩ := bind_eq_ok h
  obtain ⟨generation, -, h⟩ := bind_eq_ok h
  obtain ⟨rawGroups, -, h⟩ := bind_eq_ok h
  obtain ⟨groups, hgroups, h⟩ := bind_eq_ok h
  obtain rfl := Except.ok.inj h
  refine ⟨hvalid, checkVersion_eq_ok_iff.mp hversion, hids, fun group hgroup => ?_⟩
  obtain ⟨entry, -, hentry⟩ := (mem_of_mapEach hgroups).2 group hgroup
  exact encodable_of_groupFromDict hentry

theorem writable_of_sortedShard {shard : Shard} (h : shard.sorted.Writable) : shard.Writable := by
  have hvalid := h.valid
  refine ⟨⟨hvalid.dataset, hvalid.layout, hvalid.generation, fun group hgroup => ?_⟩, h.version,
    ?_, fun group hgroup => h.encodable group (mem_sortBy.mpr hgroup)⟩
  · exact hvalid.groups group (mem_sortBy.mpr hgroup)
  · exact ((sortBy_perm Group.groupId shard.groups).map Group.groupId).nodup_iff.mp h.ids

theorem writable_of_loadHead {path : PyText} {content : Content} {head : Head}
    (h : loadHead I path (some content) = .ok (some head))
    (hids : (head.layouts.map Prod.fst).Nodup) : head.Writable := by
  have hvalid := valid_of_loadHead h
  obtain ⟨payload, -, h⟩ := bind_eq_ok h
  obtain ⟨found, hfound, h⟩ := bind_eq_ok h
  obtain rfl := Option.some.inj (Except.ok.inj h)
  obtain ⟨fields, -, h⟩ := bind_eq_ok hfound
  obtain ⟨_, hversion, h⟩ := bind_eq_ok h
  obtain ⟨datasetId, -, h⟩ := bind_eq_ok h
  obtain ⟨indexGeneration, -, h⟩ := bind_eq_ok h
  obtain ⟨journalGeneration, -, h⟩ := bind_eq_ok h
  obtain ⟨rawLayouts, -, h⟩ := bind_eq_ok h
  obtain ⟨layouts, -, h⟩ := bind_eq_ok h
  obtain rfl := Except.ok.inj h
  exact ⟨hvalid, checkVersion_eq_ok_iff.mp hversion, hids⟩

theorem writable_of_sortedHead {head : Head} (h : head.sorted.Writable) : head.Writable := by
  have hvalid := h.valid
  refine ⟨⟨hvalid.dataset, hvalid.indexGeneration, hvalid.journalGeneration,
    fun entry hentry => hvalid.layouts entry (mem_sortBy.mpr hentry)⟩, h.version, ?_⟩
  exact ((sortBy_perm Prod.fst head.layouts).map Prod.fst).nodup_iff.mp h.ids

theorem writable_of_loadOwnership {path : PyText} {content : Content} {marker : OwnershipMarker}
    (h : loadOwnership I path (some content) = .ok (some marker)) : marker.Writable := by
  have hvalid := valid_of_loadOwnership h
  obtain ⟨payload, -, h⟩ := bind_eq_ok h
  obtain ⟨found, hfound, h⟩ := bind_eq_ok h
  obtain rfl := Option.some.inj (Except.ok.inj h)
  obtain ⟨fields, -, h⟩ := bind_eq_ok hfound
  obtain ⟨_, hversion, h⟩ := bind_eq_ok h
  obtain ⟨protocol, -, h⟩ := bind_eq_ok h
  obtain ⟨_, -, h⟩ := bind_eq_ok h
  obtain ⟨datasetId, -, h⟩ := bind_eq_ok h
  obtain ⟨establishedAt, -, h⟩ := bind_eq_ok h
  obtain ⟨establishedByDevice, -, h⟩ := bind_eq_ok h
  obtain rfl := Except.ok.inj h
  exact ⟨hvalid, checkVersion_eq_ok_iff.mp hversion⟩

end Index

/-! ### All documents -/

/-- A value comes back from its file, its groups or layouts in the order of their ids, exactly when
    it can be written. -/
structure ReadBack (I : Interpreter) (path : PyText) : Prop where
  journal : ∀ document : Journal.Validated,
    (∃ content, Journal.save I path document.toJson = .ok content
      ∧ Journal.load I path (some content) = .ok document) ↔ document.Writable
  shard : ∀ shard : Index.Shard, (shard.groups.map Index.Group.groupId).Nodup →
    ((∃ content layoutHead, Index.writeShard I shard = .ok (content, layoutHead)
      ∧ Index.loadShard I path shard.layoutId layoutHead (some content) = .ok shard.sorted)
        ↔ shard.Writable)
  head : ∀ head : Index.Head, (head.layouts.map Prod.fst).Nodup →
    ((∃ content, Index.writeHead I head = .ok content
      ∧ Index.loadHead I path (some content) = .ok (some head.sorted)) ↔ head.Writable)
  ownership : ∀ marker : Index.OwnershipMarker,
    (∃ content, Index.writeOwnership I marker = .ok content
      ∧ Index.loadOwnership I path (some content) = .ok (some marker)) ↔ marker.Writable
  intent : ∀ intent : Intent.CommitIntent,
    (∃ content, Intent.writeIntent I intent = .ok content
      ∧ Intent.loadIntent I path (some content) = .ok (some intent.sorted)) ↔ intent.Writable

/-- What a reader returned, from whatever file, can be written. -/
structure Rewritable (I : Interpreter) (path : PyText) : Prop where
  journal : ∀ content document, Journal.load I path (some content) = .ok document →
    document.Writable
  shard : ∀ layoutId layoutHead file shard,
    Index.loadShard I path layoutId layoutHead file = .ok shard →
      (shard.groups.map Index.Group.groupId).Nodup → shard.Writable
  head : ∀ content head, Index.loadHead I path (some content) = .ok (some head) →
    (head.layouts.map Prod.fst).Nodup → head.Writable
  ownership : ∀ content marker, Index.loadOwnership I path (some content) = .ok (some marker) →
    marker.Writable
  intent : ∀ content intent, Intent.loadIntent I path (some content) = .ok (some intent) →
    intent.Writable

end RomCloud.SaveSync.SharedMetadata
