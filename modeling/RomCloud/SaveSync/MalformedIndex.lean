import RomCloud.SaveSync.MalformedJournal

namespace RomCloud.SaveSync.SharedMetadata

open RomCloud.Lib

/-!
# A malformed index or intent

* `Index.Artifact.Unencodable` — an artifact that no digest is computed of;
* `Index.ShardTraps`, `Index.raises_loadShard_iff` — the shards whose reader raises something else;
* `Index.raises_loadHead_iff`, `Index.raises_loadOwnership_iff` — HEAD and the ownership marker;
* `Intent.Traps`, `Intent.raises_loadIntent_iff` — the intent.
-/

variable {I : Interpreter} {α β : Type}

/-! ### The index -/

/-- A loop whose steps raise nothing. -/
theorem not_raises_foldlM {step : β → α → Except LoadError β} (h : ∀ s x, ¬ Raises (step s x))
    {l : List α} {s : β} : ¬ Raises (l.foldlM step s) := by
  rw [raises_foldlM_iff]
  rintro ⟨done, x, rest, t, -, -, hx⟩
  exact h t x hx

namespace Index

/-- The path or the digest of an artifact cannot be encoded. -/
def Artifact.Unencodable (artifact : Artifact) : Prop :=
  artifact.path.encodable = false ∨ artifact.sha256.all (· < 128) = false

theorem artifactBytes_error_iff {artifact : Artifact} :
    (∃ e, artifactBytes artifact = .error e) ↔ artifact.Unencodable := by
  unfold Artifact.Unencodable
  rw [artifactBytes, PyText.encodeUtf8, PyText.encodeAscii]
  by_cases hpath : artifact.path.encodable = true
  · rw [if_pos hpath, ok_bind]
    by_cases hdigest : artifact.sha256.all (· < 128) = true
    · rw [if_pos hdigest, ok_bind]
      refine iff_of_false ?_ ?_
      · rintro ⟨e, h⟩
        cases h
      · simp [hpath, hdigest]
    · rw [if_neg hdigest]
      exact iff_of_true ⟨.valueError, rfl⟩ (Or.inr (Bool.eq_false_iff.mpr hdigest))
  · rw [if_neg hpath]
    exact iff_of_true ⟨.valueError, rfl⟩ (Or.inl (Bool.eq_false_iff.mpr hpath))

/-- The digest of a manifest needs all its artifacts encoded. -/
theorem raises_manifestHash_iff {artifacts : List Artifact} :
    Raises (raising (computeManifestHash I artifacts)) ↔ ∃ a ∈ artifacts, a.Unencodable := by
  have hmem : ∀ a, a ∈ artifacts.mergeSort (fun a b => PyText.notAfter a.path b.path)
      ↔ a ∈ artifacts := fun a => List.mem_mergeSort
  unfold computeManifestHash
  cases hparts : mapEach artifactBytes
      (artifacts.mergeSort fun a b => PyText.notAfter a.path b.path) with
  | ok parts =>
    rw [ok_bind]
    refine iff_of_false (raises_ok _) ?_
    rintro ⟨a, ha, hbad⟩
    obtain ⟨e, he⟩ := artifactBytes_error_iff.mpr hbad
    obtain ⟨b, -, hb⟩ := (mem_of_mapEach hparts).1 a ((hmem a).mpr ha)
    rw [he] at hb
    cases hb
  | error e =>
    refine iff_of_true ⟨e, rfl⟩ ?_
    obtain ⟨done, a, rest, hsorted, -, ha⟩ := mapEach_eq_error_iff.mp hparts
    exact ⟨a, (hmem a).mp (by rw [hsorted]; simp), artifactBytes_error_iff.mp ⟨e, ha⟩⟩

@[simp] theorem raises_nonemptyText {value : PyJson} {label : String} :
    ¬ Raises (nonemptyText value label) := raises_textUnless

theorem nonemptyText_eq_ok_iff {value : PyJson} {label : String} {t : PyText} :
    nonemptyText value label = .ok t ↔ value = .str t ∧ t.blank = false := textUnless_eq_ok_iff

@[simp] theorem raises_nonnegInt {value : PyJson} {label : String} :
    ¬ Raises (nonnegInt value label) := raises_intFrom

@[simp] theorem raises_sha256Hex {value : PyJson} {label : String} :
    ¬ Raises (sha256Hex value label) := raises_textUnless

@[simp] theorem raises_safeLayoutId {layoutId : PyText} : ¬ Raises (safeLayoutId I layoutId) := by
  unfold safeLayoutId
  split
  · exact raises_ok _
  · exact raises_fail _

theorem safeLayoutId_eq_ok_iff {layoutId t : PyText} :
    safeLayoutId I layoutId = .ok t ↔ t = layoutId ∧ isSafeLayoutId layoutId = true := by
  unfold safeLayoutId
  by_cases hsafe : isSafeLayoutId layoutId = true
  · rw [if_pos hsafe]
    constructor
    · exact fun h => ⟨(Except.ok.inj h).symm, hsafe⟩
    · rintro ⟨rfl, -⟩
      rfl
  · rw [if_neg hsafe]
    exact iff_of_false (fun h => by cases h) fun h => hsafe h.2

@[simp] theorem raises_optionalNonempty {value : PyJson} {label : String} :
    ¬ Raises (optionalNonempty value label) := by
  cases value with
  | null => exact raises_ok none
  | _ =>
    rw [optionalNonempty, raises_bind_iff_left fun _ => raises_ok _]
    · exact raises_nonemptyText
    · exact fun h => by cases h

/-- The checks of an artifact raise nothing. -/
theorem raises_artifactStep {groupId system : PyText} (artifacts : List Artifact)
    (entry : PyJson) : ¬ Raises (artifactStep I groupId system artifacts entry) := by
  have hpath : ∀ value, ¬ Raises (canonicalArtifactPath I system value) := by
    intro value
    rw [canonicalArtifactPath, raises_bind_of_not raises_textUnless]
    rintro ⟨path, -, h⟩
    by_cases hunsafe : isUnsafePath path = true
    · rw [if_pos hunsafe] at h
      exact raises_fail _ h
    · rw [if_neg hunsafe] at h
      by_cases hwithin : isWithin system path = true
      · rw [if_pos hwithin] at h
        exact raises_ok _ h
      · rw [if_neg hwithin] at h
        exact raises_fail _ h
  have hartifact : ¬ Raises (artifactFromDict I system entry) := by
    rw [artifactFromDict, raises_bind_of_not raises_dictOr]
    rintro ⟨fields, -, h⟩
    obtain ⟨path, -, h⟩ := (raises_bind_of_not (hpath _)).mp h
    obtain ⟨size, -, h⟩ := (raises_bind_of_not raises_nonnegInt).mp h
    obtain ⟨digest, -, h⟩ := (raises_bind_of_not raises_sha256Hex).mp h
    exact raises_ok _ h
  rw [artifactStep, raises_bind_of_not hartifact]
  rintro ⟨artifact, -, h⟩
  by_cases hseen : (artifacts.map Artifact.path).contains artifact.path = true
  · rw [if_pos hseen] at h
    exact raises_fail _ h
  · rw [if_neg hseen] at h
    exact raises_ok _ h

theorem raises_originDevice_iff {value : PyJson} :
    Raises (originDevice I value) ↔ value.truthy = true ∧ I.reprDepth < value.depth := by
  rw [originDevice]
  by_cases htruthy : value.truthy = true
  · rw [if_pos htruthy, raises_str_iff]
    exact (and_iff_right htruthy).symm
  · rw [if_neg htruthy]
    exact iff_of_false (raises_ok _) fun h => htruthy h.1

/-- A group passes the checks before the one of its origin. -/
structure ReachesOrigin (I : Interpreter) (layoutId groupId : PyText)
    (fields : List (PyText × PyJson)) : Prop where
  within : (layoutId ++ [47]).isPrefixOf groupId = true
  layout : get fields "layout_id" = .str layoutId ∧ layoutId.blank = false
  artifacts : ∃ system entries artifacts, get fields "system" = .str system
    ∧ system.blank = false ∧ get fields "artifacts" = .list entries
    ∧ entries.foldlM (artifactStep I groupId system) [] = .ok artifacts
  generation : ∃ n, get fields "group_generation" = .int n ∧ 0 ≤ n

/-- The origin of a group is truthy, and too deep to be written as a text. -/
def OriginTraps (I : Interpreter) (layoutId groupId : PyText) (payload : PyJson) : Prop :=
  ∃ fields, payload = .dict fields ∧ ReachesOrigin I layoutId groupId fields
    ∧ (get fields "origin_device").truthy = true
    ∧ I.reprDepth < (get fields "origin_device").depth

theorem raises_groupFields_iff {layoutId groupId : PyText} {payload : PyJson} :
    Raises (groupFields I layoutId groupId payload) ↔ OriginTraps I layoutId groupId payload := by
  rw [groupFields]
  dsimp only
  rw [raises_bind_of_not raises_dictOr]
  simp only [dictOr_eq_ok_iff]
  refine exists_congr fun fields => and_congr_right fun _ => ?_
  rw [raises_bind_of_not (raises_require _ _)]
  constructor
  · rintro ⟨_, hwithin, h⟩
    obtain ⟨declared, hdeclared, h⟩ := (raises_bind_of_not raises_nonemptyText).mp h
    obtain ⟨_, hlayout, h⟩ := (raises_bind_of_not (raises_require _ _)).mp h
    obtain ⟨system, hsystem, h⟩ := (raises_bind_of_not raises_nonemptyText).mp h
    obtain ⟨entries, hentries, h⟩ := (raises_bind_of_not raises_listOr).mp h
    obtain ⟨artifacts, hartifacts, h⟩ :=
      (raises_bind_of_not (not_raises_foldlM raises_artifactStep)).mp h
    obtain ⟨generation, hgeneration, h⟩ := (raises_bind_of_not raises_nonnegInt).mp h
    obtain rfl := (require_eq_ok_iff _ _).mp hlayout
    have hsystem := nonemptyText_eq_ok_iff.mp hsystem
    refine ⟨⟨(require_eq_ok_iff _ _).mp hwithin, nonemptyText_eq_ok_iff.mp hdeclared,
      ⟨system, entries, artifacts, hsystem.1, hsystem.2, listOr_eq_ok_iff.mp hentries,
        hartifacts⟩, generation, intFrom_eq_ok_iff.mp hgeneration⟩, ?_⟩
    refine raises_originDevice_iff.mp ((raises_bind_iff_left fun origin => ?_).mp h)
    intro h
    obtain ⟨completed, -, h⟩ := (raises_bind_of_not raises_optionalNonempty).mp h
    obtain ⟨container, -, h⟩ := (raises_bind_of_not raises_optionalNonempty).mp h
    obtain ⟨digest, -, h⟩ := (raises_bind_of_not raises_sha256Hex).mp h
    exact raises_ok _ h
  · rintro ⟨⟨hwithin, hlayout, ⟨system, entries, artifacts, hsystem, hfilled, hentries,
      hartifacts⟩, n, hgeneration⟩, horigin⟩
    refine ⟨(), (require_eq_ok_iff _ _).mpr hwithin, ?_⟩
    rw [nonemptyText_eq_ok_iff.mpr hlayout, ok_bind, (require_eq_ok_iff _ _).mpr rfl, ok_bind,
      nonemptyText_eq_ok_iff.mpr ⟨hsystem, hfilled⟩, ok_bind, listOr_eq_ok_iff.mpr hentries,
      ok_bind, hartifacts, ok_bind, nonnegInt, intFrom_eq_ok_iff.mpr hgeneration, ok_bind,
      raises_bind]
    exact Or.inl (raises_originDevice_iff.mpr horigin)

/-- A group of a shard on which another exception leaves the checks: at its origin, or where the
    digest of its manifest is computed. -/
def GroupTraps (I : Interpreter) (layoutId : PyText) (entry : PyText × PyJson) : Prop :=
  OriginTraps I layoutId entry.1 entry.2
    ∨ ∃ group declared, groupFields I layoutId entry.1 entry.2 = .ok (group, declared)
        ∧ ∃ a ∈ group.artifacts, a.Unencodable

theorem raises_groupFromDict_iff {layoutId : PyText} {entry : PyText × PyJson} :
    Raises (groupFromDict I layoutId entry.1 entry.2) ↔ GroupTraps I layoutId entry := by
  rw [groupFromDict, raises_bind, raises_groupFields_iff]
  refine or_congr Iff.rfl ?_
  have hlast : ∀ (group : Group) (declared hash : PyText), ¬ Raises (do
      require (declared = hash)
        (.saveSync (text "SaveSync index group " ++ I.quoted entry.1
          ++ text " manifest_hash does not match its artifacts"))
      require (group.tombstoned = false ∨ group.artifacts = [])
        (.saveSync (text "SaveSync index group " ++ I.quoted entry.1
          ++ text " cannot be tombstoned with artifacts present"))
      (.ok group : Except LoadError Group)) := by
    intro group declared hash h
    obtain ⟨_, -, h⟩ := (raises_bind_of_not (raises_require _ _)).mp h
    obtain ⟨_, -, h⟩ := (raises_bind_of_not (raises_require _ _)).mp h
    exact raises_ok _ h
  constructor
  · rintro ⟨⟨group, declared⟩, hfields, h⟩
    have hraises := (raises_bind_iff_left fun hash => hlast group declared hash).mp h
    exact ⟨group, declared, hfields, raises_manifestHash_iff.mp hraises⟩
  · rintro ⟨group, declared, hfields, hbad⟩
    refine ⟨(group, declared), hfields, raises_bind.mpr (Or.inl ?_)⟩
    exact raises_manifestHash_iff.mpr hbad

/-- The groups of a shard come to one that traps. -/
def ShardTraps (I : Interpreter) (payload : PyJson) : Prop :=
  ∃ fields, payload = .dict fields ∧
    (VersionTraps I (get fields "schema_version") ∨
      (get fields "schema_version").isOne = true ∧ IsText (get fields "dataset_id")
        ∧ (∃ n, get fields "generation" = .int n ∧ 1 ≤ n)
        ∧ ∃ layoutId groups, get fields "layout_id" = .str layoutId ∧ layoutId.blank = false
          ∧ isSafeLayoutId layoutId = true ∧ get fields "groups" = .dict groups
          ∧ ∃ done entry rest, groups = done ++ entry :: rest
            ∧ (∀ e ∈ done, ∃ group, groupFromDict I layoutId e.1 e.2 = .ok group)
            ∧ GroupTraps I layoutId entry)

theorem raises_validateShardDocument_iff {path : PyText} {payload : PyJson} :
    Raises (validateShardDocument I path payload) ↔ ShardTraps I payload := by
  rw [validateShardDocument, raises_bind_of_not raises_dictOr]
  simp only [dictOr_eq_ok_iff]
  refine exists_congr fun fields => and_congr_right fun _ => ?_
  rw [raises_bind, raises_checkVersion_iff]
  refine or_congr Iff.rfl ?_
  constructor
  · rintro ⟨_, hversion, h⟩
    obtain ⟨datasetId, hdataset, h⟩ := (raises_bind_of_not raises_nonemptyText).mp h
    obtain ⟨declared, hdeclared, h⟩ := (raises_bind_of_not raises_nonemptyText).mp h
    obtain ⟨layoutId, hlayout, h⟩ := (raises_bind_of_not raises_safeLayoutId).mp h
    obtain ⟨n, hn, h⟩ := (raises_bind_of_not raises_intFrom).mp h
    obtain ⟨groups, hgroups, h⟩ := (raises_bind_of_not raises_dictOr).mp h
    have hgroupTraps := (raises_bind_iff_left fun _ => raises_ok _).mp h
    obtain ⟨rfl, hsafe⟩ := safeLayoutId_eq_ok_iff.mp hlayout
    obtain ⟨hlayoutId, hfilled⟩ := nonemptyText_eq_ok_iff.mp hdeclared
    obtain ⟨done, entry, rest, hsplit, hdone, htraps⟩ := raises_mapEach_iff.mp hgroupTraps
    exact ⟨checkVersion_eq_ok_iff.mp hversion, ⟨datasetId, nonemptyText_eq_ok_iff.mp hdataset⟩,
      ⟨n, intFrom_eq_ok_iff.mp hn⟩, _, groups, hlayoutId, hfilled, hsafe,
      dictOr_eq_ok_iff.mp hgroups, done, entry, rest, hsplit, hdone,
      raises_groupFromDict_iff.mp htraps⟩
  · rintro ⟨hversion, ⟨datasetId, hdataset⟩, ⟨n, hn⟩, layoutId, groups, hlayoutId, hfilled, hsafe,
      hgroups, done, entry, rest, hsplit, hdone, htraps⟩
    refine ⟨(), checkVersion_eq_ok_iff.mpr hversion, ?_⟩
    rw [nonemptyText_eq_ok_iff.mpr hdataset, ok_bind,
      nonemptyText_eq_ok_iff.mpr ⟨hlayoutId, hfilled⟩, ok_bind,
      safeLayoutId_eq_ok_iff.mpr ⟨rfl, hsafe⟩, ok_bind, intFrom_eq_ok_iff.mpr hn, ok_bind,
      dictOr_eq_ok_iff.mpr hgroups, ok_bind, raises_bind]
    exact Or.inl (raises_mapEach_iff.mpr ⟨done, entry, rest, hsplit, hdone,
      raises_groupFromDict_iff.mpr htraps⟩)

/-- The file of a shard is not UTF-8, or its text is nested too deep to be read or written, or it is
    the document that HEAD names, and traps. -/
def ShardFileTraps (I : Interpreter) (layoutHead : LayoutHead) : Option Content → Prop
  | none => False
  | some .unreadable => False
  | some .undecodable => True
  | some (.text document) => document.TooDeep I ∨ ∃ payload, document = .json payload
      ∧ (I.dumpDepth < payload.depth
        ∨ I.sha256 (I.canonical payload) = layoutHead.digest ∧ ShardTraps I payload)

theorem raises_documentDigest_iff {payload : PyJson} :
    Raises (documentDigest I payload) ↔ I.dumpDepth < payload.depth := by
  rw [documentDigest]
  by_cases hdeep : I.dumpDepth < payload.depth
  · rw [if_pos hdeep]
    exact iff_of_true (raises_raised _) hdeep
  · rw [if_neg hdeep]
    exact iff_of_false (raises_ok _) hdeep

theorem documentDigest_eq_ok_iff {payload : PyJson} {digest : PyText} :
    documentDigest I payload = .ok digest
      ↔ digest = I.sha256 (I.canonical payload) ∧ ¬ I.dumpDepth < payload.depth := by
  rw [documentDigest]
  by_cases hdeep : I.dumpDepth < payload.depth
  · rw [if_pos hdeep]
    exact iff_of_false (fun h => by cases h) fun h => h.2 hdeep
  · rw [if_neg hdeep]
    constructor
    · exact fun h => ⟨(Except.ok.inj h).symm, hdeep⟩
    · rintro ⟨rfl, -⟩
      rfl

/-- What is done with the payload of a shard file. -/
theorem raises_shardChecks_iff {path layoutId : PyText} {layoutHead : LayoutHead}
    {payload : PyJson} :
    Raises (do
      let digest ← documentDigest I payload
      require (digest = layoutHead.digest)
        (.saveSync (text "SaveSync index shard digest mismatch: " ++ path))
      let shard ← validateShardDocument I path payload
      require (shard.layoutId = layoutId ∧ shard.generation = layoutHead.generation)
        (.saveSync (text "SaveSync index shard identity mismatch: " ++ path))
      (.ok shard : Except LoadError Shard))
      ↔ I.dumpDepth < payload.depth
        ∨ I.sha256 (I.canonical payload) = layoutHead.digest ∧ ShardTraps I payload := by
  have hlast : ∀ shard : Shard, ¬ Raises (do
      require (shard.layoutId = layoutId ∧ shard.generation = layoutHead.generation)
        (.saveSync (text "SaveSync index shard identity mismatch: " ++ path))
      (.ok shard : Except LoadError Shard)) := by
    intro shard h
    obtain ⟨_, -, h⟩ := (raises_bind_of_not (raises_require _ _)).mp h
    exact raises_ok _ h
  rw [raises_bind, raises_documentDigest_iff]
  by_cases hdeep : I.dumpDepth < payload.depth
  · exact iff_of_true (Or.inl hdeep) (Or.inl hdeep)
  refine or_congr Iff.rfl ?_
  constructor
  · rintro ⟨digest, hdigest, h⟩
    obtain ⟨rfl, -⟩ := documentDigest_eq_ok_iff.mp hdigest
    obtain ⟨_, hsame, h⟩ := (raises_bind_of_not (raises_require _ _)).mp h
    have hraises := (raises_bind_iff_left hlast).mp h
    exact ⟨(require_eq_ok_iff _ _).mp hsame, raises_validateShardDocument_iff.mp hraises⟩
  · rintro ⟨hsame, htraps⟩
    refine ⟨_, documentDigest_eq_ok_iff.mpr ⟨rfl, hdeep⟩, ?_⟩
    rw [(require_eq_ok_iff _ _).mpr hsame, ok_bind, raises_bind]
    exact Or.inl (raises_validateShardDocument_iff.mpr htraps)

/-- **A shard.** Its reader raises something else where HEAD names a file that Python does not open,
    and where the file traps. -/
theorem raises_loadShard_iff {path layoutId : PyText} {layoutHead : LayoutHead}
    {file : Option Content} :
    Raises (loadShard I path layoutId layoutHead file)
      ↔ layoutHead.object.isFileName = false ∨ ShardFileTraps I layoutHead file := by
  unfold loadShard readShard
  by_cases hname : layoutHead.object.isFileName = true
  · rw [if_pos hname, hname]
    refine Iff.trans ?_ (or_iff_right fun h => by cases h).symm
    cases file with
    | none => exact iff_of_false (raises_fail _) id
    | some content =>
      cases content with
      | unreadable => exact iff_of_false (raises_fail _) id
      | undecodable => exact iff_of_true (raises_raised _) trivial
      | text document =>
        show Raises (handledAs (· == .valueError) _ (I.loads document) >>= _)
          ↔ document.TooDeep I ∨ ∃ payload, document = .json payload ∧ _
        rw [raises_bind, raises_handledAs_iff]
        simp only [handledAs_eq_ok_iff, raises_shardChecks_iff]
        constructor
        · rintro (⟨e, he, hnot⟩ | ⟨payload, hpayload, h⟩)
          · rcases loads_error he with ⟨hdeep, -⟩ | ⟨-, rfl⟩
            · exact Or.inl hdeep
            · cases hnot
          · exact Or.inr ⟨payload, (loads_eq_ok_iff.mp hpayload).1, h⟩
        · intro h
          by_cases hdeep : document.TooDeep I
          · exact Or.inl ⟨_, loads_of_tooDeep hdeep, rfl⟩
          · obtain ⟨payload, hpayload, h⟩ := h.resolve_left hdeep
            exact Or.inr ⟨payload, loads_eq_ok_iff.mpr ⟨hpayload, hdeep⟩, h⟩
  · rw [if_neg hname]
    exact iff_of_true (raises_raised _) (Or.inl (Bool.eq_false_iff.mpr hname))

/-- A dictionary with a schema version that is not supported, and too deep to be shown. -/
def ShownVersionTraps (I : Interpreter) (payload : PyJson) : Prop :=
  ∃ fields, payload = .dict fields ∧ VersionTraps I (get fields "schema_version")

theorem raises_headLayout (entry : PyText × PyJson) : ¬ Raises (headLayout I entry) := by
  have hlayoutHead : ¬ Raises (layoutHeadFromDict I entry.1 entry.2) := by
    rw [layoutHeadFromDict, raises_bind_of_not raises_dictOr]
    rintro ⟨fields, -, h⟩
    obtain ⟨n, -, h⟩ := (raises_bind_of_not raises_intFrom).mp h
    obtain ⟨object, -, h⟩ := (raises_bind_of_not raises_nonemptyText).mp h
    obtain ⟨layoutId, -, h⟩ := (raises_bind_of_not raises_safeLayoutId).mp h
    obtain ⟨_, -, h⟩ := (raises_bind_of_not (raises_require _ _)).mp h
    obtain ⟨digest, -, h⟩ := (raises_bind_of_not raises_sha256Hex).mp h
    exact raises_ok _ h
  rw [headLayout, raises_bind_of_not raises_safeLayoutId]
  rintro ⟨layoutId, -, h⟩
  obtain ⟨layoutHead, -, h⟩ := (raises_bind_of_not hlayoutHead).mp h
  exact raises_ok _ h

theorem raises_validateHeadDocument_iff {path : PyText} {payload : PyJson} :
    Raises (validateHeadDocument I path payload) ↔ ShownVersionTraps I payload := by
  have hlayouts : ∀ entries, ¬ Raises (mapEach (headLayout I) entries) := by
    intro entries
    rw [raises_mapEach_iff]
    rintro ⟨done, entry, rest, -, -, h⟩
    exact raises_headLayout entry h
  rw [validateHeadDocument, raises_bind_of_not raises_dictOr]
  simp only [dictOr_eq_ok_iff]
  refine exists_congr fun fields => and_congr_right fun _ => ?_
  refine (raises_bind_iff_left fun _ h => ?_).trans raises_checkVersion_iff
  obtain ⟨datasetId, -, h⟩ := (raises_bind_of_not raises_nonemptyText).mp h
  obtain ⟨m, -, h⟩ := (raises_bind_of_not raises_nonnegInt).mp h
  obtain ⟨n, -, h⟩ := (raises_bind_of_not raises_nonnegInt).mp h
  obtain ⟨entries, -, h⟩ := (raises_bind_of_not raises_dictOr).mp h
  obtain ⟨layouts, -, h⟩ := (raises_bind_of_not (hlayouts entries)).mp h
  exact raises_ok _ h

/-- **HEAD.** -/
theorem raises_loadHead_iff {path : PyText} {content : Content} :
    Raises (loadHead I path (some content)) ↔ content.Traps I (ShownVersionTraps I) :=
  raises_readJson_bind_iff fun _ =>
    (raises_bind_iff_left fun _ => raises_ok _).trans raises_validateHeadDocument_iff

@[simp] theorem raises_ownershipText {fields : List (PyText × PyJson)} {key : String} :
    ¬ Raises (ownershipText fields key) := raises_textUnless

theorem raises_validateOwnershipDocument_iff {path : PyText} {payload : PyJson} :
    Raises (validateOwnershipDocument I path payload) ↔ ShownVersionTraps I payload := by
  rw [validateOwnershipDocument, raises_bind_of_not raises_dictOr]
  simp only [dictOr_eq_ok_iff]
  refine exists_congr fun fields => and_congr_right fun _ => ?_
  refine (raises_bind_iff_left fun _ h => ?_).trans raises_checkVersion_iff
  obtain ⟨protocol, -, h⟩ := (raises_bind_of_not raises_intFrom).mp h
  obtain ⟨_, -, h⟩ := (raises_bind_of_not (raises_require _ _)).mp h
  obtain ⟨datasetId, -, h⟩ := (raises_bind_of_not raises_ownershipText).mp h
  obtain ⟨establishedAt, -, h⟩ := (raises_bind_of_not raises_ownershipText).mp h
  obtain ⟨device, -, h⟩ := (raises_bind_of_not raises_ownershipText).mp h
  exact raises_ok _ h

/-- **The ownership marker.** -/
theorem raises_loadOwnership_iff {path : PyText} {content : Content} :
    Raises (loadOwnership I path (some content)) ↔ content.Traps I (ShownVersionTraps I) :=
  raises_readJson_bind_iff fun _ =>
    (raises_bind_iff_left fun _ => raises_ok _).trans raises_validateOwnershipDocument_iff

end Index

/-! ### The intent -/

namespace Intent

open Index (Artifact computeManifestHash raises_manifestHash_iff)

/-- The checks of an artifact raise nothing. -/
theorem raises_artifactStep {label : String} (artifacts : List Artifact) (entry : PyJson) :
    ¬ Raises (artifactStep I label artifacts entry) := by
  rw [artifactStep, raises_bind_of_not raises_dictOr]
  rintro ⟨fields, -, h⟩
  obtain ⟨path, -, h⟩ := (raises_bind_of_not raises_textUnless).mp h
  obtain ⟨_, -, h⟩ := (raises_bind_of_not (raises_require _ _)).mp h
  obtain ⟨size, -, h⟩ := (raises_bind_of_not raises_intFrom).mp h
  obtain ⟨digest, -, h⟩ := (raises_bind_of_not raises_textUnless).mp h
  exact raises_ok _ h

@[simp] theorem raises_artifactsFromList {label : String} {payload : PyJson} :
    ¬ Raises (artifactsFromList I label payload) := by
  rw [artifactsFromList, raises_bind_of_not raises_listOr]
  rintro ⟨entries, -, h⟩
  exact not_raises_foldlM raises_artifactStep h

theorem raises_groupFields {path : PyText} {groups : List Group} {entry : PyJson} :
    ¬ Raises (groupFields I path groups entry) := by
  rw [groupFields, raises_bind_of_not raises_dictOr]
  rintro ⟨fields, -, h⟩
  obtain ⟨groupId, -, h⟩ := (raises_bind_of_not raises_textUnless).mp h
  obtain ⟨_, -, h⟩ := (raises_bind_of_not (raises_require _ _)).mp h
  obtain ⟨layoutId, -, h⟩ := (raises_bind_of_not raises_textUnless).mp h
  obtain ⟨system, -, h⟩ := (raises_bind_of_not raises_textUnless).mp h
  obtain ⟨expected, -, h⟩ := (raises_bind_of_not raises_intFrom).mp h
  obtain ⟨before, -, h⟩ := (raises_bind_of_not raises_artifactsFromList).mp h
  obtain ⟨desired, -, h⟩ := (raises_bind_of_not raises_artifactsFromList).mp h
  exact raises_ok _ h

/-- A group of an intent traps where the digest of one of its manifests is computed. -/
def GroupTraps (I : Interpreter) (path : PyText) (groups : List Group) (entry : PyJson) : Prop :=
  ∃ group declared, groupFields I path groups entry = .ok (group, declared)
    ∧ ∃ a ∈ group.before ++ group.desired, a.Unencodable

theorem raises_groupStep_iff {path : PyText} {groups : List Group} {entry : PyJson} :
    Raises (groupStep I path groups entry) ↔ GroupTraps I path groups entry := by
  rw [groupStep, raises_bind_of_not raises_groupFields]
  unfold GroupTraps
  simp only [List.mem_append, or_and_right, exists_or]
  constructor
  · rintro ⟨⟨group, declared⟩, hfields, h⟩
    refine ⟨group, declared, hfields, ?_⟩
    rcases raises_bind.mp h with h | ⟨beforeHash, -, h⟩
    · exact Or.inl (raises_manifestHash_iff.mp h)
    · rcases raises_bind.mp h with h | ⟨desiredHash, -, h⟩
      · exact Or.inr (raises_manifestHash_iff.mp h)
      · dsimp only at h
        obtain ⟨_, -, h⟩ := (raises_bind_of_not (raises_require _ _)).mp h
        obtain ⟨_, -, h⟩ := (raises_bind_of_not (raises_require _ _)).mp h
        exact absurd h (raises_ok _)
  · rintro ⟨group, declared, hfields, hbad⟩
    refine ⟨(group, declared), hfields, ?_⟩
    by_cases hbefore : ∃ a ∈ group.before, a.Unencodable
    · exact raises_bind.mpr (Or.inl (raises_manifestHash_iff.mpr hbefore))
    · -- the digest of the first manifest is there
      have hnot : ¬ Raises (raising (computeManifestHash I group.before)) :=
        fun h => hbefore (raises_manifestHash_iff.mp h)
      cases hhash : raising (computeManifestHash I group.before) with
      | error e =>
        cases e with
        | raised e => exact absurd ⟨e, hhash⟩ hnot
        | saveSync message =>
          cases hcompute : computeManifestHash I group.before with
          | ok hash => rw [hcompute] at hhash; cases hhash
          | error e => rw [hcompute] at hhash; cases hhash
      | ok beforeHash =>
        rw [ok_bind, raises_bind]
        exact Or.inl (raises_manifestHash_iff.mpr (hbad.resolve_left hbefore))

/-- An intent on which another exception leaves the checks. -/
def Traps (I : Interpreter) (path : PyText) (payload : PyJson) : Prop :=
  ∃ fields, payload = .dict fields ∧
    (VersionTraps I (get fields "schema_version") ∨
      (get fields "schema_version").isOne = true ∧
        ((get fields "phase").unhashable = true ∨
          (∃ phase, get fields "phase" = .str phase ∧ phases.any (text · == phase) = true) ∧
            ((PyJson.getOr fields "publication_scope" (.str (text "group"))).unhashable = true ∨
              (∃ scope, PyJson.getOr fields "publication_scope" (.str (text "group")) = .str scope
                ∧ scopes.any (text · == scope) = true)
              ∧ ∃ done entry rest groups,
                get fields "groups" = .list (done ++ entry :: rest)
                  ∧ done.foldlM (groupStep I path) [] = .ok groups
                  ∧ GroupTraps I path groups entry)))

theorem raises_intentFromDict_iff {path : PyText} {payload : PyJson} :
    Raises (intentFromDict I path payload) ↔ Traps I path payload := by
  rw [intentFromDict]
  dsimp only
  rw [raises_bind_of_not raises_dictOr]
  simp only [dictOr_eq_ok_iff]
  refine exists_congr fun fields => and_congr_right fun _ => ?_
  rw [raises_bind, raises_checkVersion_iff]
  refine or_congr Iff.rfl ?_
  constructor
  · rintro ⟨_, hversion, h⟩
    refine ⟨checkVersion_eq_ok_iff.mp hversion, ?_⟩
    rcases raises_bind.mp h with h | ⟨phase, hphase, h⟩
    · exact Or.inl (raises_nameIn_iff.mp h)
    refine Or.inr ⟨⟨phase, nameIn_eq_ok_iff.mp hphase⟩, ?_⟩
    rcases raises_bind.mp h with h | ⟨scope, hscope, h⟩
    · exact Or.inl (raises_nameIn_iff.mp h)
    refine Or.inr ⟨⟨scope, nameIn_eq_ok_iff.mp hscope⟩, ?_⟩
    obtain ⟨entries, hentries, h⟩ := (raises_bind_of_not raises_listOr).mp h
    have hloop : Raises (entries.foldlM (groupStep I path) []) := by
      refine (raises_bind_iff_left fun groups => ?_).mp h
      intro h
      obtain ⟨operationId, -, h⟩ := (raises_bind_of_not raises_textUnless).mp h
      obtain ⟨originDevice, -, h⟩ := (raises_bind_of_not raises_textUnless).mp h
      obtain ⟨datasetId, -, h⟩ := (raises_bind_of_not raises_textUnless).mp h
      obtain ⟨m, -, h⟩ := (raises_bind_of_not raises_intFrom).mp h
      obtain ⟨n, -, h⟩ := (raises_bind_of_not raises_intFrom).mp h
      obtain ⟨startedAt, -, h⟩ := (raises_bind_of_not raises_textUnless).mp h
      exact raises_ok _ h
    obtain ⟨done, entry, rest, groups, rfl, hdone, htraps⟩ := raises_foldlM_iff.mp hloop
    exact ⟨done, entry, rest, groups, listOr_eq_ok_iff.mp hentries, hdone,
      raises_groupStep_iff.mp htraps⟩
  · rintro ⟨hversion, h⟩
    refine ⟨(), checkVersion_eq_ok_iff.mpr hversion, raises_bind.mpr ?_⟩
    rcases h with hphase | ⟨⟨phase, hphase⟩, h⟩
    · exact Or.inl (raises_nameIn_iff.mpr hphase)
    refine Or.inr ⟨phase, nameIn_eq_ok_iff.mpr hphase, raises_bind.mpr ?_⟩
    rcases h with hscope | ⟨⟨scope, hscope⟩, done, entry, rest, groups, hentries, hdone, htraps⟩
    · exact Or.inl (raises_nameIn_iff.mpr hscope)
    refine Or.inr ⟨scope, nameIn_eq_ok_iff.mpr hscope, ?_⟩
    rw [listOr_eq_ok_iff.mpr hentries, ok_bind, raises_bind]
    exact Or.inl (raises_foldlM_iff.mpr ⟨done, entry, rest, groups, rfl, hdone,
      raises_groupStep_iff.mpr htraps⟩)

/-- **The intent.** -/
theorem raises_loadIntent_iff {path : PyText} {content : Content} :
    Raises (loadIntent I path (some content)) ↔ content.Traps I (Traps I path) :=
  raises_readJson_bind_iff fun _ =>
    (raises_bind_iff_left fun _ => raises_ok _).trans raises_intentFromDict_iff

end Intent

end RomCloud.SaveSync.SharedMetadata
