import RomCloud.SaveSync.MalformedIndex

namespace RomCloud.SaveSync.SharedMetadata

open RomCloud.Lib

/-!
# Malformed shared metadata

* `Index.Shard.Valid` and its siblings — what the checks make sure of, for each kind of document;
* `Contains` — a reader returns what passed its checks, or fails with `SaveSyncError`;
* `Contained`, `Harmless` — all files together;
* `contained_iff` — the readers contain exactly the files without a trap.
-/

variable {I : Interpreter} {α β : Type}

/-! ### Documents that passed -/

namespace Index

structure Artifact.Valid (system : PyText) (artifact : Artifact) : Prop where
  safe : isUnsafePath artifact.path = false
  within : isWithin system artifact.path = true
  size : 0 ≤ artifact.sizeBytes
  sha256 : isSha256Hex artifact.sha256 = true

/-- The artifacts of a group have paths of their own, in its system. A group with artifacts is no
    tombstone. -/
structure Group.Valid (layoutId : PyText) (group : Group) : Prop where
  within : (layoutId ++ [47]).isPrefixOf group.groupId = true
  layout : group.layoutId = layoutId
  system : group.system.blank = false
  generation : 0 ≤ group.groupGeneration
  artifacts : ∀ artifact ∈ group.artifacts, artifact.Valid group.system
  paths : (group.artifacts.map Artifact.path).Nodup
  completed : ∀ t, group.completedTransactionId = some t → t.blank = false
  container : ∀ t, group.containerHead = some t → t.blank = false
  tombstone : group.tombstoned = false ∨ group.artifacts = []

structure Shard.Valid (shard : Shard) : Prop where
  dataset : shard.datasetId.blank = false
  layout : isSafeLayoutId shard.layoutId = true
  generation : 1 ≤ shard.generation
  groups : ∀ group ∈ shard.groups, group.Valid shard.layoutId

/-- The file that a HEAD names is one of the layout. -/
structure LayoutHead.Valid (layoutId : PyText) (layoutHead : LayoutHead) : Prop where
  layout : isSafeLayoutId layoutId = true
  generation : 1 ≤ layoutHead.generation
  object : (layoutId ++ [46]).isPrefixOf layoutHead.object = true
    ∧ layoutHead.object.contains 47 = false ∧ layoutHead.object.contains 92 = false
  digest : isSha256Hex layoutHead.digest = true

structure Head.Valid (head : Head) : Prop where
  dataset : head.datasetId.blank = false
  indexGeneration : 0 ≤ head.indexGeneration
  journalGeneration : 0 ≤ head.journalGeneration
  layouts : ∀ entry ∈ head.layouts, entry.2.Valid entry.1

structure OwnershipMarker.Valid (marker : OwnershipMarker) : Prop where
  protocol : marker.protocolVersion = Index.protocolVersion
  dataset : marker.datasetId.blank = false
  establishedAt : marker.establishedAt.blank = false
  establishedByDevice : marker.establishedByDevice.blank = false

theorem sha256Hex_eq_ok {value : PyJson} {label : String} {t : PyText}
    (h : sha256Hex value label = .ok t) : isSha256Hex t = true := by
  have hbad : (!isSha256Hex t) = false := (textUnless_eq_ok_iff.mp h).2
  simpa using hbad

theorem optionalNonempty_eq_ok {value : PyJson} {label : String} {found : Option PyText}
    (h : optionalNonempty value label = .ok found) : ∀ t, found = some t → t.blank = false := by
  rintro t rfl
  cases value with
  | null => cases h
  | _ =>
    obtain ⟨t', ht, h⟩ := bind_eq_ok h
    obtain rfl := Option.some.inj (Except.ok.inj h)
    exact (nonemptyText_eq_ok_iff.mp ht).2

theorem artifactFromDict_spec {system : PyText} {payload : PyJson} {artifact : Artifact}
    (h : artifactFromDict I system payload = .ok artifact) : artifact.Valid system := by
  obtain ⟨fields, -, h⟩ := bind_eq_ok h
  obtain ⟨path, hpath, h⟩ := bind_eq_ok h
  obtain ⟨size, hsize, h⟩ := bind_eq_ok h
  obtain ⟨digest, hdigest, h⟩ := bind_eq_ok h
  obtain rfl := Except.ok.inj h
  obtain ⟨found, -, hpath⟩ := bind_eq_ok hpath
  by_cases hunsafe : isUnsafePath found = true
  · rw [if_pos hunsafe] at hpath
    cases hpath
  rw [if_neg hunsafe] at hpath
  by_cases hwithin : isWithin system found = true
  · rw [if_pos hwithin] at hpath
    obtain rfl := Except.ok.inj hpath
    exact ⟨Bool.eq_false_iff.mpr hunsafe, hwithin, (intFrom_eq_ok_iff.mp hsize).2,
      sha256Hex_eq_ok hdigest⟩
  · rw [if_neg hwithin] at hpath
    cases hpath

/-- Adding a key that is not there keeps the keys different. -/
theorem nodup_map_append {γ : Type} {key : γ → PyText} {l : List γ} {x : γ}
    (h : (l.map key).Nodup) (hnew : (l.map key).contains (key x) = false) :
    ((l ++ [x]).map key).Nodup := by
  rw [List.map_append, List.map_singleton, ← List.concat_eq_append, List.nodup_concat]
  refine ⟨fun hmem => ?_, h⟩
  rw [List.contains_iff_mem.mpr hmem] at hnew
  cases hnew

theorem artifacts_spec {groupId system : PyText} {entries : List PyJson}
    {artifacts : List Artifact}
    (h : entries.foldlM (artifactStep I groupId system) [] = .ok artifacts) :
    (∀ a ∈ artifacts, a.Valid system) ∧ (artifacts.map Artifact.path).Nodup := by
  refine (@foldlM_outcome LoadError (List Artifact) PyJson (artifactStep I groupId system)
    (fun artifacts => (∀ a ∈ artifacts, a.Valid system) ∧ (artifacts.map Artifact.path).Nodup)
    (fun _ => True) entries ?_ [] ⟨fun a ha => absurd ha List.not_mem_nil, List.nodup_nil⟩).1
    artifacts h
  intro s hs entry _
  refine ⟨fun t ht => ?_, fun e _ => trivial⟩
  obtain ⟨artifact, hartifact, ht⟩ := bind_eq_ok ht
  by_cases hseen : (s.map Artifact.path).contains artifact.path = true
  · rw [if_pos hseen] at ht
    cases ht
  rw [if_neg hseen] at ht
  obtain rfl := Except.ok.inj ht
  refine ⟨fun a ha => ?_, nodup_map_append hs.2 (Bool.eq_false_iff.mpr hseen)⟩
  rcases List.mem_append.mp ha with hold | hnew
  · exact hs.1 a hold
  · rw [List.mem_singleton.mp hnew]
    exact artifactFromDict_spec hartifact

theorem groupFromDict_spec {layoutId groupId : PyText} {payload : PyJson} {group : Group}
    (h : groupFromDict I layoutId groupId payload = .ok group) : group.Valid layoutId := by
  obtain ⟨⟨found, declaredHash⟩, hfields, h⟩ := bind_eq_ok h
  obtain ⟨hash, -, h⟩ := bind_eq_ok h
  obtain ⟨_, -, h⟩ := bind_eq_ok h
  obtain ⟨_, htombstone, h⟩ := bind_eq_ok h
  obtain rfl := Except.ok.inj h
  obtain ⟨fields, -, h⟩ := bind_eq_ok hfields
  obtain ⟨_, hwithin, h⟩ := bind_eq_ok h
  obtain ⟨declared, -, h⟩ := bind_eq_ok h
  obtain ⟨_, hlayout, h⟩ := bind_eq_ok h
  obtain ⟨system, hsystem, h⟩ := bind_eq_ok h
  obtain ⟨entries, -, h⟩ := bind_eq_ok h
  obtain ⟨artifacts, hartifacts, h⟩ := bind_eq_ok h
  obtain ⟨generation, hgeneration, h⟩ := bind_eq_ok h
  obtain ⟨origin, -, h⟩ := bind_eq_ok h
  obtain ⟨completed, hcompleted, h⟩ := bind_eq_ok h
  obtain ⟨container, hcontainer, h⟩ := bind_eq_ok h
  obtain ⟨digest, -, h⟩ := bind_eq_ok h
  have hgroup := (Prod.mk.inj (Except.ok.inj h)).1
  obtain ⟨hvalid, hnodup⟩ := artifacts_spec hartifacts
  have htombstone := (require_eq_ok_iff _ _).mp htombstone
  rw [← hgroup] at htombstone ⊢
  exact ⟨(require_eq_ok_iff _ _).mp hwithin, rfl, (nonemptyText_eq_ok_iff.mp hsystem).2,
    (intFrom_eq_ok_iff.mp hgeneration).2, hvalid, hnodup, optionalNonempty_eq_ok hcompleted,
    optionalNonempty_eq_ok hcontainer, htombstone⟩

theorem valid_of_validateShardDocument {path : PyText} {payload : PyJson} {shard : Shard}
    (h : validateShardDocument I path payload = .ok shard) : shard.Valid := by
  obtain ⟨fields, -, h⟩ := bind_eq_ok h
  obtain ⟨_, -, h⟩ := bind_eq_ok h
  obtain ⟨datasetId, hdataset, h⟩ := bind_eq_ok h
  obtain ⟨declared, -, h⟩ := bind_eq_ok h
  obtain ⟨layoutId, hlayout, h⟩ := bind_eq_ok h
  obtain ⟨n, hn, h⟩ := bind_eq_ok h
  obtain ⟨entries, -, h⟩ := bind_eq_ok h
  obtain ⟨groups, hgroups, h⟩ := bind_eq_ok h
  obtain rfl := Except.ok.inj h
  obtain ⟨rfl, hsafe⟩ := safeLayoutId_eq_ok_iff.mp hlayout
  refine ⟨(nonemptyText_eq_ok_iff.mp hdataset).2, hsafe, (intFrom_eq_ok_iff.mp hn).2, ?_⟩
  intro group hgroup
  obtain ⟨entry, -, hentry⟩ := (mem_of_mapEach hgroups).2 group hgroup
  exact groupFromDict_spec hentry

theorem valid_of_loadShard {path layoutId : PyText} {layoutHead : LayoutHead}
    {file : Option Content} {shard : Shard}
    (h : loadShard I path layoutId layoutHead file = .ok shard) : shard.Valid := by
  obtain ⟨document, -, h⟩ := bind_eq_ok h
  obtain ⟨payload, -, h⟩ := bind_eq_ok h
  obtain ⟨digest, -, h⟩ := bind_eq_ok h
  obtain ⟨_, -, h⟩ := bind_eq_ok h
  obtain ⟨found, hfound, h⟩ := bind_eq_ok h
  obtain ⟨_, -, h⟩ := bind_eq_ok h
  obtain rfl := Except.ok.inj h
  exact valid_of_validateShardDocument hfound

theorem headLayout_spec {entry : PyText × PyJson} {result : PyText × LayoutHead}
    (h : headLayout I entry = .ok result) : result.2.Valid result.1 := by
  obtain ⟨layoutId, hlayout, h⟩ := bind_eq_ok h
  obtain ⟨layoutHead, hhead, h⟩ := bind_eq_ok h
  obtain rfl := Except.ok.inj h
  obtain ⟨rfl, hsafe⟩ := safeLayoutId_eq_ok_iff.mp hlayout
  obtain ⟨fields, -, h⟩ := bind_eq_ok hhead
  obtain ⟨n, hn, h⟩ := bind_eq_ok h
  obtain ⟨object, -, h⟩ := bind_eq_ok h
  obtain ⟨layoutId, hlayout, h⟩ := bind_eq_ok h
  obtain ⟨_, hobject, h⟩ := bind_eq_ok h
  obtain ⟨digest, hdigest, h⟩ := bind_eq_ok h
  obtain rfl := Except.ok.inj h
  obtain ⟨rfl, -⟩ := safeLayoutId_eq_ok_iff.mp hlayout
  exact ⟨hsafe, (intFrom_eq_ok_iff.mp hn).2, (require_eq_ok_iff _ _).mp hobject,
    sha256Hex_eq_ok hdigest⟩

theorem valid_of_loadHead {path : PyText} {file : Option Content} {head : Head}
    (h : loadHead I path file = .ok (some head)) : head.Valid := by
  cases file with
  | none => cases h
  | some content =>
    obtain ⟨payload, -, h⟩ := bind_eq_ok h
    obtain ⟨found, hfound, h⟩ := bind_eq_ok h
    obtain rfl := Option.some.inj (Except.ok.inj h)
    obtain ⟨fields, -, h⟩ := bind_eq_ok hfound
    obtain ⟨_, -, h⟩ := bind_eq_ok h
    obtain ⟨datasetId, hdataset, h⟩ := bind_eq_ok h
    obtain ⟨m, hm, h⟩ := bind_eq_ok h
    obtain ⟨n, hn, h⟩ := bind_eq_ok h
    obtain ⟨entries, -, h⟩ := bind_eq_ok h
    obtain ⟨layouts, hlayouts, h⟩ := bind_eq_ok h
    obtain rfl := Except.ok.inj h
    refine ⟨(nonemptyText_eq_ok_iff.mp hdataset).2, (intFrom_eq_ok_iff.mp hm).2,
      (intFrom_eq_ok_iff.mp hn).2, ?_⟩
    intro result hresult
    obtain ⟨entry, -, hentry⟩ := (mem_of_mapEach hlayouts).2 result hresult
    exact headLayout_spec hentry

theorem valid_of_loadOwnership {path : PyText} {file : Option Content} {marker : OwnershipMarker}
    (h : loadOwnership I path file = .ok (some marker)) : marker.Valid := by
  cases file with
  | none => cases h
  | some content =>
    obtain ⟨payload, -, h⟩ := bind_eq_ok h
    obtain ⟨found, hfound, h⟩ := bind_eq_ok h
    obtain rfl := Option.some.inj (Except.ok.inj h)
    obtain ⟨fields, -, h⟩ := bind_eq_ok hfound
    obtain ⟨_, -, h⟩ := bind_eq_ok h
    obtain ⟨protocol, hprotocol, h⟩ := bind_eq_ok h
    obtain ⟨_, hnewer, h⟩ := bind_eq_ok h
    obtain ⟨datasetId, hdataset, h⟩ := bind_eq_ok h
    obtain ⟨establishedAt, hestablished, h⟩ := bind_eq_ok h
    obtain ⟨device, hdevice, h⟩ := bind_eq_ok h
    obtain rfl := Except.ok.inj h
    have hleast := (intFrom_eq_ok_iff.mp hprotocol).2
    have hmost := (require_eq_ok_iff _ _).mp hnewer
    refine ⟨?_, (textUnless_eq_ok_iff.mp hdataset).2, (textUnless_eq_ok_iff.mp hestablished).2,
      (textUnless_eq_ok_iff.mp hdevice).2⟩
    show protocol = Index.protocolVersion
    unfold Index.protocolVersion at hmost ⊢
    omega

end Index

namespace Intent

open Index (Artifact nodup_map_append)

structure ArtifactValid (artifact : Artifact) : Prop where
  path : artifact.path.isEmpty = false
  size : 0 ≤ artifact.sizeBytes
  sha256 : artifact.sha256.length = 64

structure Group.Valid (group : Group) : Prop where
  groupId : group.groupId.isEmpty = false
  layout : group.layoutId.isEmpty = false
  system : group.system.isEmpty = false
  generation : 0 ≤ group.expectedGroupGeneration
  before : (∀ a ∈ group.before, ArtifactValid a) ∧ (group.before.map Artifact.path).Nodup
  desired : (∀ a ∈ group.desired, ArtifactValid a) ∧ (group.desired.map Artifact.path).Nodup

structure CommitIntent.Valid (intent : CommitIntent) : Prop where
  phase : phases.any (text · == intent.phase) = true
  scope : scopes.any (text · == intent.publicationScope) = true
  groups : (∀ group ∈ intent.groups, group.Valid) ∧ (intent.groups.map Group.groupId).Nodup
  operation : intent.operationId.blank = false
  device : intent.originDevice.blank = false
  dataset : intent.datasetId.blank = false
  started : intent.startedAt.blank = false
  baseIndex : 0 ≤ intent.baseIndexGeneration
  baseJournal : 0 ≤ intent.baseJournalGeneration

theorem artifacts_spec {label : String} {payload : PyJson} {artifacts : List Artifact}
    (h : artifactsFromList I label payload = .ok artifacts) :
    (∀ a ∈ artifacts, ArtifactValid a) ∧ (artifacts.map Artifact.path).Nodup := by
  obtain ⟨entries, -, h⟩ := bind_eq_ok h
  refine (@foldlM_outcome LoadError (List Artifact) PyJson (artifactStep I label)
    (fun artifacts => (∀ a ∈ artifacts, ArtifactValid a) ∧ (artifacts.map Artifact.path).Nodup)
    (fun _ => True) entries ?_ [] ⟨fun a ha => absurd ha List.not_mem_nil, List.nodup_nil⟩).1
    artifacts h
  intro s hs entry _
  refine ⟨fun t ht => ?_, fun e _ => trivial⟩
  obtain ⟨fields, -, ht⟩ := bind_eq_ok ht
  obtain ⟨path, hpath, ht⟩ := bind_eq_ok ht
  obtain ⟨_, hseen, ht⟩ := bind_eq_ok ht
  obtain ⟨size, hsize, ht⟩ := bind_eq_ok ht
  obtain ⟨digest, hdigest, ht⟩ := bind_eq_ok ht
  obtain rfl := Except.ok.inj ht
  refine ⟨fun a ha => ?_, nodup_map_append hs.2 ((require_eq_ok_iff _ _).mp hseen)⟩
  rcases List.mem_append.mp ha with hold | hnew
  · exact hs.1 a hold
  · rw [List.mem_singleton.mp hnew]
    refine ⟨(textUnless_eq_ok_iff.mp hpath).2, (intFrom_eq_ok_iff.mp hsize).2, ?_⟩
    have hlength := (textUnless_eq_ok_iff.mp hdigest).2
    simpa using hlength

theorem groups_spec {path : PyText} {entries : List PyJson} {groups : List Group}
    (h : entries.foldlM (groupStep I path) [] = .ok groups) :
    (∀ group ∈ groups, group.Valid) ∧ (groups.map Group.groupId).Nodup := by
  refine (@foldlM_outcome LoadError (List Group) PyJson (groupStep I path)
    (fun groups => (∀ group ∈ groups, group.Valid) ∧ (groups.map Group.groupId).Nodup)
    (fun _ => True) entries ?_ [] ⟨fun a ha => absurd ha List.not_mem_nil, List.nodup_nil⟩).1
    groups h
  intro s hs entry _
  refine ⟨fun t ht => ?_, fun e _ => trivial⟩
  obtain ⟨⟨group, declared⟩, hfields, ht⟩ := bind_eq_ok ht
  obtain ⟨beforeHash, -, ht⟩ := bind_eq_ok ht
  obtain ⟨desiredHash, -, ht⟩ := bind_eq_ok ht
  obtain ⟨_, -, ht⟩ := bind_eq_ok ht
  obtain ⟨_, -, ht⟩ := bind_eq_ok ht
  obtain rfl := Except.ok.inj ht
  obtain ⟨fields, -, hf⟩ := bind_eq_ok hfields
  obtain ⟨groupId, hgroupId, hf⟩ := bind_eq_ok hf
  obtain ⟨_, hseen, hf⟩ := bind_eq_ok hf
  obtain ⟨layoutId, hlayout, hf⟩ := bind_eq_ok hf
  obtain ⟨system, hsystem, hf⟩ := bind_eq_ok hf
  obtain ⟨expected, hexpected, hf⟩ := bind_eq_ok hf
  obtain ⟨before, hbefore, hf⟩ := bind_eq_ok hf
  obtain ⟨desired, hdesired, hf⟩ := bind_eq_ok hf
  obtain rfl := (Prod.mk.inj (Except.ok.inj hf)).1
  refine ⟨fun a ha => ?_, nodup_map_append hs.2 ((require_eq_ok_iff _ _).mp hseen)⟩
  rcases List.mem_append.mp ha with hold | hnew
  · exact hs.1 a hold
  · rw [List.mem_singleton.mp hnew]
    exact ⟨(textUnless_eq_ok_iff.mp hgroupId).2, (textUnless_eq_ok_iff.mp hlayout).2,
      (textUnless_eq_ok_iff.mp hsystem).2, (intFrom_eq_ok_iff.mp hexpected).2,
      artifacts_spec hbefore, artifacts_spec hdesired⟩

theorem valid_of_loadIntent {path : PyText} {file : Option Content} {intent : CommitIntent}
    (h : loadIntent I path file = .ok (some intent)) : intent.Valid := by
  cases file with
  | none => cases h
  | some content =>
    obtain ⟨payload, -, h⟩ := bind_eq_ok h
    obtain ⟨found, hfound, h⟩ := bind_eq_ok h
    obtain rfl := Option.some.inj (Except.ok.inj h)
    obtain ⟨fields, -, h⟩ := bind_eq_ok hfound
    obtain ⟨_, -, h⟩ := bind_eq_ok h
    obtain ⟨phase, hphase, h⟩ := bind_eq_ok h
    obtain ⟨scope, hscope, h⟩ := bind_eq_ok h
    obtain ⟨entries, -, h⟩ := bind_eq_ok h
    obtain ⟨groups, hgroups, h⟩ := bind_eq_ok h
    obtain ⟨operationId, hoperation, h⟩ := bind_eq_ok h
    obtain ⟨originDevice, hdevice, h⟩ := bind_eq_ok h
    obtain ⟨datasetId, hdataset, h⟩ := bind_eq_ok h
    obtain ⟨m, hm, h⟩ := bind_eq_ok h
    obtain ⟨n, hn, h⟩ := bind_eq_ok h
    obtain ⟨startedAt, hstarted, h⟩ := bind_eq_ok h
    obtain rfl := Except.ok.inj h
    exact ⟨(nameIn_eq_ok_iff.mp hphase).2, (nameIn_eq_ok_iff.mp hscope).2, groups_spec hgroups,
      (textUnless_eq_ok_iff.mp hoperation).2, (textUnless_eq_ok_iff.mp hdevice).2,
      (textUnless_eq_ok_iff.mp hdataset).2, (textUnless_eq_ok_iff.mp hstarted).2,
      (intFrom_eq_ok_iff.mp hm).2, (intFrom_eq_ok_iff.mp hn).2⟩

end Intent

/-! ### All files together -/

/-- A reader returns what passed its checks, or fails with `SaveSyncError`. -/
def Contains (valid : α → Prop) (x : Except LoadError α) : Prop :=
  (∃ a, x = .ok a ∧ valid a) ∨ ∃ message, x = .error (.saveSync message)

theorem contains_iff {valid : α → Prop} {x : Except LoadError α}
    (h : ∀ a, x = .ok a → valid a) : Contains valid x ↔ ¬ Raises x := by
  cases x with
  | ok a => exact iff_of_true (Or.inl ⟨a, rfl, h a rfl⟩) (raises_ok a)
  | error e =>
    cases e with
    | saveSync message => exact iff_of_true (Or.inr ⟨message, rfl⟩) (raises_saveSync message)
    | raised e =>
      refine iff_of_false ?_ (not_not.mpr (raises_raised e))
      rintro (⟨a, ha, -⟩ | ⟨message, hmessage⟩)
      · cases ha
      · cases hmessage

/-- What the readers find: the files with their paths, what stands beside the journal, and the entry
    of HEAD for which a shard is read. -/
structure SharedFiles where
  journalPath : PyText
  journal : Content
  corrupt : Option Content
  movable : Bool
  headPath : PyText
  head : Content
  shardPath : PyText
  layoutId : PyText
  layoutHead : Index.LayoutHead
  shard : Option Content
  ownershipPath : PyText
  ownership : Content
  intentPath : PyText
  intent : Content

/-- Each reader contains what is wrong with its file, and the journal can be reset. -/
structure Contained (I : Interpreter) (files : SharedFiles) : Prop where
  journal : Contains Journal.Validated.Valid
    (Journal.load I files.journalPath (some files.journal))
  reset : Journal.Resets I files.journalPath files.movable ⟨some files.journal, files.corrupt⟩
  head : Contains (fun found => ∀ head, found = some head → head.Valid)
    (Index.loadHead I files.headPath (some files.head))
  shard : Contains Index.Shard.Valid
    (Index.loadShard I files.shardPath files.layoutId files.layoutHead files.shard)
  ownership : Contains (fun found => ∀ marker, found = some marker → marker.Valid)
    (Index.loadOwnership I files.ownershipPath (some files.ownership))
  intent : Contains (fun found => ∀ intent, found = some intent → intent.Valid)
    (Intent.loadIntent I files.intentPath (some files.intent))

/-- No file traps. -/
structure Harmless (I : Interpreter) (files : SharedFiles) : Prop where
  journal : ¬ files.journal.Traps I (Journal.Traps I)
  head : ¬ files.head.Traps I (Index.ShownVersionTraps I)
  shardName : files.layoutHead.object.isFileName = true
  shard : ¬ Index.ShardFileTraps I files.layoutHead files.shard
  ownership : ¬ files.ownership.Traps I (Index.ShownVersionTraps I)
  intent : ¬ files.intent.Traps I (Intent.Traps I files.intentPath)

/-- **Malformed metadata.** The readers contain what is wrong with the shared files exactly when
    none of them traps. -/
theorem contained_iff (I : Interpreter) (files : SharedFiles) :
    Contained I files ↔ Harmless I files := by
  have hjournal : ∀ document, Journal.load I files.journalPath (some files.journal) = .ok document →
      document.Valid := fun document h => Journal.valid_of_load h
  have hhead : ∀ found, Index.loadHead I files.headPath (some files.head) = .ok found →
      ∀ head, found = some head → head.Valid := by
    rintro found h head rfl
    exact Index.valid_of_loadHead h
  have hshard : ∀ shard, Index.loadShard I files.shardPath files.layoutId files.layoutHead
      files.shard = .ok shard → shard.Valid := fun shard h => Index.valid_of_loadShard h
  have hownership : ∀ found, Index.loadOwnership I files.ownershipPath (some files.ownership)
      = .ok found → ∀ marker, found = some marker → marker.Valid := by
    rintro found h marker rfl
    exact Index.valid_of_loadOwnership h
  have hintent : ∀ found, Intent.loadIntent I files.intentPath (some files.intent) = .ok found →
      ∀ intent, found = some intent → intent.Valid := by
    rintro found h intent rfl
    exact Intent.valid_of_loadIntent h
  constructor
  · intro h
    have hload := (contains_iff hshard).mp h.shard
    rw [Index.raises_loadShard_iff, not_or] at hload
    exact ⟨fun htraps => (contains_iff hjournal).mp h.journal (Journal.raises_load_iff.mpr htraps),
      fun htraps => (contains_iff hhead).mp h.head (Index.raises_loadHead_iff.mpr htraps),
      Bool.eq_true_of_not_eq_false hload.1, hload.2,
      fun htraps => (contains_iff hownership).mp h.ownership
        (Index.raises_loadOwnership_iff.mpr htraps),
      fun htraps => (contains_iff hintent).mp h.intent (Intent.raises_loadIntent_iff.mpr htraps)⟩
  · intro h
    refine ⟨(contains_iff hjournal).mpr (mt Journal.raises_load_iff.mp h.journal),
      Journal.resets_iff.mpr (mt Journal.raises_load_iff.mp h.journal),
      (contains_iff hhead).mpr (mt Index.raises_loadHead_iff.mp h.head),
      (contains_iff hshard).mpr ?_,
      (contains_iff hownership).mpr (mt Index.raises_loadOwnership_iff.mp h.ownership),
      (contains_iff hintent).mpr (mt Intent.raises_loadIntent_iff.mp h.intent)⟩
    rw [Index.raises_loadShard_iff, h.shardName]
    rintro (hname | htraps)
    · cases hname
    · exact h.shard htraps

end RomCloud.SaveSync.SharedMetadata
