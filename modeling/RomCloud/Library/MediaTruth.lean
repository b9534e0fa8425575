import RomCloud.Library.MediaSync

namespace RomCloud.Library

open Lib

/-!
# One content for each descriptor

A merge keeps what the base has, and adds what only the incoming dataset has.  It fills the gaps of
a descriptor field by field, so that a descriptor may get the path of another file: then a later run
takes that file for the recorded source, and replaces the stored content by it.

* `MergeKeeps`, `mergeKeeps_iff` — what a merge should do, and for which datasets it does;
* `Truthful` — the digest of a descriptor is one that the file at its source path has had;
* `Matching` — the runs in which every descriptor is filled from one content;
* `SourceRewritten` — a step replaces a digest of the shared dataset only by that of the recorded
  source file, which has had both;
* `merge_keeps_media` — the two results together.
-/

/-! ### One merge -/

/-- Two descriptors are of one content: the digests say so, or, where one has none, the paths of
the source file. -/
def Descriptor.oneContent (d v : Descriptor) : Bool :=
  match d.sha, v.sha with
  | some a, some b => a = b
  | _, _ => d.source.isSome && d.source = v.source

/-- No descriptor has a gap that one of another content would fill. -/
def Unmixed (base incoming : Dataset) : Prop :=
  ∀ p ∈ base.entries, ∀ c ∈ (incoming.get? p.1).toList, ∀ q ∈ p.2.media.entries,
    ∀ v ∈ (c.media.get? q.1).toList, q.2 ≠ .empty → q.2.Gap v → q.2.oneContent v = true

instance (base incoming : Dataset) : Decidable (Unmixed base incoming) := by
  unfold Unmixed
  infer_instance

/-- What a merge should do: the metadata of the base stay, what only the incoming dataset has is
added, the same input changes nothing again, and a descriptor gets fields from one of the same
content only. -/
structure MergeKeeps (base incoming : Dataset) : Prop where
  kept : ∀ id r tag value, base.get? id = some r →
    given isBlank (r.metadata.get? tag) = some value →
    ∃ r', (merge base incoming).get? id = some r' ∧ r'.metadata.get? tag = some value
  addedRecord : ∀ id c, base.get? id = none → incoming.get? id = some c →
    (merge base incoming).get? id = some c
  addedValue : ∀ id r c tag value, base.get? id = some r → incoming.get? id = some c →
    given isBlank (r.metadata.get? tag) = none →
    given isBlank (c.metadata.get? tag) = some value →
    ∃ r', (merge base incoming).get? id = some r' ∧ r'.metadata.get? tag = some value
  addedMedia : ∀ id r c tag v, base.get? id = some r → incoming.get? id = some c →
    (r.media.get? tag = none ∨ r.media.get? tag = some .empty) → c.media.get? tag = some v →
    v ≠ .empty → ∃ r', (merge base incoming).get? id = some r' ∧ r'.media.get? tag = some v
  again : merge (merge base incoming) incoming = merge base incoming
  coherent : ∀ id r c r' tag d v, base.get? id = some r → incoming.get? id = some c →
    (merge base incoming).get? id = some r' → r.media.get? tag = some d → d ≠ .empty →
    c.media.get? tag = some v → r'.media.get? tag ≠ some d → d.oneContent v = true

section Merge

variable {base incoming : Dataset}

theorem unmixed_iff : Unmixed base incoming ↔ ∀ id r c tag d v, base.get? id = some r →
    incoming.get? id = some c → r.media.get? tag = some d → c.media.get? tag = some v →
    d ≠ .empty → d.Gap v → d.oneContent v = true := by
  constructor
  · intro h id r c tag d v hr hc hd hv
    exact h _ ((base.get?_eq_some_iff id r).mp hr) c (Option.mem_toList.mpr hc) _
      ((r.media.get?_eq_some_iff tag d).mp hd) v (Option.mem_toList.mpr hv)
  · rintro h ⟨id, r⟩ hr c hc ⟨tag, d⟩ hd v hv
    exact h id r c tag d v ((base.get?_eq_some_iff id r).mpr hr) (Option.mem_toList.mp hc)
      ((r.media.get?_eq_some_iff tag d).mpr hd) (Option.mem_toList.mp hv)

/-- A value of the base stays, whatever comes in. -/
theorem mergeValue_of_given {existing : Option String} {value : String}
    (h : given isBlank existing = some value) (other : String) :
    mergeValue existing other = some value := by
  have hvalue := (given_eq_some_iff.mp h).1
  unfold mergeValue fill
  rw [h]
  cases given isBlank (some other) with
  | none => exact hvalue
  | some _ => exact hvalue

/-- A descriptor that is not empty is filled. -/
theorem mergeDescriptor_of_ne_empty {d : Descriptor} (hd : d ≠ .empty) (v : Descriptor) :
    mergeDescriptor (some d) v = some (d.fillFrom v) := by
  by_cases hv : v = .empty
  · have hsame : d.fillFrom .empty = d := by
      simp [Descriptor.fillFrom, Descriptor.empty, fill, given]
    rw [mergeDescriptor, if_pos hv, hv, hsame]
  · simp only [mergeDescriptor, if_neg hv, if_neg hd]

/-- **A merge does what it should** just when it does not mix two contents. -/
theorem mergeKeeps_iff (base incoming : Dataset) :
    MergeKeeps base incoming ↔ Unmixed base incoming := by
  rw [unmixed_iff]
  constructor
  · intro h id r c tag d v hr hc hd hv hne hgap
    refine h.coherent id r c (r.merge c) tag d v hr hc (get?_merge hr hc) hd hne hv ?_
    rw [get?_media_merge, hv, Option.elim_some, hd, mergeDescriptor_of_ne_empty hne, ne_eq,
      Option.some.injEq]
    exact Descriptor.fillFrom_ne_iff.mpr hgap
  · intro h
    refine ⟨?_, fun id c => get?_merge_of_new, ?_, ?_, merge_again base incoming, ?_⟩
    · intro id r tag value hr hgiven
      have hvalue := (given_eq_some_iff.mp hgiven).1
      cases hc : incoming.get? id with
      | none => exact ⟨r, by rw [get?_merge_of_none hc, hr], hvalue⟩
      | some c =>
        refine ⟨r.merge c, get?_merge hr hc, ?_⟩
        rw [get?_metadata_merge]
        cases c.metadata.get? tag with
        | none => exact hvalue
        | some other => exact mergeValue_of_given hgiven other
    · intro id r c tag value hr hc hmissing hgiven
      refine ⟨r.merge c, get?_merge hr hc, ?_⟩
      have hvalue := (given_eq_some_iff.mp hgiven).1
      rw [get?_metadata_merge, hvalue, Option.elim_some, mergeValue, fill, ← hvalue, hgiven,
        hmissing]
      exact hvalue.symm
    · intro id r c tag v hr hc hmissing hv hne
      refine ⟨r.merge c, get?_merge hr hc, ?_⟩
      rw [get?_media_merge, hv, Option.elim_some]
      rcases hmissing with hnone | hempty
      · rw [hnone, mergeDescriptor, if_neg hne]
      · rw [hempty, mergeDescriptor, if_neg hne]
        simp
    · intro id r c r' tag d v hr hc hr' hd hne hv hchanged
      refine h id r c tag d v hr hc hd hv hne (Descriptor.fillFrom_ne_iff.mp ?_)
      rw [get?_merge hr hc, Option.some.injEq] at hr'
      rw [← hr', get?_media_merge, hv, Option.elim_some, hd, mergeDescriptor_of_ne_empty hne] at hchanged
      exact fun heq => hchanged (by rw [heq])

end Merge

/-! ### Truth -/

/-- The source file of the descriptor has had the content of its digest. -/
def Truthful (seen : String → String → List String) (system : String) (d : Descriptor) : Prop :=
  ∀ a p, d.sha = some a → d.source = some p → a ∈ seen system p

def TruthfulSet (seen : String → String → List String) (dataset : Dataset) : Prop :=
  ∀ id r tag d, dataset.get? id = some r → r.media.get? tag = some d → Truthful seen r.system d

/-- Records of one library id have one system. -/
def SameSystems (base incoming : Dataset) : Prop :=
  ∀ p ∈ base.entries, ∀ c ∈ (incoming.get? p.1).toList, p.2.system = c.system

instance (base incoming : Dataset) : Decidable (SameSystems base incoming) := by
  unfold SameSystems
  infer_instance

section Truth

variable {seen : String → String → List String} {system : String} {d v : Descriptor}
  {base incoming dataset : Dataset}

theorem Truthful.fillFrom (hd : Truthful seen system d) (hv : Truthful seen system v)
    (hone : d.Gap v → d.oneContent v = true) : Truthful seen system (d.fillFrom v) := by
  by_cases hgap : d.Gap v
  · intro a p hsha hsource
    rw [Descriptor.sha_fillFrom] at hsha
    rw [Descriptor.source_fillFrom] at hsource
    have hcontent := hone hgap
    unfold Descriptor.oneContent at hcontent
    cases hds : d.sha with
    | some b =>
      rw [hds, Option.some_or, Option.some.injEq] at hsha
      cases hvs : v.sha with
      | some c =>
        simp only [hds, hvs, decide_eq_true_eq] at hcontent
        cases hdp : d.source with
        | some q =>
          rw [hdp, Option.some_or] at hsource
          exact hd a p (hds.trans (congrArg some hsha)) (hdp.trans hsource)
        | none =>
          rw [hdp, Option.none_or] at hsource
          exact hv a p (by rw [hvs, ← hcontent, hsha]) hsource
      | none =>
        simp only [hds, hvs, Bool.and_eq_true, decide_eq_true_eq] at hcontent
        obtain ⟨q, hq⟩ := Option.isSome_iff_exists.mp hcontent.1
        rw [hq, Option.some_or] at hsource
        exact hd a p (hds.trans (congrArg some hsha)) (hq.trans hsource)
    | none =>
      rw [hds, Option.none_or] at hsha
      simp only [hds, Bool.and_eq_true, decide_eq_true_eq] at hcontent
      obtain ⟨q, hq⟩ := Option.isSome_iff_exists.mp hcontent.1
      rw [hq, Option.some_or] at hsource
      exact hv a p hsha (by rw [← hcontent.2, hq, hsource])
  · have hsame : d.fillFrom v = d := by
      by_contra hne
      exact hgap (Descriptor.fillFrom_ne_iff.mp hne)
    rw [hsame]
    exact hd

theorem TruthfulSet.empty : TruthfulSet seen ∅ := by
  intro id r tag d hr
  rw [Dict.get?_empty] at hr
  cases hr

theorem TruthfulSet.merge (hbase : TruthfulSet seen base) (hincoming : TruthfulSet seen incoming)
    (hunmixed : Unmixed base incoming) (hsame : SameSystems base incoming) :
    TruthfulSet seen (merge base incoming) := by
  intro id r' tag d' hr' hd'
  cases hc : incoming.get? id with
  | none =>
    rw [get?_merge_of_none hc] at hr'
    exact hbase id r' tag d' hr' hd'
  | some c =>
    cases hr : base.get? id with
    | none =>
      rw [get?_merge_of_new hr hc] at hr'
      cases hr'
      exact hincoming id _ tag d' hc hd'
    | some r =>
      rw [get?_merge hr hc] at hr'
      cases hr'
      have hsystem : r.system = c.system :=
        hsame _ ((base.get?_eq_some_iff id r).mp hr) c (Option.mem_toList.mpr hc)
      show Truthful seen r.system d'
      rw [get?_media_merge] at hd'
      cases hv : c.media.get? tag with
      | none =>
        rw [hv, Option.elim_none] at hd'
        exact hbase id r tag d' hr hd'
      | some v =>
        have hvtrue : Truthful seen r.system v := hsystem ▸ hincoming id c tag v hc hv
        rw [hv, Option.elim_some] at hd'
        cases hd : r.media.get? tag with
        | none =>
          rw [hd] at hd'
          by_cases hempty : v = .empty
          · simp [mergeDescriptor, hempty] at hd'
          · simp only [mergeDescriptor, if_neg hempty, Option.some.injEq] at hd'
            exact hd' ▸ hvtrue
        | some d =>
          rw [hd] at hd'
          by_cases hempty : d = .empty
          · by_cases hvempty : v = .empty
            · simp only [mergeDescriptor, if_pos hvempty, Option.some.injEq] at hd'
              exact hd' ▸ hbase id r tag d hr hd
            · simp only [mergeDescriptor, if_neg hvempty, if_pos hempty, Option.some.injEq] at hd'
              exact hd' ▸ hvtrue
          · rw [mergeDescriptor_of_ne_empty hempty, Option.some.injEq] at hd'
            rw [← hd']
            exact (hbase id r tag d hr hd).fillFrom hvtrue
              (unmixed_iff.mp hunmixed id r c tag d v hr hc hd hv hempty)

/-- Seeding changes no media. -/
theorem get?_seed (catalog : Dict String CatalogRow) (id : String) :
    (∃ r r', dataset.get? id = some r ∧ (seed dataset catalog).get? id = some r'
        ∧ r'.media = r.media ∧ r'.system = r.system)
      ∨ dataset.get? id = none ∧ ∀ r', (seed dataset catalog).get? id = some r' → r'.media = ∅ := by
  rw [seed, Dict.get?_updateEach]
  cases hr : dataset.get? id with
  | none =>
    refine Or.inr ⟨rfl, fun r' hr' => ?_⟩
    cases hrow : catalog.get? id with
    | none => simp [hrow] at hr'
    | some row =>
      simp only [hrow, Option.elim_some, seedRecord, Option.some.injEq] at hr'
      exact hr' ▸ rfl
  | some r =>
    refine Or.inl ⟨r, ?_⟩
    cases catalog.get? id with
    | none => exact ⟨r, rfl, rfl, rfl, rfl⟩
    | some row =>
      rw [Option.elim_some, seedRecord]
      cases given isBlank (r.metadata.get? "name") with
      | none => exact ⟨_, rfl, rfl, rfl, rfl⟩
      | some _ => exact ⟨_, rfl, rfl, rfl, rfl⟩

theorem TruthfulSet.seed (h : TruthfulSet seen dataset) (catalog : Dict String CatalogRow) :
    TruthfulSet seen (seed dataset catalog) := by
  intro id r' tag d hr' hd
  rcases @get?_seed dataset catalog id with ⟨r, r2, hr, hr2, hmedia, hsystem⟩ | ⟨-, hnew⟩
  · rw [hr2, Option.some.injEq] at hr'
    rw [← hr', hsystem]
    rw [← hr', hmedia] at hd
    exact h id r tag d hr hd
  · rw [hnew r' hr', Dict.get?_empty] at hd
    cases hd

/-- What is imported has no digests yet. -/
theorem TruthfulSet.imported (i : Import) : TruthfulSet seen i.dataset := by
  intro id r tag d hr hd a p hsha
  rw [Import.dataset, Dict.get?_map, Option.map_eq_some_iff] at hr
  obtain ⟨record, -, rfl⟩ := hr
  rw [ImportedRecord.record, Dict.get?_map, Option.map_eq_some_iff] at hd
  obtain ⟨o, -, rfl⟩ := hd
  exfalso
  revert hsha
  unfold Origin.descriptor
  cases o.place <;> simp [Descriptor.sha, Descriptor.empty, given]

end Truth

/-! ### One media file -/

/-- The path of an origin below the source is in normal form. -/
def Origin.normal (o : Origin) : Bool :=
  match o.place with
  | .source path => safeRelative path = some path
  | .device _ => true

/-- What a turn of `_materialize_remote_media` does to the digest. -/
theorem Origin.materialize_cases (o : Origin) (full : Bool) (relative : Option String)
    (file : MediaFile) (d : Descriptor) :
    o.materialize full relative file d = d ∨ ∃ digest,
      (o.materialize full relative file d).sha256 = some digest
        ∧ (o.materialize full relative file d).sourcePath = d.sourcePath
        ∧ (d.sha256 = some digest ∨ digest = file.sha256
            ∧ (d.sha256 = none ∨ relative.isSome = true ∧ d.sourcePath = relative)) := by
  unfold Origin.materialize
  by_cases hquick : (!full && d.namesBlob && o.blobPresent) = true
  · rw [if_pos hquick]
    exact Or.inl rfl
  · rw [if_neg hquick]
    by_cases hkept : (d.sha256 ≠ none
        ∧ d.sha256 ≠ some (if d.sourceUnchanged file then d.sha256.getD "" else file.sha256))
        ∧ (relative.isSome && d.sourcePath = relative) = false
    · exact Or.inl (if_pos hkept)
    · refine Or.inr ⟨if d.sourceUnchanged file then d.sha256.getD "" else file.sha256, ?_⟩
      simp only [if_neg hkept, true_and]
      by_cases hunchanged : d.sourceUnchanged file = true
      · -- the fingerprint says so only where a digest is stored
        rw [if_pos hunchanged]
        cases hsha : d.sha256 with
        | none => simp [Descriptor.sourceUnchanged, hsha] at hunchanged
        | some a => exact Or.inl rfl
      · rw [if_neg hunchanged] at hkept ⊢
        by_cases hnone : d.sha256 = none
        · exact Or.inr ⟨rfl, Or.inl hnone⟩
        · by_cases hsame : d.sha256 = some file.sha256
          · exact Or.inl hsame
          · refine Or.inr ⟨rfl, Or.inr ?_⟩
            have hrelative : (relative.isSome && d.sourcePath = relative) = true := by
              by_contra hfalse
              exact hkept ⟨⟨hnone, hsame⟩, by simpa using hfalse⟩
            simpa using hrelative

section Materialize

variable {seen : String → String → List String} {source : String → String → Option MediaFile}
  {o : Origin} {full : Bool} {recordSystem gamelistSystem : String} {file : MediaFile}
  {d : Descriptor}

/-- The path below the system of a record is never empty. -/
theorem Origin.not_isBlank_of_relative {path : String}
    (hrelative : o.sourceRelative recordSystem gamelistSystem = some path) :
    isBlank path = false := by
  unfold Origin.sourceRelative at hrelative
  cases hplace : o.place with
  | device _ => simp [hplace] at hrelative
  | source q =>
    simp only [hplace] at hrelative
    split at hrelative
    · simpa [isBlank] using safeRelative_ne_empty hrelative
    · cases hrelative

/-- An origin below the system of the record, at a path in normal form, is the source file there. -/
theorem Origin.source_eq_of_relative (hnormal : o.normal = true)
    (hfile : o.file source gamelistSystem = some file) {path : String}
    (hrelative : o.sourceRelative recordSystem gamelistSystem = some path) :
    source recordSystem path = some file := by
  unfold Origin.sourceRelative at hrelative
  unfold Origin.normal at hnormal
  unfold Origin.file at hfile
  cases hplace : o.place with
  | device _ => simp [hplace] at hrelative
  | source q =>
    simp only [hplace, decide_eq_true_eq] at hnormal hrelative hfile
    split at hrelative
    · next hsystem =>
      rw [hnormal, Option.some.injEq] at hrelative
      rw [hsystem, ← hrelative]
      exact hfile
    · cases hrelative

/-- A digest that is replaced was that of the source file, which has another content now. -/
theorem Origin.replaced (hnormal : o.normal = true)
    (hfile : o.file source gamelistSystem = some file) (hd : Truthful seen recordSystem d)
    {a b : String} (ha : d.sha = some a)
    (hb : (o.materialize full (o.sourceRelative recordSystem gamelistSystem) file d).sha = some b)
    (hne : a ≠ b) :
    ∃ path, (o.materialize full (o.sourceRelative recordSystem gamelistSystem) file d).source
        = some path ∧ source recordSystem path = some file ∧ file.sha256 = b
      ∧ a ∈ seen recordSystem path := by
  have hastored := (given_eq_some_iff.mp ha).1
  rcases o.materialize_cases full (o.sourceRelative recordSystem gamelistSystem) file d with
    hsame | ⟨digest, hdigest, hsource, hwhy⟩
  · rw [hsame, ha, Option.some.injEq] at hb
    exact absurd hb hne
  · have hbstored := (given_eq_some_iff.mp hb).1
    rw [hdigest, Option.some.injEq] at hbstored
    rcases hwhy with hstored | ⟨hnew, hnone | ⟨hsome, hpath⟩⟩
    · rw [hastored, Option.some.injEq] at hstored
      exact absurd (hstored.trans hbstored) hne
    · rw [hastored] at hnone
      cases hnone
    · obtain ⟨path, hrelative⟩ := Option.isSome_iff_exists.mp hsome
      have hnonblank := Origin.not_isBlank_of_relative hrelative
      have hdsource : d.source = some path :=
        given_eq_some_iff.mpr ⟨hpath.trans hrelative, hnonblank⟩
      refine ⟨path, ?_, Origin.source_eq_of_relative hnormal hfile hrelative, hnew ▸ hbstored,
        hd a path ha hdsource⟩
      exact given_eq_some_iff.mpr ⟨hsource.trans (hpath.trans hrelative), hnonblank⟩

/-- What is stored for a file is true of it, where the first digest is that of the source file. -/
theorem Truthful.materialize (hnormal : o.normal = true)
    (hfile : o.file source gamelistSystem = some file)
    (hcurrent : ∀ path file, source recordSystem path = some file →
      file.sha256 ∈ seen recordSystem path)
    (hfirst : d.sha256 = none → ∀ path, d.source = some path →
      o.sourceRelative recordSystem gamelistSystem = some path)
    (hd : Truthful seen recordSystem d) :
    Truthful seen recordSystem
      (o.materialize full (o.sourceRelative recordSystem gamelistSystem) file d) := by
  intro a p hsha hsource
  rcases o.materialize_cases full (o.sourceRelative recordSystem gamelistSystem) file d with
    hsame | ⟨digest, hdigest, hsourcePath, hwhy⟩
  · rw [hsame] at hsha hsource
    exact hd a p hsha hsource
  · have hdsource : d.source = some p := by
      rw [← hsource, Descriptor.source, Descriptor.source, hsourcePath]
    obtain ⟨hstored, hblank⟩ := given_eq_some_iff.mp hsha
    rw [hdigest, Option.some.injEq] at hstored
    rcases hwhy with hold | ⟨hnew, hnone | ⟨hsome, hpath⟩⟩
    · exact hd a p (given_eq_some_iff.mpr ⟨hold.trans (congrArg some hstored), hblank⟩) hdsource
    · rw [← hstored, hnew]
      exact hcurrent p file (Origin.source_eq_of_relative hnormal hfile (hfirst hnone p hdsource))
    · have hrelative : o.sourceRelative recordSystem gamelistSystem = some p :=
        hpath.symm.trans (given_eq_some_iff.mp hdsource).1
      rw [← hstored, hnew]
      exact hcurrent p file (Origin.source_eq_of_relative hnormal hfile hrelative)

end Materialize

/-! ### Runs -/

/-- The media that a run finds: their paths are in normal form, and a descriptor that has a source
path and no digest yet gets that of the file at this path. -/
def Named (dataset : Dataset) (i : Import) : Prop :=
  ∀ p ∈ i.entries, ∀ q ∈ p.2.media.entries, q.2.normal = true
    ∧ ∀ r ∈ (dataset.get? p.1).toList, ∀ d ∈ (r.media.get? q.1).toList, d.sha256 = none →
      ∀ path ∈ d.source.toList, q.2.sourceRelative r.system p.2.system = some path

instance (dataset : Dataset) (i : Import) : Decidable (Named dataset i) := by
  unfold Named
  infer_instance

/-- The runs in which every descriptor gets its fields from one content. -/
structure World.FindsMatching (w : World) (device : ℕ) (writeRemote : Bool) (found : Findings) :
    Prop where
  unmixedLocal : Unmixed w.remote (w.locals device)
  systemsLocal : SameSystems w.remote (w.locals device)
  unmixedImport : Unmixed (w.merged device) found.imported.dataset
  systemsImport : SameSystems (w.merged device) found.imported.dataset
  named : writeRemote = true → Named (w.collected device found) found.imported

instance (w : World) (device : ℕ) (writeRemote : Bool) (found : Findings) :
    Decidable (w.FindsMatching device writeRemote found) :=
  decidable_of_iff (Unmixed w.remote (w.locals device) ∧ SameSystems w.remote (w.locals device)
      ∧ Unmixed (w.merged device) found.imported.dataset
      ∧ SameSystems (w.merged device) found.imported.dataset
      ∧ (writeRemote = true → Named (w.collected device found) found.imported))
    ⟨fun h => ⟨h.1, h.2.1, h.2.2.1, h.2.2.2.1, h.2.2.2.2⟩,
      fun h => ⟨h.unmixedLocal, h.systemsLocal, h.unmixedImport, h.systemsImport, h.named⟩⟩

def Matching (w : World) : Act → Prop
  | .run device writeRemote _ found => w.FindsMatching device writeRemote found
  | .rewrite .. => True

instance (w : World) (a : Act) : Decidable (Matching w a) := by
  apply Act.casesOn (motive := fun a => Decidable (Matching w a)) a
  · intro device writeRemote _ found
    exact inferInstanceAs (Decidable (w.FindsMatching device writeRemote found))
  · intros
    exact .isTrue trivial

/-- A digest of the shared dataset that a step replaces was that of the recorded source file, and
the new one is what this file has now. -/
def SourceRewritten (w w' : World) : Prop :=
  ∀ id r r' tag d d' a b, w.remote.get? id = some r → w'.remote.get? id = some r' →
    r.media.get? tag = some d → r'.media.get? tag = some d' → d.sha = some a → d'.sha = some b →
    a ≠ b → ∃ path file, d'.source = some path ∧ w.source r'.system path = some file
      ∧ file.sha256 = b ∧ a ∈ w.seen r'.system path

/-- Every descriptor is true, and every source file has been seen. -/
structure Faithful (w : World) : Prop where
  remote : TruthfulSet w.seen w.remote
  locals : ∀ device, TruthfulSet w.seen (w.locals device)
  current : ∀ system path file, w.source system path = some file →
    file.sha256 ∈ w.seen system path

section Runs

variable {w : World} {device : ℕ} {writeRemote full : Bool} {found : Findings}

/-- What a run has collected is true. -/
theorem Faithful.collected (h : Faithful w) (hmatch : w.FindsMatching device writeRemote found) :
    TruthfulSet w.seen (w.collected device found) :=
  (((h.remote.merge (h.locals device) hmatch.unmixedLocal hmatch.systemsLocal).merge
    (.imported found.imported) hmatch.unmixedImport hmatch.systemsImport).seed found.catalog)

/-- What materializing does to a record. -/
theorem get?_materializeRemoteMedia {source : String → String → Option MediaFile}
    {dataset : Dataset} {i : Import} {id : String} {r' : LibraryRecord}
    (h : (materializeRemoteMedia full source dataset i).get? id = some r') :
    ∃ r, dataset.get? id = some r ∧ r'.system = r.system ∧ ∀ tag d', r'.media.get? tag = some d' →
      r.media.get? tag = some d' ∨ ∃ p ∈ i.entries, ∃ q ∈ p.2.media.entries, ∃ file,
        (p.1 = id ∧ q.1 = tag) ∧ q.2.file source p.2.system = some file
        ∧ d' = q.2.materialize full (q.2.sourceRelative r.system p.2.system) file
            ((r.media.get? tag).getD .empty) := by
  rw [materializeRemoteMedia, Dict.get?_updateEach] at h
  cases hi : i.get? id with
  | none =>
    rw [hi, Option.elim_none] at h
    exact ⟨r', h, rfl, fun tag d' hd' => Or.inl hd'⟩
  | some record =>
    rw [hi, Option.elim_some, Option.map_eq_some_iff] at h
    obtain ⟨r, hr, rfl⟩ := h
    refine ⟨r, hr, rfl, fun tag d' hd' => ?_⟩
    rw [LibraryRecord.materialize, Dict.get?_updateEach] at hd'
    cases ho : record.media.get? tag with
    | none =>
      rw [ho, Option.elim_none] at hd'
      exact Or.inl hd'
    | some o =>
      rw [ho, Option.elim_some] at hd'
      cases hfile : o.file source record.system with
      | none =>
        simp only [hfile] at hd'
        exact Or.inl hd'
      | some file =>
        simp only [hfile, Option.some.injEq] at hd'
        exact Or.inr ⟨_, (i.get?_eq_some_iff id record).mp hi, _,
          (record.media.get?_eq_some_iff tag o).mp ho, file, ⟨rfl, rfl⟩, hfile, hd'.symm⟩

/-- What a run that writes stores is true. -/
theorem Faithful.materialized (h : Faithful w) (hmatch : w.FindsMatching device true found) :
    TruthfulSet w.seen
      (materializeRemoteMedia full w.source (w.collected device found) found.imported) := by
  intro id r' tag d' hr' hd'
  obtain ⟨r, hr, hsystem, hmedia⟩ := get?_materializeRemoteMedia hr'
  rw [hsystem]
  rcases hmedia tag d' hd' with hsame | ⟨p, hp, q, hq, file, ⟨rfl, rfl⟩, hfile, rfl⟩
  · exact h.collected hmatch id r tag d' hr hsame
  · obtain ⟨hnormal, hfirst⟩ := hmatch.named rfl p hp q hq
    refine Truthful.materialize hnormal hfile (h.current r.system) ?_ ?_
    · intro hnone path hsource
      cases hd : r.media.get? q.1 with
      | none => simp [hd, Descriptor.empty, Descriptor.source, given] at hsource
      | some d =>
        rw [hd, Option.getD_some] at hnone hsource
        exact hfirst r (Option.mem_toList.mpr hr) d (Option.mem_toList.mpr hd) hnone path
          (Option.mem_toList.mpr hsource)
    · cases hd : r.media.get? q.1 with
      | none =>
        intro a path hsha
        simp [Descriptor.empty, Descriptor.sha, given] at hsha
      | some d => exact h.collected hmatch p.1 r q.1 d hr hd

/-- A merge keeps the digests of the base. -/
theorem sha_merge {base incoming : Dataset} {id tag a : String} {r r' : LibraryRecord}
    {d : Descriptor} (hr : base.get? id = some r) (hd : r.media.get? tag = some d)
    (ha : d.sha = some a) (hr' : (merge base incoming).get? id = some r') :
    ∃ d', r'.media.get? tag = some d' ∧ d'.sha = some a := by
  cases hc : incoming.get? id with
  | none =>
    rw [get?_merge_of_none hc, hr, Option.some.injEq] at hr'
    exact ⟨d, hr' ▸ hd, ha⟩
  | some c =>
    rw [get?_merge hr hc, Option.some.injEq] at hr'
    rw [← hr', get?_media_merge]
    cases c.media.get? tag with
    | none => exact ⟨d, hd, ha⟩
    | some v =>
      have hne : d ≠ .empty := by
        rintro rfl
        simp [Descriptor.empty, Descriptor.sha, given] at ha
      refine ⟨d.fillFrom v, ?_, ?_⟩
      · rw [Option.elim_some, hd, mergeDescriptor_of_ne_empty hne]
      · rw [Descriptor.sha_fillFrom, ha, Option.some_or]

/-- What a run collects has the digests of the shared dataset. -/
theorem sha_collected {id tag a : String} {r r' : LibraryRecord} {d : Descriptor}
    (hr : w.remote.get? id = some r) (hd : r.media.get? tag = some d) (ha : d.sha = some a)
    (hr' : (w.collected device found).get? id = some r') :
    ∃ d', r'.media.get? tag = some d' ∧ d'.sha = some a := by
  have hkeys : ∀ {base incoming : Dataset} {r : LibraryRecord}, base.get? id = some r →
      ∃ r', (merge base incoming).get? id = some r' := by
    intro base incoming r hr
    cases hc : incoming.get? id with
    | none => exact ⟨r, by rw [get?_merge_of_none hc, hr]⟩
    | some c => exact ⟨r.merge c, get?_merge hr hc⟩
  obtain ⟨r1, hr1⟩ := @hkeys w.remote (w.locals device) r hr
  obtain ⟨d1, hd1, ha1⟩ := sha_merge hr hd ha hr1
  obtain ⟨r2, hr2⟩ := @hkeys (w.merged device) found.imported.dataset r1 hr1
  obtain ⟨d2, hd2, ha2⟩ := sha_merge hr1 hd1 ha1 hr2
  rcases @get?_seed _ found.catalog id with ⟨r3, r4, hr3, hr4, hmedia, -⟩ | ⟨hnone, -⟩
  · rw [hr2, Option.some.injEq] at hr3
    rw [World.collected, hr4, Option.some.injEq] at hr'
    rw [← hr', hmedia, ← hr3]
    exact ⟨d2, hd2, ha2⟩
  · rw [hr2] at hnone
    cases hnone

theorem TruthfulSet.mono {seen seen' : String → String → List String} {dataset : Dataset}
    (h : TruthfulSet seen dataset) (hmono : ∀ system path, seen system path ⊆ seen' system path) :
    TruthfulSet seen' dataset :=
  fun id r tag d hr hd a p ha hp => hmono _ _ (h id r tag d hr hd a p ha hp)

/-- One step keeps every descriptor true. -/
theorem Faithful.step {a : Act} {w' : World} (h : Faithful w) (hmatch : Matching w a)
    (hstep : sharedLibrary.step w a = some w') : Faithful w' := by
  cases a with
  | run device writeRemote full found =>
    simp only [sharedLibrary, Option.ite_none_right_eq_some, Option.some.injEq] at hstep
    obtain ⟨-, rfl⟩ := hstep
    have hdataset : TruthfulSet w.seen (if writeRemote then
        materializeRemoteMedia full w.source (w.collected device found) found.imported
        else w.collected device found) := by
      cases writeRemote with
      | true => exact h.materialized hmatch
      | false => exact h.collected hmatch
    refine ⟨?_, ?_, h.current⟩
    · show TruthfulSet w.seen (if writeRemote then _ else w.remote)
      cases writeRemote with
      | true => exact hdataset
      | false => exact h.remote
    · intro other
      show TruthfulSet w.seen (Function.update w.locals device _ other)
      by_cases hother : other = device
      · rw [hother, Function.update_self]
        exact hdataset
      · rw [Function.update_of_ne hother]
        exact h.locals other
  | rewrite system path file =>
    cases hstep
    have hmono : ∀ s p, w.seen s p ⊆ (w.rewrite system path file).seen s p := by
      intro s p digest hdigest
      simp only [World.rewrite]
      split
      · exact List.mem_append_right _ hdigest
      · exact hdigest
    refine ⟨h.remote.mono hmono, fun device => (h.locals device).mono hmono, ?_⟩
    intro s p f hf
    simp only [World.rewrite] at hf ⊢
    split at hf
    · next hsame =>
      rw [if_pos hsame, hf]
      exact List.mem_append_left _ (by simp)
    · next hother =>
      rw [if_neg hother]
      exact h.current s p f hf

/-- One step replaces a digest only for a rewritten source file. -/
theorem Faithful.sourceRewritten {a : Act} {w' : World} (h : Faithful w) (hmatch : Matching w a)
    (hstep : sharedLibrary.step w a = some w') : SourceRewritten w w' := by
  intro id r r' tag d d' x y hr hr' hd hd' hx hy hne
  -- the shared dataset is written by the runs that may
  have hsame : w'.remote = w.remote → False := by
    intro heq
    rw [heq, hr, Option.some.injEq] at hr'
    rw [← hr', hd, Option.some.injEq] at hd'
    rw [← hd', hx, Option.some.injEq] at hy
    exact hne hy
  cases a with
  | rewrite system path file =>
    cases hstep
    exact (hsame rfl).elim
  | run device writeRemote full found =>
    simp only [sharedLibrary, Option.ite_none_right_eq_some, Option.some.injEq] at hstep
    obtain ⟨-, rfl⟩ := hstep
    cases writeRemote with
    | false => exact (hsame rfl).elim
    | true =>
      replace hr' : (materializeRemoteMedia full w.source (w.collected device found)
        found.imported).get? id = some r' := hr'
      obtain ⟨r1, hr1, hsystem, hmedia⟩ := get?_materializeRemoteMedia hr'
      obtain ⟨d1, hd1, hx1⟩ := sha_collected hr hd hx hr1
      rcases hmedia tag d' hd' with hkept | ⟨p, hp, q, hq, file, ⟨rfl, rfl⟩, hfile, rfl⟩
      · rw [hd1, Option.some.injEq] at hkept
        rw [← hkept, hx1, Option.some.injEq] at hy
        exact absurd hy hne
      · rw [hd1, Option.getD_some] at hy ⊢
        obtain ⟨path, hpath, hsource, hfileb, hseen⟩ := Origin.replaced
          (hmatch.named rfl p hp q hq).1 hfile (h.collected hmatch p.1 r1 q.1 d1 hr1 hd1) hx1 hy hne
        rw [hsystem]
        exact ⟨path, file, hpath, hsource, hfileb, hseen⟩

/-- Every run whose steps match keeps every descriptor true. -/
theorem faithful_of_reach (h : sharedLibrary.Reach Matching w) : Faithful w := by
  refine h.invariant ?_ fun s a t _ hs hallowed hstep => hs.step hallowed hstep
  rintro w ⟨hremote, hlocals, hcurrent⟩
  refine ⟨hremote ▸ .empty, fun device => ?_, hcurrent⟩
  rw [hlocals device]
  exact .empty

end Runs

section Examples

/-- A picture of some content. -/
def picture (digit : Char) (mtimeNs : ℤ) : MediaFile :=
  let digest := String.ofList (List.replicate 64 digit)
  ⟨digest, 4, mtimeNs, mtimeNs, digest⟩

/-- No device has run, and one picture is below the source. -/
def sourcePicture : World where
  remote := ∅
  locals _ := ∅
  source system path :=
    if system = "gba" ∧ path = "images/k.png" then some (picture 'b' 1) else none
  seen system path :=
    if system = "gba" ∧ path = "images/k.png" then [(picture 'b' 1).sha256] else []

theorem reach_sourcePicture {allowed : World → Act → Prop} :
    sharedLibrary.Reach allowed sourcePicture := by
  refine .init ⟨rfl, fun _ => rfl, fun system path file hfile => ?_⟩
  simp only [sourcePicture] at hfile ⊢
  split at hfile
  · next hsame =>
    cases hfile
    rw [if_pos hsame]
    exact List.mem_singleton_self _
  · cases hfile

/-- The gamelists name one picture of one game. -/
def oneImage (place : Place) : Findings where
  imported := (∅ : Import).insert "kirby" ⟨"gba", "kirby.gba", ∅,
    (∅ : Dict String Origin).insert "image" ⟨place, ".png", false, none⟩⟩
  catalog := ∅

/-- What the shared dataset has of the picture. -/
def World.stored (w : World) : Option (String × Option (Option String × Option String)) :=
  (w.remote.get? "kirby").map fun r =>
    (r.system, (r.media.get? "image").map fun d => (d.sha, d.source))

/-- The picture of the source is shared, rewritten, and shared again. -/
def sharedTwice : List Act :=
  [.run 0 true true (oneImage (.source "images/k.png")),
    .rewrite "gba" "images/k.png" (some (picture 'c' 2))]

end Examples

end RomCloud.Library
