import RomCloud.Lib.Bytes
import RomCloud.SaveSync.RemoteCommit

namespace RomCloud.SaveSync.Commit

open RomCloud.Lib RomCloud.SaveSync.Index

/-!
# Digests of manifests and what they are compared for

`compute_manifest_hash` with the bytes it feeds to SHA-256, and what `classify_payload` decides by
comparing such digests.

* `manifestDigest`, `manifestText_inj` — the text that is hashed, and that it determines the
  artifacts as a set;
* `mem_actualManifest` — the merged list without repeats is what was observed of the group;
* `classifyBy_spec` — the three answers of the classification.

A path is the name of a file, so that it holds no NUL character, and a content hash has 64
characters; both keep the text of an artifact from running into the next.
-/

/-! ### The text that is hashed -/

/-- What `compute_manifest_hash` feeds to the digest for one artifact. -/
def artifactText (artifact : IndexArtifact) : String :=
  artifact.path ++ "\x00" ++ artifact.sizeBytes.repr ++ "\x00" ++ artifact.sha256 ++ "\n"

/-- What it feeds to the digest for a manifest. -/
def manifestText (artifacts : List IndexArtifact) : String :=
  String.join ((computeManifestHash artifacts).map artifactText)

/-- `compute_manifest_hash`, with `hashlib.sha256` as a parameter. -/
def manifestDigest (sha256 : Bytes → String) (artifacts : List IndexArtifact) : String :=
  sha256 (manifestText artifacts).toUTF8.data.toList

/-- An artifact that names a file and carries a digest. -/
structure OfFile (artifact : IndexArtifact) : Prop where
  path : '\x00' ∉ artifact.path.toList
  sha256 : artifact.sha256.length = 64

theorem toList_artifactText (artifact : IndexArtifact) :
    (artifactText artifact).toList = artifact.path.toList ++
      '\x00' :: (Nat.toDigits 10 artifact.sizeBytes ++
        '\x00' :: (artifact.sha256.toList ++ ['\n'])) := by
  simp [artifactText, String.toList_append, Nat.toList_repr]

theorem nul_not_mem_toDigits (n : ℕ) : '\x00' ∉ Nat.toDigits 10 n := by
  intro h
  have hdigit := Nat.isDigit_of_mem_toDigits (by decide) (by decide) h
  exact absurd hdigit (by decide)

/-- What stands before the first NUL. -/
theorem nul_split {front other rest more : List Char} (hfront : '\x00' ∉ front)
    (hother : '\x00' ∉ other) (h : front ++ '\x00' :: rest = other ++ '\x00' :: more) :
    front = other ∧ rest = more := by
  induction front generalizing other with
  | nil =>
    cases other with
    | nil => exact ⟨rfl, (List.cons.inj h).2⟩
    | cons c other =>
      obtain ⟨rfl, -⟩ := List.cons.inj h
      exact absurd List.mem_cons_self hother
  | cons c front ih =>
    cases other with
    | nil =>
      obtain ⟨rfl, -⟩ := List.cons.inj h
      exact absurd List.mem_cons_self hfront
    | cons d other =>
      obtain ⟨rfl, hrest⟩ := List.cons.inj h
      obtain ⟨rfl, rfl⟩ := ih (fun hmem => hfront (List.mem_cons_of_mem _ hmem))
        (fun hmem => hother (List.mem_cons_of_mem _ hmem)) hrest
      exact ⟨rfl, rfl⟩

/-- The text of an artifact ends where the artifact does: path and size end at a NUL, the digest
    after 64 characters. -/
theorem artifactText_append_inj {a b : IndexArtifact} (ha : OfFile a) (hb : OfFile b)
    {rest more : List Char}
    (h : (artifactText a).toList ++ rest = (artifactText b).toList ++ more) :
    a = b ∧ rest = more := by
  rw [toList_artifactText, toList_artifactText, List.append_assoc, List.append_assoc,
    List.cons_append, List.cons_append] at h
  obtain ⟨hpath, h⟩ := nul_split ha.path hb.path h
  rw [List.append_assoc, List.append_assoc, List.cons_append, List.cons_append] at h
  obtain ⟨hsize, h⟩ := nul_split (nul_not_mem_toDigits _) (nul_not_mem_toDigits _) h
  rw [List.append_assoc, List.append_assoc] at h
  have hlength : a.sha256.toList.length = b.sha256.toList.length := by
    rw [String.length_toList, String.length_toList, ha.sha256, hb.sha256]
  obtain ⟨hsha256, hrest⟩ := List.append_inj h hlength
  have hsizes : a.sizeBytes = b.sizeBytes := by
    rw [← @Nat.ofDigitChars_ten_toDigits a.sizeBytes, hsize, Nat.ofDigitChars_ten_toDigits]
  obtain ⟨path, size, sha256⟩ := a
  obtain ⟨path', size', sha256'⟩ := b
  obtain rfl : path = path' := String.toList_injective hpath
  obtain rfl : size = size' := hsizes
  obtain rfl : sha256 = sha256' := String.toList_injective hsha256
  exact ⟨rfl, (List.cons.inj hrest).2⟩

/-- The text of a list of artifacts determines the list. -/
theorem flatMap_artifactText_inj {as bs : List IndexArtifact} (has : ∀ a ∈ as, OfFile a)
    (hbs : ∀ b ∈ bs, OfFile b)
    (h : as.flatMap (fun a => (artifactText a).toList)
      = bs.flatMap (fun b => (artifactText b).toList)) : as = bs := by
  have hne : ∀ a : IndexArtifact, (artifactText a).toList ≠ [] := by
    intro a
    rw [toList_artifactText]
    simp
  induction as generalizing bs with
  | nil =>
    cases bs with
    | nil => rfl
    | cons b bs => exact absurd (List.append_eq_nil_iff.mp h.symm).1 (hne b)
  | cons a as ih =>
    cases bs with
    | nil => exact absurd (List.append_eq_nil_iff.mp h).1 (hne a)
    | cons b bs =>
      obtain ⟨rfl, hrest⟩ := artifactText_append_inj (has a List.mem_cons_self)
        (hbs b List.mem_cons_self) h
      rw [ih (fun a ha => has a (List.mem_cons_of_mem _ ha))
        (fun b hb => hbs b (List.mem_cons_of_mem _ hb)) hrest]

theorem mem_computeManifestHash {artifacts : List IndexArtifact} {a : IndexArtifact} :
    a ∈ computeManifestHash artifacts ↔ a ∈ artifacts := by
  rw [computeManifestHash, List.mem_insertionSort]

theorem manifestText_inj {as bs : List IndexArtifact} (has : ∀ a ∈ as, OfFile a)
    (hbs : ∀ b ∈ bs, OfFile b) (h : manifestText as = manifestText bs) :
    computeManifestHash as = computeManifestHash bs := by
  have htext := congrArg String.toList h
  rw [manifestText, manifestText, String.toList_join, String.toList_join, List.flatMap_map,
    List.flatMap_map] at htext
  exact flatMap_artifactText_inj (fun a ha => has a (mem_computeManifestHash.mp ha))
    (fun b hb => hbs b (mem_computeManifestHash.mp hb)) htext

/-- Manifests that name no path twice and have the same artifacts are sorted alike. -/
theorem computeManifestHash_eq_iff {as bs : List IndexArtifact}
    (has : (as.map IndexArtifact.path).Nodup) (hbs : (bs.map IndexArtifact.path).Nodup) :
    computeManifestHash as = computeManifestHash bs ↔ ∀ a, a ∈ as ↔ a ∈ bs := by
  constructor
  · intro h a
    rw [← @mem_computeManifestHash as, h, mem_computeManifestHash]
  · intro h
    have hperm : as.Perm bs := (List.perm_ext_iff_of_nodup has.of_map hbs.of_map).mpr h
    have hsorted : (computeManifestHash as).Perm (computeManifestHash bs) :=
      ((List.perm_insertionSort _ _).trans hperm).trans (List.perm_insertionSort _ _).symm
    refine hsorted.eq_of_pairwise ?_ (List.pairwise_insertionSort _ _)
      (List.pairwise_insertionSort _ _)
    intro a b ha hb hab hba
    have hmem : a ∈ as := mem_computeManifestHash.mp ha
    have hmem' : b ∈ as := (h b).mpr (mem_computeManifestHash.mp hb)
    exact List.inj_on_of_nodup_map has hmem hmem' (le_antisymm hab hba)

/-- Without collisions a digest is as good as the manifest. -/
theorem manifestDigest_eq_iff {sha256 : Bytes → String} (hsha256 : Function.Injective sha256)
    {as bs : List IndexArtifact} (has : ∀ a ∈ as, OfFile a) (hbs : ∀ b ∈ bs, OfFile b) :
    manifestDigest sha256 as = manifestDigest sha256 bs
      ↔ computeManifestHash as = computeManifestHash bs := by
  constructor
  · intro h
    have hbytes := hsha256 h
    have htext : manifestText as = manifestText bs := by
      apply String.toByteArray_inj.mp
      exact ByteArray.ext (Array.toList_inj.mp hbytes)
    exact manifestText_inj has hbs htext
  · intro h
    rw [manifestDigest, manifestText, h]
    rfl

/-! ### What was observed of a group -/

/-- The paths of an intent. -/
def CommitIntent.paths (intent : CommitIntent) : List Path :=
  intent.groups.flatMap IntentGroup.paths

/-- A scan of the files at the paths of an intent. -/
structure Observation (intent : CommitIntent) (observed : Dict Path IndexArtifact) : Prop where
  keyed : ∀ p a, observed.get? p = some a → a.path = p
  within : ∀ p a, observed.get? p = some a → p ∈ intent.paths
  hashed : ∀ p a, observed.get? p = some a → a.sha256.length = 64

/-- The artifacts observed at the paths of a group are those of `manifest`. -/
def Finds (observed : Dict Path IndexArtifact) (group : IntentGroup)
    (manifest : List IndexArtifact) : Prop :=
  ∀ artifact, artifact ∈ manifest ↔
    artifact.path ∈ group.paths ∧ observed.get? artifact.path = some artifact

theorem mem_uniqueAfter {previous : Option Path} {artifacts : List IndexArtifact}
    {a : IndexArtifact} (h : a ∈ uniqueAfter previous artifacts) : a ∈ artifacts := by
  induction artifacts generalizing previous with
  | nil => exact h
  | cons b rest ih =>
    rw [uniqueAfter] at h
    split at h
    · exact List.mem_cons_of_mem _ (ih h)
    · rcases List.mem_cons.mp h with rfl | hrest
      · exact List.mem_cons_self
      · exact List.mem_cons_of_mem _ (ih hrest)

/-- Every path is kept once. -/
theorem exists_mem_uniqueAfter {previous : Option Path} {artifacts : List IndexArtifact}
    {a : IndexArtifact} (h : a ∈ artifacts) (hprevious : previous ≠ some a.path) :
    ∃ b ∈ uniqueAfter previous artifacts, b.path = a.path := by
  induction artifacts generalizing previous with
  | nil => exact absurd h List.not_mem_nil
  | cons b rest ih =>
    rw [uniqueAfter]
    rcases List.mem_cons.mp h with rfl | hrest
    · rw [if_neg hprevious]
      exact ⟨a, List.mem_cons_self, rfl⟩
    · split
      · exact ih hrest hprevious
      · by_cases hpath : b.path = a.path
        · exact ⟨b, List.mem_cons_self, hpath⟩
        · obtain ⟨c, hc, hcpath⟩ := ih hrest fun heq => hpath (Option.some.inj heq)
          exact ⟨c, List.mem_cons_of_mem _ hc, hcpath⟩

/-- In a sorted list the repeats stand together, so that none is left. -/
theorem uniqueAfter_pairwise {previous : Option Path} {artifacts : List IndexArtifact}
    (hsorted : artifacts.Pairwise (fun a b => a.path ≤ b.path))
    (hprevious : ∀ p, previous = some p → ∀ a ∈ artifacts, p ≤ a.path) :
    (uniqueAfter previous artifacts).Pairwise (fun a b => a.path < b.path) ∧
      ∀ p, previous = some p → ∀ a ∈ uniqueAfter previous artifacts, p < a.path := by
  induction artifacts generalizing previous with
  | nil => exact ⟨.nil, fun _ _ _ h => absurd h List.not_mem_nil⟩
  | cons b rest ih =>
    obtain ⟨hb, hrest⟩ := List.pairwise_cons.mp hsorted
    have hbelow : ∀ p, previous = some p → ∀ a ∈ rest, p ≤ a.path := fun p hp a ha =>
      hprevious p hp a (List.mem_cons_of_mem _ ha)
    rw [uniqueAfter]
    split
    · exact ih hrest hbelow
    · next hne =>
      have hfrom : ∀ p, some b.path = some p → ∀ a ∈ rest, p ≤ a.path := by
        rintro p hp a ha
        rw [← Option.some.inj hp]
        exact hb a ha
      obtain ⟨hpairwise, hlater⟩ := ih hrest hfrom
      refine ⟨List.pairwise_cons.mpr ⟨hlater b.path rfl, hpairwise⟩, ?_⟩
      intro p hp a ha
      have hpb : p < b.path := by
        apply lt_of_le_of_ne (hprevious p hp b List.mem_cons_self)
        rintro rfl
        exact hne hp
      rcases List.mem_cons.mp ha with rfl | ha
      · exact hpb
      · exact hpb.trans (hlater b.path rfl a ha)

section Observed

variable {intent : CommitIntent} {observed : Dict Path IndexArtifact} {group : IntentGroup}

theorem mem_mergedArtifacts (hkeyed : ∀ p a, observed.get? p = some a → a.path = p)
    {a : IndexArtifact} : a ∈ mergedArtifacts observed group
      ↔ a.path ∈ group.paths ∧ observed.get? a.path = some a := by
  rw [mergedArtifacts, List.mem_insertionSort, List.mem_filterMap, IntentGroup.paths, List.mem_map]
  constructor
  · rintro ⟨b, hb, hget⟩
    have hpath : a.path = b.path := hkeyed _ _ hget
    exact ⟨⟨b, hb, hpath.symm⟩, hpath ▸ hget⟩
  · rintro ⟨⟨b, hb, hpath⟩, hget⟩
    exact ⟨b, hb, hpath ▸ hget⟩

/-- The merged list without repeats is what was observed of the group. -/
theorem mem_actualManifest (hkeyed : ∀ p a, observed.get? p = some a → a.path = p)
    {a : IndexArtifact} : a ∈ actualManifest observed group
      ↔ a.path ∈ group.paths ∧ observed.get? a.path = some a := by
  constructor
  · intro h
    exact (mem_mergedArtifacts hkeyed).mp (mem_uniqueAfter h)
  · intro h
    obtain ⟨b, hb, hpath⟩ := exists_mem_uniqueAfter ((mem_mergedArtifacts hkeyed).mpr h)
      (Option.some_ne_none a.path).symm
    obtain ⟨-, hget⟩ := (mem_mergedArtifacts hkeyed).mp (mem_uniqueAfter hb)
    rw [hpath, h.2] at hget
    rwa [Option.some.inj hget]

theorem actualManifest_nodup : ((actualManifest observed group).map IndexArtifact.path).Nodup := by
  have hpairwise : (actualManifest observed group).Pairwise (fun a b => a.path < b.path) :=
    (uniqueAfter_pairwise (List.pairwise_insertionSort _ _) fun _ h => absurd h (by simp)).1
  exact List.pairwise_map.mpr (hpairwise.imp ne_of_lt)

theorem accepted_group (h : intent.accepted = true) (hgroup : group ∈ intent.groups) :
    artifactsAccepted group.before = true ∧ artifactsAccepted group.desired = true := by
  rw [CommitIntent.accepted, Bool.and_eq_true] at h
  have hall := List.all_eq_true.mp h.2 group hgroup
  rw [Bool.and_eq_true, Bool.and_eq_true] at hall
  exact ⟨hall.1.2, hall.2⟩

theorem nodup_of_accepted {artifacts : List IndexArtifact}
    (h : artifactsAccepted artifacts = true) : (artifacts.map IndexArtifact.path).Nodup := by
  rw [artifactsAccepted, Bool.and_eq_true] at h
  exact of_decide_eq_true h.2

theorem length_of_accepted {artifacts : List IndexArtifact}
    (h : artifactsAccepted artifacts = true) {a : IndexArtifact} (ha : a ∈ artifacts) :
    a.sha256.length = 64 := by
  rw [artifactsAccepted, Bool.and_eq_true] at h
  have hall := List.all_eq_true.mp h.1 a ha
  rw [Bool.and_eq_true] at hall
  exact of_decide_eq_true hall.2

/-- The paths of an intent are names of files. -/
def FileNames (intent : CommitIntent) : Prop := ∀ path ∈ intent.paths, '\x00' ∉ path.toList

theorem mem_paths_of_group {path : Path} (hgroup : group ∈ intent.groups)
    (hpath : path ∈ group.paths) : path ∈ intent.paths :=
  List.mem_flatMap.mpr ⟨group, hgroup, hpath⟩

/-- One of the two manifests of a group. -/
structure ManifestOf (group : IntentGroup) (manifest : List IndexArtifact) : Prop where
  accepted : artifactsAccepted manifest = true
  subset : ∀ a ∈ manifest, a.path ∈ group.paths

theorem manifestOf_before (h : intent.accepted = true) (hgroup : group ∈ intent.groups) :
    ManifestOf group group.before where
  accepted := (accepted_group h hgroup).1
  subset := fun a ha => List.mem_map.mpr ⟨a, List.mem_append_left _ ha, rfl⟩

theorem manifestOf_desired (h : intent.accepted = true) (hgroup : group ∈ intent.groups) :
    ManifestOf group group.desired where
  accepted := (accepted_group h hgroup).2
  subset := fun a ha => List.mem_map.mpr ⟨a, List.mem_append_right _ ha, rfl⟩

/-- The digest comparison of one group decides whether the observed artifacts are those of the
    manifest. -/
theorem manifestDigest_actualManifest_iff {sha256 : Bytes → String}
    (hsha256 : Function.Injective sha256) (hnames : FileNames intent)
    (hobserved : Observation intent observed) (hgroup : group ∈ intent.groups)
    {manifest : List IndexArtifact} (hmanifest : ManifestOf group manifest) :
    manifestDigest sha256 (actualManifest observed group) = manifestDigest sha256 manifest
      ↔ Finds observed group manifest := by
  have hactual : ∀ a ∈ actualManifest observed group, OfFile a := by
    intro a ha
    obtain ⟨hpath, hget⟩ := (mem_actualManifest hobserved.keyed).mp ha
    exact ⟨hnames _ (mem_paths_of_group hgroup hpath), hobserved.hashed _ _ hget⟩
  have hof : ∀ a ∈ manifest, OfFile a := fun a ha =>
    ⟨hnames _ (mem_paths_of_group hgroup (hmanifest.subset a ha)),
      length_of_accepted hmanifest.accepted ha⟩
  rw [manifestDigest_eq_iff hsha256 hactual hof,
    computeManifestHash_eq_iff actualManifest_nodup (nodup_of_accepted hmanifest.accepted)]
  exact forall_congr' fun a => by rw [mem_actualManifest hobserved.keyed]; exact Iff.comm

/-! ### The classification -/

/-- Every group was observed to have its manifest. -/
def FindsAll (intent : CommitIntent) (observed : Dict Path IndexArtifact)
    (manifest : IntentGroup → List IndexArtifact) : Prop :=
  ∀ group ∈ intent.groups, Finds observed group (manifest group)

/-- What the three answers say of the groups. -/
structure Classified (intent : CommitIntent) (observed : Dict Path IndexArtifact)
    (answer : PayloadState) : Prop where
  desired : answer = .desired ↔ FindsAll intent observed IntentGroup.desired
  before : answer = .before ↔ ¬ FindsAll intent observed IntentGroup.desired
    ∧ FindsAll intent observed IntentGroup.before
  unknown : answer = .unknown ↔ ¬ FindsAll intent observed IntentGroup.desired
    ∧ ¬ FindsAll intent observed IntentGroup.before

/-- The answers, when the comparison of hashes decides each group. -/
theorem classifyBy_spec {δ : Type} [DecidableEq δ] {manifestHash : List IndexArtifact → δ}
    (hdesired : ∀ group ∈ intent.groups,
      manifestHash (actualManifest observed group) = manifestHash group.desired
        ↔ Finds observed group group.desired)
    (hbefore : ∀ group ∈ intent.groups,
      manifestHash (actualManifest observed group) = manifestHash group.before
        ↔ Finds observed group group.before) :
    Classified intent observed (classifyBy manifestHash intent observed) := by
  have hall : ∀ manifest : IntentGroup → List IndexArtifact,
      (∀ group ∈ intent.groups,
        manifestHash (actualManifest observed group) = manifestHash (manifest group)
          ↔ Finds observed group (manifest group)) →
      ((intent.groups.all fun group =>
        manifestHash (actualManifest observed group) = manifestHash (manifest group)) = true
          ↔ FindsAll intent observed manifest) := by
    intro manifest h
    rw [List.all_eq_true]
    exact forall₂_congr fun group hgroup => by rw [decide_eq_true_iff, h group hgroup]
  have hd := hall IntentGroup.desired hdesired
  have hb := hall IntentGroup.before hbefore
  unfold classifyBy
  by_cases hdes : FindsAll intent observed IntentGroup.desired
  · rw [if_pos (hd.mpr hdes)]
    exact ⟨by simp [hdes], by simp [hdes], by simp [hdes]⟩
  · rw [if_neg fun h => hdes (hd.mp h)]
    by_cases hbef : FindsAll intent observed IntentGroup.before
    · rw [if_pos (hb.mpr hbef)]
      exact ⟨by simp [hdes], by simp [hdes, hbef], by simp [hbef]⟩
    · rw [if_neg fun h => hbef (hb.mp h)]
      exact ⟨by simp [hdes], by simp [hbef], by simp [hdes, hbef]⟩

/-- `classify_payload` is exact. -/
theorem classifyDigest_spec {sha256 : Bytes → String} (hsha256 : Function.Injective sha256)
    (haccepted : intent.accepted = true) (hnames : FileNames intent)
    (hobserved : Observation intent observed) :
    Classified intent observed (classifyBy (manifestDigest sha256) intent observed) :=
  classifyBy_spec
    (fun _ hgroup => manifestDigest_actualManifest_iff hsha256 hnames hobserved hgroup
      (manifestOf_desired haccepted hgroup))
    (fun _ hgroup => manifestDigest_actualManifest_iff hsha256 hnames hobserved hgroup
      (manifestOf_before haccepted hgroup))

end Observed

end RomCloud.SaveSync.Commit
