import RomCloud.SaveSync.ManifestDigest

namespace RomCloud.SaveSync.Commit

open RomCloud.Lib RomCloud.SaveSync.Index

/-!
# Manifests with the same digest

`compute_manifest_hash` writes one artifact after the other, each as path, size and digest with a
NUL between them.  No loader refuses a NUL in a path, so the text of two artifacts is also that of
one with a longer path.

* `glued` — one artifact that is written like two;
* `Loader` — what both loaders accept: the tuples that `_group_from_dict` and `_artifacts_from_list`
  accept are `groupLoader` and `intentLoader`;
* `Determined`, `Loader.determined_iff` — the tuples that no other accepted tuple is hashed like;
* `manifest_hash_determines` — both loaders, and the tuples without NUL.
-/

/-! ### Digests -/

/-- `text.encode("ascii")` succeeds. -/
def asciiOnly (text : String) : Bool := text.toList.all fun c => c.toNat < 128

/-- `compute_manifest_hash`.  It raises where a digest is not encoded in ASCII. -/
def manifestDigest? (sha256 : Bytes → String) (artifacts : List IndexArtifact) : Option String :=
  if artifacts.all fun a => asciiOnly a.sha256 then some (manifestDigest sha256 artifacts) else none

/-- Both tuples have a digest, and it is the same. -/
def SameDigest (sha256 : Bytes → String) (as bs : List IndexArtifact) : Prop :=
  ∃ digest, manifestDigest? sha256 as = some digest ∧ manifestDigest? sha256 bs = some digest

/-- Both tuples have the same artifacts. -/
def SameArtifacts (as bs : List IndexArtifact) : Prop := ∀ a, a ∈ as ↔ a ∈ bs

/-- The artifacts have digests of ASCII characters. -/
def Hashable (as : List IndexArtifact) : Prop := ∀ a ∈ as, asciiOnly a.sha256 = true

instance (as : List IndexArtifact) : Decidable (Hashable as) :=
  inferInstanceAs (Decidable (∀ a ∈ as, asciiOnly a.sha256 = true))

theorem manifestDigest?_eq_some {sha256 : Bytes → String} {as : List IndexArtifact}
    {digest : String} : manifestDigest? sha256 as = some digest
      ↔ Hashable as ∧ manifestDigest sha256 as = digest := by
  unfold manifestDigest?
  by_cases h : (as.all fun a => asciiOnly a.sha256) = true
  · rw [if_pos h, Option.some.injEq]
    exact (and_iff_right (List.all_eq_true.mp h)).symm
  · rw [if_neg h]
    exact iff_of_false (by simp) fun hboth => h (List.all_eq_true.mpr hboth.1)

theorem Hashable.of_same {as bs : List IndexArtifact} (h : Hashable as)
    (hsame : SameArtifacts as bs) : Hashable bs := fun b hb => h b ((hsame b).mpr hb)

theorem manifestText_of_digest {sha256 : Bytes → String} (hsha256 : Function.Injective sha256)
    {as bs : List IndexArtifact} (h : SameDigest sha256 as bs) :
    manifestText as = manifestText bs := by
  obtain ⟨digest, has, hbs⟩ := h
  have hdigest := (manifestDigest?_eq_some.mp has).2.trans (manifestDigest?_eq_some.mp hbs).2.symm
  apply String.toByteArray_inj.mp
  exact ByteArray.ext (Array.toList_inj.mp (hsha256 hdigest))

theorem sameDigest_of_text {sha256 : Bytes → String} {as bs : List IndexArtifact}
    (has : Hashable as) (hbs : Hashable bs) (h : manifestText as = manifestText bs) :
    SameDigest sha256 as bs := by
  refine ⟨manifestDigest sha256 as, manifestDigest?_eq_some.mpr ⟨has, rfl⟩,
    manifestDigest?_eq_some.mpr ⟨hbs, ?_⟩⟩
  rw [manifestDigest, ← h]
  rfl

/-- Tuples with the same artifacts have the same digest. -/
theorem sameDigest_of_same {sha256 : Bytes → String} {as bs : List IndexArtifact}
    (has : (as.map IndexArtifact.path).Nodup) (hbs : (bs.map IndexArtifact.path).Nodup)
    (hashable : Hashable as) (h : SameArtifacts as bs) : SameDigest sha256 as bs := by
  refine sameDigest_of_text hashable (hashable.of_same h) ?_
  rw [manifestText, (computeManifestHash_eq_iff has hbs).mpr h]
  rfl

/-- A sorted tuple is hashed as it is. -/
theorem manifestText_of_sorted {as : List IndexArtifact}
    (h : as.Pairwise fun a b => a.path < b.path) :
    (manifestText as).toList = as.flatMap fun a => (artifactText a).toList := by
  have hsorted : computeManifestHash as = as :=
    List.Pairwise.insertionSort_eq (h.imp le_of_lt)
  rw [manifestText, hsorted, String.toList_join, List.flatMap_map]

/-! ### Glued artifacts -/

/-- An artifact with the path that the text of another one and a path make together. -/
def glued (a b : IndexArtifact) : IndexArtifact := { b with path := artifactText a ++ b.path }

theorem artifactText_glued (a b : IndexArtifact) :
    artifactText (glued a b) = artifactText a ++ artifactText b := by
  simp only [artifactText, glued, String.append_assoc]

/-- The text of an artifact, read from its end. -/
theorem artifactText_inj {a b : IndexArtifact} (ha : a.sha256.length = 64)
    (hb : b.sha256.length = 64) (h : artifactText a = artifactText b) : a = b := by
  have htext := congrArg String.toList h
  rw [toList_artifactText, toList_artifactText] at htext
  have hreverse := congrArg List.reverse htext
  simp only [List.reverse_append, List.reverse_cons, List.append_assoc, List.reverse_nil,
    List.nil_append, List.cons_append, List.cons.injEq, true_and] at hreverse
  have hlength : a.sha256.toList.reverse.length = b.sha256.toList.reverse.length := by
    rw [List.length_reverse, List.length_reverse, String.length_toList, String.length_toList, ha,
      hb]
  obtain ⟨hsha256, hrest⟩ := List.append_inj hreverse hlength
  obtain ⟨hsize, hpath⟩ := nul_split (fun hmem => nul_not_mem_toDigits _ (List.mem_reverse.mp hmem))
    (fun hmem => nul_not_mem_toDigits _ (List.mem_reverse.mp hmem)) (List.cons.inj hrest).2
  have hsizes : a.sizeBytes = b.sizeBytes := by
    rw [← @Nat.ofDigitChars_ten_toDigits a.sizeBytes, List.reverse_inj.mp hsize,
      Nat.ofDigitChars_ten_toDigits]
  obtain ⟨path, size, sha256⟩ := a
  obtain ⟨path', size', sha256'⟩ := b
  obtain rfl : path = path' := String.toList_injective (List.reverse_inj.mp hpath)
  obtain rfl : size = size' := hsizes
  obtain rfl : sha256 = sha256' := String.toList_injective (List.reverse_inj.mp hsha256)
  rfl

/-- A text comes after what it begins with. -/
theorem le_of_toList_prefix {p q : String} (h : p.toList <+: q.toList) : p ≤ q :=
  not_lt.mp fun hlt => List.IsPrefix.le h (String.lt_iff_toList_lt.mp hlt)

/-- The glued path comes after the first of its parts. -/
theorem lt_glued (a b : IndexArtifact) : a.path < (glued a b).path := by
  have hle : a.path ≤ (glued a b).path := by
    apply le_of_toList_prefix
    rw [glued, String.toList_append, toList_artifactText, List.append_assoc]
    exact List.prefix_append _ _
  refine lt_of_le_of_ne hle ?_
  intro heq
  have hlength := congrArg (fun text => text.toList.length) heq
  simp only [glued, String.toList_append, toList_artifactText, List.length_append,
    List.length_cons] at hlength
  omega

/-! ### Loaders -/

/-- What a loader of artifact tuples accepts, with what the proofs use of it: no path twice, digests
    of 64 characters, no matter in which order, and with two last artifacts also the one that is
    written like them. -/
structure Loader where
  Accepts : List IndexArtifact → Prop
  nodup : ∀ {as}, Accepts as → (as.map IndexArtifact.path).Nodup
  length : ∀ {as}, Accepts as → ∀ a ∈ as, a.sha256.length = 64
  perm : ∀ {as bs}, as.Perm bs → Accepts as → Accepts bs
  glue : ∀ {front a b}, Accepts (front ++ [a, b]) → (∀ f ∈ front, f.path < a.path) →
    Accepts (front ++ [glued a b])

/-- A tuple that no other accepted tuple is hashed like: it has a digest, and at most one artifact,
    which is not written like two that are accepted together. -/
def Determined (accepts : List IndexArtifact → Prop) (as : List IndexArtifact) : Prop :=
  Hashable as ∧ (as = [] ∨ ∃ a, as = [a] ∧ ∀ b c, accepts [b, c] → b.path < c.path →
    asciiOnly b.sha256 = true → a ≠ glued b c)

namespace Loader

variable {L : Loader} {as bs : List IndexArtifact} {sha256 : Bytes → String}

/-- The artifacts of an accepted tuple, in the order of their paths. -/
theorem exists_sorted (h : L.Accepts as) :
    ∃ sorted, L.Accepts sorted ∧ sorted.Perm as ∧
      (sorted.Pairwise fun a b => a.path < b.path) ∧ manifestText sorted = manifestText as := by
  have hperm : (computeManifestHash as).Perm as := List.perm_insertionSort _ _
  have haccepts := L.perm hperm.symm h
  have hsorted : (computeManifestHash as).Pairwise fun a b => a.path < b.path := by
    have hne := List.pairwise_map.mp (L.nodup haccepts)
    refine ((List.pairwise_insertionSort (fun a b : IndexArtifact => a.path ≤ b.path) as).and
      hne).imp ?_
    exact fun hab => lt_of_le_of_ne hab.1 hab.2
  refine ⟨_, haccepts, hperm, hsorted, ?_⟩
  rw [manifestText, manifestText]
  have hagain : computeManifestHash (computeManifestHash as) = computeManifestHash as :=
    List.Pairwise.insertionSort_eq (hsorted.imp le_of_lt)
  rw [hagain]

/-- The last two artifacts of a tuple of two or more. -/
theorem exists_last_two (hlength : 2 ≤ as.length) : ∃ front x y, as = front ++ [x, y] := by
  obtain ⟨init, y, rfl⟩ := (List.eq_nil_or_concat as).resolve_left (by rintro rfl; simp at hlength)
  obtain ⟨front, x, rfl⟩ := (List.eq_nil_or_concat init).resolve_left
    (by rintro rfl; simp at hlength)
  exact ⟨front, x, y, by simp⟩

theorem pairwise_glued {front : List IndexArtifact} {x y : IndexArtifact}
    (h : (front ++ [x, y]).Pairwise fun a b => a.path < b.path) :
    (∀ f ∈ front, f.path < x.path) ∧ x.path < y.path ∧
      (front ++ [glued x y]).Pairwise fun a b => a.path < b.path := by
  obtain ⟨hfront, hlast, hcross⟩ := List.pairwise_append.mp h
  have hx : ∀ f ∈ front, f.path < x.path := fun f hf => hcross f hf x (by simp)
  have hxy : x.path < y.path := (List.pairwise_cons.mp hlast).1 y (by simp)
  refine ⟨hx, hxy, List.pairwise_append.mpr ⟨hfront, List.pairwise_singleton _ _, ?_⟩⟩
  intro f hf g hg
  rw [List.mem_singleton.mp hg]
  exact (hx f hf).trans (lt_glued x y)

theorem flatMap_glued (front : List IndexArtifact) (x y : IndexArtifact) :
    (front ++ [glued x y]).flatMap (fun a => (artifactText a).toList)
      = (front ++ [x, y]).flatMap fun a => (artifactText a).toList := by
  simp [artifactText_glued]

theorem hashable_glued {front : List IndexArtifact} {x y : IndexArtifact}
    (h : Hashable (front ++ [x, y])) : Hashable (front ++ [glued x y]) := by
  intro a ha
  rcases List.mem_append.mp ha with hfront | hlast
  · exact h a (List.mem_append_left _ hfront)
  · rw [List.mem_singleton.mp hlast]
    exact h y (by simp)

/-- Two or more artifacts are written like two. -/
theorem exists_pair (h : L.Accepts as) (hsorted : as.Pairwise fun a b => a.path < b.path)
    (hlength : 2 ≤ as.length) (hashable : Hashable as) :
    ∃ b c, L.Accepts [b, c] ∧ b.path < c.path ∧ asciiOnly b.sha256 = true ∧
      as.flatMap (fun a => (artifactText a).toList)
        = (artifactText b).toList ++ (artifactText c).toList := by
  induction hn : as.length using Nat.strong_induction_on generalizing as with
  | _ n ih =>
    subst hn
    obtain ⟨front, x, y, rfl⟩ := exists_last_two hlength
    obtain ⟨hx, hxy, hglued⟩ := pairwise_glued hsorted
    by_cases hfront : front = []
    · subst hfront
      exact ⟨x, y, h, hxy, hashable x (by simp), by simp⟩
    · have hpos : 0 < front.length := List.length_pos_iff.mpr hfront
      obtain ⟨b, c, haccepts, hbc, hascii, htext⟩ := ih (front ++ [glued x y]).length
        (by simp) (L.glue h hx) hglued (by simp; omega) (hashable_glued hashable) rfl
      refine ⟨b, c, haccepts, hbc, hascii, ?_⟩
      rw [← htext, flatMap_glued]

/-- **What determines a tuple.** An accepted tuple is told from every other one by its digest
    exactly when it has at most one artifact, and that is not written like two. -/
theorem determined_iff (hsha256 : Function.Injective sha256) (h : L.Accepts as) :
    (∀ bs, L.Accepts bs → (SameDigest sha256 as bs ↔ SameArtifacts as bs))
      ↔ Determined L.Accepts as := by
  constructor
  · intro hall
    obtain ⟨digest, hdigest, -⟩ := (hall as h).mpr fun _ => Iff.rfl
    have hashable := (manifestDigest?_eq_some.mp hdigest).1
    refine ⟨hashable, ?_⟩
    obtain ⟨sorted, haccepts, hperm, hsorted, htext⟩ := L.exists_sorted h
    have hsortedHashable : Hashable sorted := fun a ha => hashable a (hperm.mem_iff.mp ha)
    by_cases hlength : 2 ≤ as.length
    · -- the last two artifacts of the sorted tuple are glued
      rw [← hperm.length_eq] at hlength
      obtain ⟨front, x, y, rfl⟩ := exists_last_two hlength
      obtain ⟨hx, hxy, hglued⟩ := pairwise_glued hsorted
      have hsame : SameDigest sha256 as (front ++ [glued x y]) := by
        refine sameDigest_of_text hashable (hashable_glued hsortedHashable) ?_
        apply String.toList_injective
        rw [← htext, manifestText_of_sorted hsorted, manifestText_of_sorted hglued, flatMap_glued]
      have hboth := (hall _ (L.glue haccepts hx)).mp hsame
      have hpermute : as.Perm (front ++ [glued x y]) :=
        (List.perm_ext_iff_of_nodup (L.nodup h).of_map
          (L.nodup (L.glue haccepts hx)).of_map).mpr hboth
      have := (hperm.trans hpermute).length_eq
      simp at this
    · have hshort : as = [] ∨ ∃ a, as = [a] := by
        rcases as with _ | ⟨a, _ | ⟨b, rest⟩⟩
        · exact Or.inl rfl
        · exact Or.inr ⟨a, rfl⟩
        · simp at hlength
      refine hshort.imp_right ?_
      rintro ⟨a, rfl⟩
      refine ⟨a, rfl, ?_⟩
      rintro b c hpair hbc hascii rfl
      have hpairSorted : [b, c].Pairwise fun a b => a.path < b.path := List.pairwise_pair.mpr hbc
      have hsame : SameDigest sha256 [glued b c] [b, c] := by
        refine sameDigest_of_text hashable ?_ ?_
        · intro a ha
          rcases List.mem_pair.mp ha with heq | heq
          · rw [heq]
            exact hascii
          · rw [heq]
            exact hashable (glued b c) (by simp)
        · apply String.toList_injective
          rw [manifestText_of_sorted hpairSorted, manifestText_of_sorted (List.pairwise_singleton _ _)]
          simp [artifactText_glued]
      have hin := ((hall _ hpair).mp hsame b).mpr (by simp)
      rw [List.mem_singleton] at hin
      exact absurd (congrArg IndexArtifact.path hin) (lt_glued b c).ne
  · rintro ⟨hashable, hshort⟩ bs hbs
    refine ⟨fun hsame => ?_, sameDigest_of_same (L.nodup h) (L.nodup hbs) hashable⟩
    have htexts := manifestText_of_digest hsha256 hsame
    have hbsHashable : Hashable bs := by
      obtain ⟨digest, -, hdigest⟩ := hsame
      exact (manifestDigest?_eq_some.mp hdigest).1
    obtain ⟨sorted, haccepts, hperm, hsorted, htext⟩ := L.exists_sorted hbs
    suffices heq : sorted = as by
      intro a
      rw [← heq, hperm.mem_iff]
    rw [← htext] at htexts
    have hlists := congrArg String.toList htexts
    rw [manifestText_of_sorted hsorted] at hlists
    rcases hshort with rfl | ⟨a, rfl, hnot⟩
    · cases sorted with
      | nil => rfl
      | cons b rest =>
        rw [manifestText_of_sorted List.Pairwise.nil, List.flatMap_cons, toList_artifactText]
          at hlists
        simp at hlists
    · rw [manifestText_of_sorted (List.pairwise_singleton _ _)] at hlists
      have hsortedHashable : Hashable sorted := fun b hb => hbsHashable b (hperm.mem_iff.mp hb)
      rcases sorted with _ | ⟨b, _ | ⟨c, rest⟩⟩
      · rw [List.flatMap_cons, toList_artifactText] at hlists
        simp at hlists
      · have hone : artifactText a = artifactText b :=
          String.toList_injective (by simpa using hlists)
        rw [artifactText_inj (L.length h a (by simp)) (L.length haccepts b (by simp)) hone]
      · -- two artifacts or more are written like two, so that `a` is one of those that are glued
        obtain ⟨x, y, hpair, hxy, hascii, hpairText⟩ :=
          L.exists_pair haccepts hsorted (by simp) hsortedHashable
        rw [hpairText] at hlists
        have hone : artifactText a = artifactText (glued x y) := by
          apply String.toList_injective
          rw [artifactText_glued, String.toList_append, ← hlists]
          simp
        refine absurd (artifactText_inj (L.length h a (by simp)) ?_ hone) (hnot x y hpair hxy hascii)
        exact L.length hpair y (by simp)

end Loader

/-! ### The two loaders -/

/-- What `_group_from_dict` accepts as the artifacts of a group, of whatever system. -/
def AcceptedGroup (as : List IndexArtifact) : Prop :=
  ∃ system, strip system ≠ "" ∧ artifactsError? system as [] = none

/-- What `_artifacts_from_list` accepts in an intent. -/
def AcceptedIntent (as : List IndexArtifact) : Prop := artifactsAccepted as = true

instance (as : List IndexArtifact) : Decidable (AcceptedIntent as) :=
  inferInstanceAs (Decidable (artifactsAccepted as = true))

theorem acceptedIntent_iff {as : List IndexArtifact} : AcceptedIntent as ↔
    (∀ a ∈ as, a.path ≠ "" ∧ a.sha256.length = 64) ∧ (as.map IndexArtifact.path).Nodup := by
  rw [AcceptedIntent, artifactsAccepted, Bool.and_eq_true, List.all_eq_true, decide_eq_true_iff]
  simp only [Bool.and_eq_true, decide_eq_true_eq]

theorem artifactsError?_seen {system : String} {as : List IndexArtifact} {seen : List Path} :
    artifactsError? system as seen = none ↔ (∀ a ∈ as, artifactError? system a = none) ∧
      (as.map IndexArtifact.path).Nodup ∧ ∀ a ∈ as, a.path ∉ seen := by
  induction as generalizing seen with
  | nil => simp [artifactsError?]
  | cons a rest ih =>
    rw [artifactsError?, List.forall_mem_cons, List.forall_mem_cons, List.map_cons,
      List.nodup_cons]
    cases herror : artifactError? system a with
    | some error => simp
    | none =>
      dsimp only
      by_cases hseen : a.path ∈ seen
      · simp [hseen]
      · rw [if_neg hseen, ih]
        have hhead : (∀ b ∈ rest, b.path ∉ a.path :: seen)
            ↔ a.path ∉ rest.map IndexArtifact.path ∧ ∀ b ∈ rest, b.path ∉ seen := by
          simp only [List.mem_cons, not_or, List.mem_map, not_exists, not_and]
          exact ⟨fun h => ⟨fun b hb => (h b hb).1, fun b hb => (h b hb).2⟩,
            fun h b hb => ⟨h.1 b hb, h.2 b hb⟩⟩
        rw [hhead]
        simp only [hseen, not_false_eq_true, true_and]
        exact ⟨fun ⟨h1, h2, h3, h4⟩ => ⟨h1, ⟨h3, h2⟩, h4⟩, fun ⟨h1, ⟨h3, h2⟩, h4⟩ => ⟨h1, h2, h3, h4⟩⟩

/-- A path that the index accepts, apart from its system. -/
def CanonicalPath (path : Path) : Prop :=
  '\\' ∉ path.toList ∧ path.toList.head? ≠ some '/' ∧ path.toList.getLast? ≠ some '/' ∧
    ∀ part ∈ path.toList.splitOn '/', part ≠ [] ∧ part ≠ ['.'] ∧ part ≠ ['.', '.']

/-- A path of a system. -/
def OfSystem (system : String) (path : Path) : Prop :=
  path = system ∨ (system ++ "/").toList <+: path.toList

theorem artifactError?_eq_none_iff {system : String} {a : IndexArtifact} :
    artifactError? system a = none ↔ CanonicalPath a.path ∧ OfSystem system a.path ∧
      sha256Hex a.sha256 = true := by
  have hbadpath : ('\\' ∈ a.path.toList || a.path.toList.head? = some '/'
      || a.path.toList.getLast? = some '/'
      || (a.path.toList.splitOn '/').any
        (fun part => part = [] || part = ['.'] || part = ['.', '.'])) = true
      ↔ ¬ CanonicalPath a.path := by
    rw [CanonicalPath, Bool.or_eq_true, Bool.or_eq_true, Bool.or_eq_true, List.any_eq_true]
    simp only [decide_eq_true_eq, Bool.or_eq_true]
    constructor
    · rintro (((h | h) | h) | ⟨part, hpart, h⟩) ⟨h1, h2, h3, h4⟩
      · exact h1 h
      · exact h2 h
      · exact h3 h
      · obtain ⟨hempty, hdot, hdots⟩ := h4 part hpart
        rcases h with (h | h) | h
        · exact hempty h
        · exact hdot h
        · exact hdots h
    · intro h
      by_contra hno
      push Not at hno
      obtain ⟨⟨⟨h1, h2⟩, h3⟩, h4⟩ := hno
      refine h ⟨h1, h2, h3, fun part hpart => ?_⟩
      obtain ⟨⟨hempty, hdot⟩, hdots⟩ := h4 part hpart
      exact ⟨hempty, hdot, hdots⟩
  have hforeign : (a.path ≠ system && !(system ++ "/").toList.isPrefixOf a.path.toList) = true
      ↔ ¬ OfSystem system a.path := by
    rw [OfSystem, Bool.and_eq_true, decide_eq_true_iff, Bool.not_eq_true', not_or,
      ← Bool.not_eq_true, List.isPrefixOf_iff_prefix]
  unfold artifactError? artifactPathError?
  by_cases hcanonical : CanonicalPath a.path
  · rw [if_neg fun h => hbadpath.mp h hcanonical]
    by_cases hsystem : OfSystem system a.path
    · rw [if_neg fun h => hforeign.mp h hsystem]
      dsimp only
      cases hsha256 : sha256Hex a.sha256 <;> simp [hcanonical, hsystem]
    · rw [if_pos (hforeign.mpr hsystem)]
      simp [hsystem]
  · rw [if_pos (hbadpath.mpr hcanonical)]
    simp [hcanonical]

/-- The components of a path after a text without slashes. -/
theorem mem_splitOn_plain {front back part : List Char} (hfront : '/' ∉ front)
    (h : part ∈ (front ++ back).splitOn '/') :
    part ∈ back.splitOn '/' ∨ ∃ r, part = front ++ r := by
  by_cases hslash : '/' ∈ back
  · -- up to its first slash, what comes after the text belongs to the component
    obtain ⟨before, after, rfl, hbefore⟩ := List.eq_append_cons_of_mem hslash
    have hplain : '/' ∉ front ++ before := by
      rw [List.mem_append, not_or]
      exact ⟨hfront, hbefore⟩
    rw [← List.append_assoc, List.splitOn_append_cons_self_of_not_mem hplain, List.mem_cons] at h
    rcases h with rfl | h
    · exact Or.inr ⟨before, rfl⟩
    · rw [List.splitOn_append_cons_self_of_not_mem hbefore]
      exact Or.inl (List.mem_cons_of_mem _ h)
  · have hplain : '/' ∉ front ++ back := by
      rw [List.mem_append, not_or]
      exact ⟨hfront, hslash⟩
    rw [List.splitOn_eq_singleton hplain, List.mem_singleton] at h
    exact Or.inr ⟨back, h⟩

/-- The components of two paths with a text between them. -/
theorem mem_splitOn_append {front middle back part : List Char} (hmiddle : '/' ∉ middle)
    (h : part ∈ (front ++ middle ++ back).splitOn '/') :
    part ∈ front.splitOn '/' ∨ part ∈ back.splitOn '/' ∨ ∃ l r, part = l ++ middle ++ r := by
  by_cases hslash : '/' ∈ front
  · -- after its last slash, what comes before the text belongs to the component
    obtain ⟨after, before, hreverse, hafter⟩ :=
      List.eq_append_cons_of_mem (List.mem_reverse.mpr hslash)
    have hsplit : front = before.reverse ++ '/' :: after.reverse := by
      rw [← List.reverse_reverse front, hreverse, List.reverse_append, List.reverse_cons,
        List.append_assoc]
      rfl
    have hplain : '/' ∉ after.reverse ++ middle := by
      rw [List.mem_append, List.mem_reverse, not_or]
      exact ⟨hafter, hmiddle⟩
    rw [hsplit, List.append_assoc, List.append_assoc, List.cons_append,
      List.splitOn_append_cons_self, List.mem_append] at h
    rw [hsplit, List.splitOn_append_cons_self, List.mem_append]
    rcases h with h | h
    · exact Or.inl (Or.inl h)
    · rw [← List.append_assoc] at h
      rcases mem_splitOn_plain hplain h with h | ⟨r, rfl⟩
      · exact Or.inr (Or.inl h)
      · exact Or.inr (Or.inr ⟨after.reverse, r, rfl⟩)
  · have hplain : '/' ∉ front ++ middle := by
      rw [List.mem_append, not_or]
      exact ⟨hslash, hmiddle⟩
    rcases mem_splitOn_plain hplain h with h | ⟨r, rfl⟩
    · exact Or.inr (Or.inl h)
    · exact Or.inr (Or.inr ⟨front, r, rfl⟩)

/-- What stands between the two paths of a glued one. -/
def gluedMiddle (a : IndexArtifact) : List Char :=
  '\x00' :: (Nat.toDigits 10 a.sizeBytes ++ '\x00' :: (a.sha256.toList ++ ['\n']))

theorem toList_gluedPath (a b : IndexArtifact) :
    (glued a b).path.toList = a.path.toList ++ gluedMiddle a ++ b.path.toList := by
  rw [glued, String.toList_append, toList_artifactText]
  rfl

theorem sha256Hex_iff {text : String} : sha256Hex text = true ↔ text.length = 64 ∧
    ∀ c ∈ text.toList, c.isDigit = true ∨ ('a' ≤ c ∧ c ≤ 'f') := by
  unfold sha256Hex
  rw [Bool.and_eq_true, decide_eq_true_iff, List.all_eq_true]
  simp only [Bool.or_eq_true, Bool.and_eq_true, decide_eq_true_eq]

theorem not_mem_gluedMiddle {a : IndexArtifact} (h : sha256Hex a.sha256 = true) {c : Char}
    (hc : c = '/' ∨ c = '\\') : c ∉ gluedMiddle a := by
  have hdigits : c ∉ Nat.toDigits 10 a.sizeBytes := by
    intro hmem
    have hdigit := Nat.isDigit_of_mem_toDigits (by decide) (by decide) hmem
    rcases hc with rfl | rfl <;> exact absurd hdigit (by decide)
  have hhex : c ∉ a.sha256.toList := by
    intro hmem
    have hhex := (sha256Hex_iff.mp h).2 c hmem
    rcases hc with rfl | rfl <;> exact absurd hhex (by decide)
  rw [gluedMiddle, List.mem_cons, List.mem_append, List.mem_cons, List.mem_append,
    List.mem_singleton]
  rintro (h | h | h | h | h)
  · rcases hc with rfl | rfl <;> exact absurd h (by decide)
  · exact hdigits h
  · rcases hc with rfl | rfl <;> exact absurd h (by decide)
  · exact hhex h
  · rcases hc with rfl | rfl <;> exact absurd h (by decide)

/-- A glued path is as canonical as its parts. -/
theorem CanonicalPath.glued {a b : IndexArtifact} (ha : CanonicalPath a.path)
    (hb : CanonicalPath b.path) (hhex : sha256Hex a.sha256 = true) :
    CanonicalPath (glued a b).path := by
  obtain ⟨hbackslash, hhead, -, hparts⟩ := ha
  obtain ⟨hbackslash', -, hlast, hparts'⟩ := hb
  have hne : ∀ path : Path, (∀ part ∈ path.toList.splitOn '/',
      part ≠ [] ∧ part ≠ ['.'] ∧ part ≠ ['.', '.']) → path.toList ≠ [] := by
    intro path h hnil
    rw [hnil] at h
    exact (h [] (by simp)).1 rfl
  rw [CanonicalPath, toList_gluedPath]
  refine ⟨?_, ?_, ?_, ?_⟩
  · rw [List.mem_append, List.mem_append, not_or, not_or]
    exact ⟨⟨hbackslash, not_mem_gluedMiddle hhex (Or.inr rfl)⟩, hbackslash'⟩
  · rw [List.append_assoc, List.head?_append_of_ne_nil _ (hne _ hparts)]
    exact hhead
  · rw [List.getLast?_append_of_ne_nil _ (hne _ hparts')]
    exact hlast
  · intro part hpart
    rcases mem_splitOn_append (not_mem_gluedMiddle hhex (Or.inl rfl)) hpart with h | h | ⟨l, r, rfl⟩
    · exact hparts part h
    · exact hparts' part h
    · -- the component in the middle has a NUL
      have hnul : '\x00' ∈ l ++ gluedMiddle a ++ r := by
        rw [List.mem_append, List.mem_append]
        exact Or.inl (Or.inr List.mem_cons_self)
      refine ⟨?_, ?_, ?_⟩ <;>
      · intro heq
        rw [heq] at hnul
        exact absurd hnul (by decide)

theorem acceptedGroup_iff {as : List IndexArtifact} : AcceptedGroup as ↔
    ∃ system, strip system ≠ "" ∧ (∀ a ∈ as, CanonicalPath a.path ∧ OfSystem system a.path ∧
      sha256Hex a.sha256 = true) ∧ (as.map IndexArtifact.path).Nodup := by
  refine exists_congr fun system => and_congr_right fun _ => ?_
  rw [artifactsError?_seen]
  simp only [artifactError?_eq_none_iff, List.not_mem_nil, not_false_eq_true, implies_true,
    and_true]

/-- A path that comes after another one is not among those before it. -/
theorem nodup_append_glued {front : List IndexArtifact} {a b : IndexArtifact}
    (hnodup : ((front ++ [a, b]).map IndexArtifact.path).Nodup)
    (hbefore : ∀ f ∈ front, f.path < a.path) :
    ((front ++ [glued a b]).map IndexArtifact.path).Nodup := by
  rw [List.map_append, List.nodup_append] at hnodup ⊢
  refine ⟨hnodup.1, List.nodup_singleton _, ?_⟩
  intro path hpath other hother heq
  obtain ⟨f, hf, rfl⟩ := List.mem_map.mp hpath
  rw [List.map_singleton, List.mem_singleton] at hother
  rw [hother] at heq
  exact ((hbefore f hf).trans (lt_glued a b)).ne heq

theorem AcceptedGroup.glue {front : List IndexArtifact} {a b : IndexArtifact}
    (h : AcceptedGroup (front ++ [a, b])) (hbefore : ∀ f ∈ front, f.path < a.path) :
    AcceptedGroup (front ++ [glued a b]) := by
  obtain ⟨system, hsystem, hall, hnodup⟩ := acceptedGroup_iff.mp h
  obtain ⟨hcanonical, hof, hhex⟩ := hall a (by simp)
  obtain ⟨hcanonical', -, hhex'⟩ := hall b (by simp)
  have hglued := hcanonical.glued hcanonical' hhex
  by_cases heq : a.path = system
  · -- `a` is the first one, and the glued path is a system of its own
    have hfront : front = [] := by
      refine List.eq_nil_iff_forall_not_mem.mpr fun f hf => ?_
      refine absurd (hbefore f hf) (not_lt.mpr ?_)
      rw [heq]
      rcases (hall f (List.mem_append_left _ hf)).2.1 with hsame | hbelow
      · exact hsame.ge
      · refine le_of_toList_prefix (List.IsPrefix.trans ?_ hbelow)
        rw [String.toList_append]
        exact List.prefix_append _ _
    subst hfront
    refine acceptedGroup_iff.mpr ⟨(glued a b).path, ?_, ?_, List.nodup_singleton _⟩
    · refine @strip_ne_empty_of_mem _ '\x00' ?_ (by decide)
      rw [toList_gluedPath, List.mem_append, List.mem_append]
      exact Or.inl (Or.inr List.mem_cons_self)
    · intro c hc
      rw [List.nil_append, List.mem_singleton] at hc
      rw [hc]
      exact ⟨hglued, Or.inl rfl, hhex'⟩
  · refine acceptedGroup_iff.mpr ⟨system, hsystem, ?_, nodup_append_glued hnodup hbefore⟩
    intro c hc
    rcases List.mem_append.mp hc with hc | hc
    · exact hall c (List.mem_append_left _ hc)
    · rw [List.mem_singleton.mp hc]
      refine ⟨hglued, Or.inr ?_, hhex'⟩
      rw [toList_gluedPath, List.append_assoc]
      exact (hof.resolve_left heq).trans (List.prefix_append _ _)

/-- A group is as strict as an intent, and its digests are of hexadecimal digits. -/
theorem AcceptedGroup.intent {as : List IndexArtifact} (h : AcceptedGroup as) :
    AcceptedIntent as ∧ Hashable as := by
  obtain ⟨system, -, hall, hnodup⟩ := acceptedGroup_iff.mp h
  refine ⟨acceptedIntent_iff.mpr ⟨fun a ha => ?_, hnodup⟩, fun a ha => ?_⟩
  · obtain ⟨⟨-, -, -, hparts⟩, -, hhex⟩ := hall a ha
    refine ⟨?_, (sha256Hex_iff.mp hhex).1⟩
    intro hempty
    rw [hempty] at hparts
    exact (hparts [] (by simp)).1 rfl
  · obtain ⟨-, -, hhex⟩ := hall a ha
    rw [asciiOnly, List.all_eq_true]
    intro c hc
    rw [decide_eq_true_iff]
    rcases (sha256Hex_iff.mp hhex).2 c hc with hdigit | ⟨-, hle⟩
    · rw [Char.isDigit, Bool.and_eq_true, decide_eq_true_iff, decide_eq_true_iff] at hdigit
      exact lt_of_le_of_lt (show c.toNat ≤ 57 from hdigit.2) (by decide)
    · exact lt_of_le_of_lt (show c.toNat ≤ 102 from hle) (by decide)

/-- The loader of index groups. -/
def groupLoader : Loader where
  Accepts := AcceptedGroup
  nodup := fun h => (acceptedIntent_iff.mp h.intent.1).2
  length := fun h a ha => ((acceptedIntent_iff.mp h.intent.1).1 a ha).2
  perm := by
    intro as bs hperm h
    obtain ⟨system, hsystem, hall, hnodup⟩ := acceptedGroup_iff.mp h
    exact acceptedGroup_iff.mpr ⟨system, hsystem, fun a ha => hall a (hperm.mem_iff.mpr ha),
      (hperm.map _).nodup_iff.mp hnodup⟩
  glue := fun h hbefore => h.glue hbefore

/-- The loader of the artifacts of an intent. -/
def intentLoader : Loader where
  Accepts := AcceptedIntent
  nodup := fun h => (acceptedIntent_iff.mp h).2
  length := fun h a ha => ((acceptedIntent_iff.mp h).1 a ha).2
  perm := by
    intro as bs hperm h
    obtain ⟨hall, hnodup⟩ := acceptedIntent_iff.mp h
    exact acceptedIntent_iff.mpr ⟨fun a ha => hall a (hperm.mem_iff.mpr ha),
      (hperm.map _).nodup_iff.mp hnodup⟩
  glue := by
    intro front a b h hbefore
    obtain ⟨hall, hnodup⟩ := acceptedIntent_iff.mp h
    refine acceptedIntent_iff.mpr ⟨fun c hc => ?_, nodup_append_glued hnodup hbefore⟩
    rcases List.mem_append.mp hc with hc | hc
    · exact hall c (List.mem_append_left _ hc)
    · rw [List.mem_singleton.mp hc]
      refine ⟨?_, (hall b (by simp)).2⟩
      intro hempty
      have hnil := congrArg String.toList hempty
      rw [toList_gluedPath] at hnil
      exact absurd hnil (by simp [gluedMiddle])

/-! ### The result -/

/-- No path has a NUL. -/
def NulFree (as : List IndexArtifact) : Prop := ∀ a ∈ as, '\x00' ∉ a.path.toList

instance (as : List IndexArtifact) : Decidable (NulFree as) :=
  inferInstanceAs (Decidable (∀ a ∈ as, '\x00' ∉ a.path.toList))

/-- Tuples without NUL have the same digest exactly when they have the same artifacts. -/
theorem sameDigest_iff_of_nulFree {sha256 : Bytes → String} (hsha256 : Function.Injective sha256)
    {as bs : List IndexArtifact} (has : AcceptedIntent as) (hbs : AcceptedIntent bs)
    (hashable : Hashable as) (hnul : NulFree as) (hnul' : NulFree bs) :
    SameDigest sha256 as bs ↔ SameArtifacts as bs := by
  obtain ⟨hall, hnodup⟩ := acceptedIntent_iff.mp has
  obtain ⟨hall', hnodup'⟩ := acceptedIntent_iff.mp hbs
  refine ⟨fun hsame => ?_, sameDigest_of_same hnodup hnodup' hashable⟩
  refine (computeManifestHash_eq_iff hnodup hnodup').mp ?_
  exact manifestText_inj (fun a ha => ⟨hnul a ha, (hall a ha).2⟩)
    (fun b hb => ⟨hnul' b hb, (hall' b hb).2⟩) (manifestText_of_digest hsha256 hsame)

/-- **Manifest digests.** Tuples without NUL in their paths are told apart by their digests.  Of all
    tuples that a loader accepts, a tuple is told from every other one exactly when it has a digest
    and at most one artifact, which is not written like two. -/
theorem manifest_hash_determines {sha256 : Bytes → String}
    (hsha256 : Function.Injective sha256) :
    (∀ as bs, AcceptedIntent as → AcceptedIntent bs → Hashable as → NulFree as → NulFree bs →
      (SameDigest sha256 as bs ↔ SameArtifacts as bs)) ∧
    (∀ as, AcceptedGroup as → AcceptedIntent as ∧ Hashable as) ∧
    (∀ as, AcceptedGroup as →
      ((∀ bs, AcceptedGroup bs → (SameDigest sha256 as bs ↔ SameArtifacts as bs))
        ↔ Determined AcceptedGroup as)) ∧
    ∀ as, AcceptedIntent as →
      ((∀ bs, AcceptedIntent bs → (SameDigest sha256 as bs ↔ SameArtifacts as bs))
        ↔ Determined AcceptedIntent as) := by
  refine ⟨?_, fun as h => h.intent, ?_, ?_⟩
  · intro as bs has hbs hashable hnul hnul'
    exact sameDigest_iff_of_nulFree hsha256 has hbs hashable hnul hnul'
  · exact fun as h => @Loader.determined_iff groupLoader as sha256 hsha256 h
  · exact fun as h => @Loader.determined_iff intentLoader as sha256 hsha256 h

/-! ### One save that hashes like two -/

/-- A save with a digest of one repeated digit. -/
def saveAt (path : Path) (size : ℕ) (digit : Char) : IndexArtifact :=
  ⟨path, size, String.ofList (List.replicate 64 digit)⟩

/-- Two saves of a system. -/
def twoSaves : List IndexArtifact := [saveAt "psx/a" 5 'a', saveAt "psx/b" 6 'b']

/-- One save, with the path `psx/a\0005\000aa…a\npsx/b`. -/
def oneSave : List IndexArtifact := [glued (saveAt "psx/a" 5 'a') (saveAt "psx/b" 6 'b')]

/-- Every byte as the character of its number: a digest without collisions. -/
def plainDigest (bytes : Bytes) : String :=
  String.ofList (bytes.map fun b => Char.ofNat b.toNat)

theorem plainDigest_injective : Function.Injective plainDigest := by
  intro a b h
  refine List.map_injective_iff.mpr ?_ (String.ofList_inj.mp h)
  intro x y hxy
  have hvalid : ∀ b : UInt8, (Char.ofNat b.toNat).toNat = b.toNat := by
    intro b
    have hlt := b.toNat_lt
    rw [Char.ofNat, dif_pos (show b.toNat.isValidChar from Or.inl (by omega))]
    rfl
  apply UInt8.toNat_inj.mp
  rw [← hvalid x, ← hvalid y, show Char.ofNat x.toNat = Char.ofNat y.toNat from hxy]

/-- Two saves without NUL are told from every other such tuple. -/
theorem twoSaves_told : SameDigest plainDigest twoSaves twoSaves.reverse := by
  refine ((manifest_hash_determines plainDigest_injective).1 twoSaves twoSaves.reverse
    (by decide +kernel) (by decide +kernel) (by decide +kernel) (by decide +kernel)
    (by decide +kernel)).mpr ?_
  exact fun a => List.mem_reverse.symm

/-- **A collision.** Whatever the hash function, one save hashes like two. -/
theorem oneSave_like_two :
    AcceptedGroup oneSave ∧ AcceptedGroup twoSaves ∧ AcceptedIntent oneSave ∧
      AcceptedIntent twoSaves ∧ (∀ sha256, SameDigest sha256 oneSave twoSaves) ∧
      ¬ SameArtifacts oneSave twoSaves := by
  have htexts : manifestText oneSave = manifestText twoSaves := by decide +kernel
  refine ⟨⟨"psx", by decide, by decide +kernel⟩, ⟨"psx", by decide, by decide +kernel⟩,
    by decide +kernel, by decide +kernel, fun sha256 => ?_, fun hsame => ?_⟩
  · exact sameDigest_of_text (by decide +kernel) (by decide +kernel) htexts
  · have hin := (hsame (saveAt "psx/a" 5 'a')).mpr List.mem_cons_self
    exact absurd (List.mem_singleton.mp hin) (by decide +kernel)

end RomCloud.SaveSync.Commit
