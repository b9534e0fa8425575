import RomCloud.Lib.Dict
import Mathlib.Data.Finset.Lattice.Basic
import Mathlib.Data.Finset.Insert
import Mathlib.Data.String.Basic

namespace RomCloud.SaveSync

open RomCloud.Lib

/-!
# Save artifacts, manifests and the selection policy

The data every SaveSync operation is about (`core/models/savesync.py`, `core/save_selection.py`).
A **manifest** is the dictionary `{artifact.relative_path: artifact}` the scanners and the
durable state produce.  That each artifact is filed under its own relative path is a field of
`Manifest`, so a plan built from manifests never has to ask for it again.

The policy is arbitrary: `groupForPath` is any assignment of a group descriptor to a path, and
the layouts are any list.  Nothing below depends on the concrete registry.
-/

/-- A path relative to the save root, with `/` between its components. -/
abbrev Path := String

/-- The identity of a conflict group, `<layout>/<key>` in the shipped registry. -/
abbrev GroupId := String

/-- The identity of a save layout. -/
abbrev LayoutId := String

/-- One selected save file, identified by its path relative to the save root. -/
structure SaveArtifact where
  relativePath : Path
  sizeBytes : ℕ
  contentHash : String
deriving DecidableEq, Repr

/-- A manifest: artifacts filed under their relative paths. -/
structure Manifest where
  files : Dict Path SaveArtifact
  keyed : ∀ p a, files.get? p = some a → a.relativePath = p
deriving DecidableEq

namespace Manifest

/-- The artifact at a path. -/
def get? (m : Manifest) (p : Path) : Option SaveArtifact := m.files.get? p

/-- The paths of a manifest, sorted. -/
def paths (m : Manifest) : List Path := m.files.keys

/-- The artifacts of a manifest, in the order of their paths. -/
def artifacts (m : Manifest) : List SaveArtifact := m.files.values

/-- The manifest without files. -/
def empty : Manifest := ⟨∅, fun p a h => absurd h (by simp)⟩

instance : EmptyCollection Manifest := ⟨empty⟩

instance : Inhabited Manifest := ⟨empty⟩

@[simp] theorem get?_empty (p : Path) : (∅ : Manifest).get? p = none := rfl

theorem relativePath_of_get? {m : Manifest} {p : Path} {a : SaveArtifact}
    (h : m.get? p = some a) : a.relativePath = p := m.keyed p a h

theorem mem_paths_iff (m : Manifest) (p : Path) : p ∈ m.paths ↔ ∃ a, m.get? p = some a :=
  m.files.mem_keys_iff p

theorem get?_eq_none_iff (m : Manifest) (p : Path) : m.get? p = none ↔ p ∉ m.paths :=
  m.files.get?_eq_none_iff p

theorem get?_of_mem_artifacts (m : Manifest) {a : SaveArtifact} (h : a ∈ m.artifacts) :
    m.get? a.relativePath = some a := by
  obtain ⟨⟨p, b⟩, hmem, rfl⟩ := List.mem_map.mp h
  have hget : m.get? p = some b := (m.files.get?_eq_some_iff p b).mpr hmem
  rwa [← relativePath_of_get? hget] at hget

theorem mem_artifacts_of_get? {m : Manifest} {p : Path} {a : SaveArtifact}
    (h : m.get? p = some a) : a ∈ m.artifacts :=
  List.mem_map.mpr ⟨(p, a), (m.files.get?_eq_some_iff p a).mp h, rfl⟩

theorem ext_get? {m n : Manifest} (h : ∀ p, m.get? p = n.get? p) : m = n := by
  obtain ⟨d, hd⟩ := m
  obtain ⟨e, he⟩ := n
  have hde : d = e := Dict.ext_get? h
  cases hde
  rfl

/-- `_assign`: set a path to an artifact of that path, or remove it when there is none. -/
def assign (m : Manifest) (p : Path) (o : Option SaveArtifact)
    (ho : ∀ a, o = some a → a.relativePath = p) : Manifest where
  files := m.files.assign p o
  keyed := by
    intro q a h
    rw [Dict.get?_assign] at h
    split at h
    · next hq => rw [hq]; exact ho a h
    · exact m.keyed q a h

@[simp] theorem get?_assign (m : Manifest) (p : Path) (o : Option SaveArtifact)
    (ho : ∀ a, o = some a → a.relativePath = p) (q : Path) :
    (m.assign p o ho).get? q = if q = p then o else m.get? q :=
  Dict.get?_assign ..

/-- The files whose path satisfies `keep`. -/
def restrict (m : Manifest) (keep : Path → Bool) : Manifest where
  files := m.files.restrict keep
  keyed := by
    intro q a h
    rw [Dict.get?_restrict] at h
    split at h
    · exact m.keyed q a h
    · exact absurd h (by simp)

@[simp] theorem get?_restrict (m : Manifest) (keep : Path → Bool) (q : Path) :
    (m.restrict keep).get? q = if keep q then m.get? q else none :=
  Dict.get?_restrict ..

/-- `m` overridden by the files of `n`. -/
def update (m n : Manifest) : Manifest where
  files := m.files.update n.files
  keyed := by
    intro q a h
    rw [Dict.get?_update] at h
    cases hn : n.files.get? q with
    | none =>
      rw [hn, Option.none_or] at h
      exact m.keyed q a h
    | some b =>
      rw [hn, Option.some_or, Option.some.injEq] at h
      exact n.keyed q a (h ▸ hn)

@[simp] theorem get?_update (m n : Manifest) (q : Path) :
    (m.update n).get? q = (n.get? q).or (m.get? q) :=
  Dict.get?_update ..

/-- The dictionary comprehension `{artifact.relative_path: artifact for artifact in values}`. -/
def ofArtifacts (values : List SaveArtifact) : Manifest :=
  values.foldl
    (fun m a => m.assign a.relativePath (some a) (fun _ h => by rw [← Option.some.inj h])) ∅

/-- Whatever the comprehension files was one of its values. -/
theorem mem_of_get?_ofArtifacts {values : List SaveArtifact} {p : Path} {a : SaveArtifact}
    (h : (ofArtifacts values).get? p = some a) : a ∈ values := by
  induction values using List.reverseRecOn with
  | nil => exact absurd h (by simp [ofArtifacts])
  | append_singleton values b ih =>
    rw [ofArtifacts, List.foldl_append, List.foldl_cons, List.foldl_nil, get?_assign] at h
    split at h
    · rw [← Option.some.inj h]
      exact List.mem_append_right _ (List.mem_singleton_self b)
    · exact List.mem_append_left _ (ih h)

/-- The comprehension over the artifacts of a manifest, in any order, makes this manifest. -/
theorem get?_ofArtifacts_of_mem_iff {values : List SaveArtifact} {m : Manifest}
    (h : ∀ a, a ∈ values ↔ m.get? a.relativePath = some a) (p : Path) :
    (ofArtifacts values).get? p = m.get? p := by
  have hfound : ∀ (part : List SaveArtifact) a, a ∈ part →
      ∃ b, (ofArtifacts part).get? a.relativePath = some b := by
    intro part a ha
    induction part using List.reverseRecOn with
    | nil => exact absurd ha (by simp)
    | append_singleton part b ih =>
      rw [ofArtifacts, List.foldl_append, List.foldl_cons, List.foldl_nil, get?_assign]
      split
      · exact ⟨b, rfl⟩
      · next hne =>
        rcases List.mem_append.mp ha with hin | hlast
        · exact ih hin
        · exact absurd (congrArg SaveArtifact.relativePath (List.mem_singleton.mp hlast)) hne
  have hsound : ∀ a, (ofArtifacts values).get? p = some a → m.get? p = some a := by
    intro a ha
    rw [← relativePath_of_get? ha]
    exact (h a).mp (mem_of_get?_ofArtifacts ha)
  cases hm : m.get? p with
  | none =>
    cases hget : (ofArtifacts values).get? p with
    | none => rfl
    | some a => exact absurd (hm.symm.trans (hsound a hget)) (by simp)
  | some a =>
    have hpath : a.relativePath = p := relativePath_of_get? hm
    obtain ⟨b, hb⟩ := hfound values a ((h a).mpr (hpath ▸ hm))
    rw [hpath] at hb
    rw [hb, ← hsound b hb, hm]

end Manifest

/-- The result of scanning one side. -/
structure ScanReport where
  artifacts : Manifest
  excludedFiles : ℕ
  excludedBytes : ℕ
  optionalGroups : List (String × ℕ × ℕ)

/-! ### The selection policy -/

/-- Stable conflict and dirty-state identity for one supported path. -/
structure SaveGroupDescriptor where
  groupId : GroupId
  layoutId : LayoutId
  system : String
  containerId : String
  containerAdapterId : String
  containerKind : String
deriving DecidableEq, Repr

/-- One save layout of the registry. -/
structure SaveLayout where
  layoutId : LayoutId
  system : String
  requiresOptIn : Bool
  groupBy : String
  containerAdapterId : String
deriving DecidableEq, Repr

/-- The registry of layouts and the matcher from paths to groups. -/
structure SaveSelectionPolicy where
  layouts : List SaveLayout
  groupForPath : Path → Option SaveGroupDescriptor

/-- `_group_id`: the group of a path.  A path no layout supports any more is a group of its
    own. -/
def groupId (policy : SaveSelectionPolicy) (path : Path) : GroupId :=
  match policy.groupForPath path with
  | none => "unsupported:" ++ path
  | some descriptor => descriptor.groupId

/-- `_group_manifest`: the artifacts of a manifest at the given paths. -/
def groupManifest (manifest : Manifest) (paths : List Path) : List SaveArtifact :=
  paths.filterMap manifest.get?

theorem mem_groupManifest_iff (m : Manifest) (ps : List Path) (a : SaveArtifact) :
    a ∈ groupManifest m ps ↔ ∃ p ∈ ps, m.get? p = some a := by
  rw [groupManifest, List.mem_filterMap]

/-- **Group equality is equality at every path.** Artifacts carry their paths, so two group
    manifests over the same paths are equal only when the manifests agree at each of them. -/
theorem groupManifest_eq_iff (m n : Manifest) (ps : List Path) :
    groupManifest m ps = groupManifest n ps ↔ ∀ p ∈ ps, m.get? p = n.get? p := by
  constructor
  · intro h p hp
    have htransfer : ∀ (m n : Manifest), groupManifest m ps = groupManifest n ps →
        ∀ a, m.get? p = some a → n.get? p = some a := by
      intro m n hmn a ha
      have hmem : a ∈ groupManifest n ps :=
        hmn ▸ (mem_groupManifest_iff m ps a).mpr ⟨p, hp, ha⟩
      obtain ⟨q, _, hq⟩ := (mem_groupManifest_iff n ps a).mp hmem
      have hqp : q = p :=
        (Manifest.relativePath_of_get? hq).symm.trans (Manifest.relativePath_of_get? ha)
      rwa [hqp] at hq
    apply Option.ext
    intro a
    exact ⟨htransfer m n h a, htransfer n m h.symm a⟩
  · intro h
    exact List.filterMap_congr h

end RomCloud.SaveSync
