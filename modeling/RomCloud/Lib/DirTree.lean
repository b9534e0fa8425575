import Mathlib.Data.List.Lex
import Mathlib.Data.String.Basic
import RomCloud.Lib.Dict

namespace RomCloud.Lib

/-!
# Directory trees by components

A directory tree as the nodes at the paths of a file system.  A path is the list of its components,
so a path is below another if it starts with it.

* `DirTree.exists`, `DirTree.isDir`, `DirTree.isSymlink` — what `pathlib` says of a path;
* `DirTree.rmtree`, `DirTree.unlink` — removing a directory with what is below it, and a file;
* `DirTree.size` — the bytes of the files at or below a path;
* `Shrunk` — a tree that lost nodes at or below some paths, and nothing else.

A symbolic link is a node of its own: nothing is below one, and it is known what it leads to.
-/

/-- An absolute path, as its components. -/
abbrev FsPath := List String

/-- What a symbolic link leads to. -/
inductive LinkTarget
  | missing
  | file (size : ℕ)
  | directory
deriving DecidableEq

inductive DirNode
  | file (size : ℕ)
  | directory
  | symlink (target : LinkTarget)
deriving DecidableEq

/-- The nodes of a file system. -/
abbrev DirTree := Dict FsPath DirNode

namespace DirTree

/-- `path.exists()`, which follows links. -/
def «exists» (t : DirTree) (p : FsPath) : Bool :=
  match t.get? p with
  | none => false
  | some (.symlink .missing) => false
  | some _ => true

/-- `path.is_dir()`, which follows links. -/
def isDir (t : DirTree) (p : FsPath) : Bool :=
  match t.get? p with
  | some .directory => true
  | some (.symlink .directory) => true
  | _ => false

/-- `path.is_symlink()`. -/
def isSymlink (t : DirTree) (p : FsPath) : Bool :=
  match t.get? p with
  | some (.symlink _) => true
  | _ => false

/-- `shutil.rmtree`. -/
def rmtree (t : DirTree) (p : FsPath) : DirTree := t.restrict (fun x => !p.isPrefixOf x)

/-- `path.unlink()`. -/
def unlink (t : DirTree) (p : FsPath) : DirTree := t.erase p

/-- The bytes of a node. -/
def nodeSize : DirNode → ℕ
  | .file size => size
  | .symlink (.file size) => size
  | _ => 0

/-- The bytes of the files at or below a path. -/
def size (t : DirTree) (p : FsPath) : ℕ :=
  (t.restrict (fun x => p.isPrefixOf x)).values.foldr (fun node total => nodeSize node + total) 0

theorem get?_rmtree (t : DirTree) (p x : FsPath) :
    (t.rmtree p).get? x = if p <+: x then none else t.get? x := by
  unfold rmtree
  rw [Dict.get?_restrict]
  by_cases h : p <+: x
  · simp [h]
  · simp [h]

theorem get?_unlink (t : DirTree) (p x : FsPath) :
    (t.unlink p).get? x = if x = p then none else t.get? x := by
  unfold unlink
  rw [Dict.get?_erase]
  by_cases h : x = p
  · simp [h]
  · simp [h]

theorem exists_of_isDir {t : DirTree} {p : FsPath} (h : t.isDir p = true) : t.exists p = true := by
  unfold isDir at h
  unfold DirTree.exists
  split at h
  · next hnode => rw [hnode]
  · next hnode => rw [hnode]
  · exact absurd h (by simp)

/-- The size of a path only depends on what is at or below it. -/
theorem size_congr {t t' : DirTree} {p : FsPath} (h : ∀ x, p <+: x → t'.get? x = t.get? x) :
    t'.size p = t.size p := by
  have hsame : t'.restrict (fun x => p.isPrefixOf x) = t.restrict (fun x => p.isPrefixOf x) := by
    refine Dict.ext_get? fun x => ?_
    rw [Dict.get?_restrict, Dict.get?_restrict]
    by_cases hx : p <+: x
    · simp [hx, h x hx]
    · simp [hx]
  unfold size
  rw [hsame]

theorem exists_congr {t t' : DirTree} {p : FsPath} (h : t'.get? p = t.get? p) :
    t'.exists p = t.exists p := by
  simp only [DirTree.exists, h]

theorem isDir_congr {t t' : DirTree} {p : FsPath} (h : t'.get? p = t.get? p) :
    t'.isDir p = t.isDir p := by
  simp only [isDir, h]

theorem isSymlink_congr {t t' : DirTree} {p : FsPath} (h : t'.get? p = t.get? p) :
    t'.isSymlink p = t.isSymlink p := by
  simp only [isSymlink, h]

end DirTree

/-! ### Trees that lost nodes -/

/-- A tree that lost nodes at or below doomed paths, and is otherwise the same. -/
def Shrunk (Doomed : FsPath → Prop) (t t' : DirTree) : Prop :=
  ∀ x, t'.get? x = t.get? x ∨ t'.get? x = none ∧ ∃ p, Doomed p ∧ p <+: x

namespace Shrunk

variable {Doomed : FsPath → Prop} {t t' t'' : DirTree}

theorem refl (t : DirTree) : Shrunk Doomed t t := fun _ => Or.inl rfl

theorem trans (h : Shrunk Doomed t t') (h' : Shrunk Doomed t' t'') : Shrunk Doomed t t'' := by
  intro x
  rcases h' x with hsame | hgone
  · rw [hsame]
    exact h x
  · exact Or.inr hgone

theorem rmtree (t : DirTree) {p : FsPath} (h : Doomed p) : Shrunk Doomed t (t.rmtree p) := by
  intro x
  rw [DirTree.get?_rmtree]
  by_cases hx : p <+: x
  · rw [if_pos hx]
    exact Or.inr ⟨rfl, p, h, hx⟩
  · rw [if_neg hx]
    exact Or.inl rfl

theorem unlink (t : DirTree) {p : FsPath} (h : Doomed p) : Shrunk Doomed t (t.unlink p) := by
  intro x
  rw [DirTree.get?_unlink]
  by_cases hx : x = p
  · rw [if_pos hx]
    exact Or.inr ⟨rfl, p, h, hx ▸ List.prefix_rfl⟩
  · rw [if_neg hx]
    exact Or.inl rfl

/-- What is there afterwards was there before. -/
theorem of_exists (h : Shrunk Doomed t t') {p : FsPath} (hp : t'.exists p = true) :
    t'.get? p = t.get? p := by
  rcases h p with hsame | hgone
  · exact hsame
  · simp [DirTree.exists, hgone.1] at hp

/-- What is missing stays missing. -/
theorem not_exists (h : Shrunk Doomed t t') {p : FsPath} (hp : t.exists p = false) :
    t'.exists p = false := by
  rcases h p with hsame | hgone
  · rw [DirTree.exists_congr hsame]
    exact hp
  · simp [DirTree.exists, hgone.1]

/-- A node that is safe from the doomed paths stays. -/
theorem get?_of_safe (h : Shrunk Doomed t t') {x : FsPath}
    (hsafe : ∀ p, Doomed p → p <+: x → t.get? x = none) : t'.get? x = t.get? x := by
  rcases h x with hsame | ⟨hgone, p, hp, hbelow⟩
  · exact hsame
  · rw [hgone, hsafe p hp hbelow]

/-- So do the nodes above it. -/
theorem get?_above_of_safe (h : Shrunk Doomed t t') {p x : FsPath} (hbelow : p <+: x)
    (hexists : t.exists x = true) (hsafe : ∀ q, Doomed q → q <+: x → t.get? x = none) :
    t'.get? p = t.get? p := by
  apply h.get?_of_safe
  intro q hq hqp
  have hnone := hsafe q hq (hqp.trans hbelow)
  simp [DirTree.exists, hnone] at hexists

/-- What goes missing is at or below a doomed path. -/
theorem doomed_of_vanished (h : Shrunk Doomed t t') {p : FsPath} (hp : t.exists p = true)
    (hp' : t'.exists p = false) : ∃ q, Doomed q ∧ q <+: p := by
  rcases h p with hsame | hgone
  · rw [DirTree.exists_congr hsame, hp] at hp'
    exact absurd hp' (by simp)
  · exact hgone.2

end Shrunk

end RomCloud.Lib
