import RomCloud.Lib.Dict
import Mathlib.Data.String.Basic

namespace RomCloud.Lib

/-!
# File trees

A directory tree on a file system, as the nodes under a root: files with their contents,
directories, and anything else (`Node.other`: a symbolic link, a device).  Names are relative
paths with `/` between their components.

* `ancestors` — the proper ancestor directories of a path, outermost first;
* `FileTree.mkdir`, `FileTree.unlink`, `FileTree.place` — the atomic operations, with the
  errors a file system makes of them;
* `FileTree.Open` — no ancestor of a path is anything but a directory.
-/

/-- The prefixes of `rest` (after `before`) that end right before a `/`. -/
def ancestorsAux (before : List Char) : List Char → List String
  | [] => []
  | c :: rest =>
    if c = '/' then String.ofList before.reverse :: ancestorsAux (c :: before) rest
    else ancestorsAux (c :: before) rest

/-- The proper ancestor directories of a relative path, outermost first. -/
def ancestors (path : String) : List String := ancestorsAux [] path.toList

private theorem length_lt_of_mem_ancestorsAux {before rest : List Char} {dir : String}
    (h : dir ∈ ancestorsAux before rest) :
    dir.toList.length < before.length + rest.length := by
  induction rest generalizing before with
  | nil => exact absurd h (by simp [ancestorsAux])
  | cons c rest ih =>
    unfold ancestorsAux at h
    have hrec : dir ∈ ancestorsAux (c :: before) rest →
        dir.toList.length < before.length + (c :: rest).length := by
      intro h
      have := ih h
      simp only [List.length_cons] at this ⊢
      omega
    split at h
    · rcases List.mem_cons.mp h with rfl | h
      · simp
      · exact hrec h
    · exact hrec h

/-- A path is not its own ancestor. -/
theorem not_mem_ancestors_self (path : String) : path ∉ ancestors path := by
  intro h
  have := length_lt_of_mem_ancestorsAux h
  simp at this

example : ancestors "snes/zelda/1.srm" = ["snes", "snes/zelda"] := by decide

/-- What stands at a name of a tree. -/
inductive Node (γ : Type)
  | file (content : γ)
  | directory
  | other
deriving DecidableEq

/-- The nodes under a root. -/
abbrev FileTree (γ : Type) := Dict String (Node γ)

namespace FileTree

variable {γ : Type}

/-- No ancestor of the path is anything but a directory (or missing). -/
def Open (t : FileTree γ) (path : String) : Prop :=
  ∀ dir ∈ ancestors path, t.get? dir = none ∨ t.get? dir = some .directory

instance [DecidableEq γ] (t : FileTree γ) (path : String) : Decidable (t.Open path) :=
  inferInstanceAs (Decidable (∀ dir ∈ ancestors path, _))

/-- Every ancestor of the path is a directory. -/
def HasParents (t : FileTree γ) (path : String) : Prop :=
  ∀ dir ∈ ancestors path, t.get? dir = some .directory

instance [DecidableEq γ] (t : FileTree γ) (path : String) : Decidable (t.HasParents path) :=
  inferInstanceAs (Decidable (∀ dir ∈ ancestors path, _))

/-- `mkdir(exist_ok=True)`; it fails on anything that is not a directory. -/
def mkdir (t : FileTree γ) (dir : String) : Option (FileTree γ) :=
  match t.get? dir with
  | none => some (t.insert dir .directory)
  | some .directory => some t
  | some _ => none

/-- `unlink(missing_ok=True)`; it fails on a directory. -/
def unlink (t : FileTree γ) (path : String) : Option (FileTree γ) :=
  match t.get? path with
  | some .directory => none
  | _ => some (t.erase path)

/-- Rename a file of the given content onto the path; it fails on a directory, and without a
    parent directory. -/
def place [DecidableEq γ] (t : FileTree γ) (path : String) (content : γ) : Option (FileTree γ) :=
  if t.get? path ≠ some .directory ∧ t.HasParents path then
    some (t.insert path (.file content))
  else none

/-- The names of the files of a tree, and of what is not a directory either. -/
def fileNames (t : FileTree γ) : List String :=
  (t.entries.filter (fun e => match e.2 with | .directory => false | _ => true)).map Prod.fst

theorem get?_mkdir {t t' : FileTree γ} {dir : String} (h : t.mkdir dir = some t') (p : String) :
    t'.get? p = if p = dir then some .directory else t.get? p := by
  unfold mkdir at h
  split at h
  · cases h
    rw [Dict.get?_insert]
  · next hdir =>
    cases h
    split
    · next hp => rw [hp, hdir]
    · rfl
  · exact absurd h (by simp)

/-- Making a directory where an open path needs one does not fail. -/
theorem mkdir_of_open {t : FileTree γ} {dir : String}
    (h : t.get? dir = none ∨ t.get? dir = some .directory) : ∃ t', t.mkdir dir = some t' := by
  unfold mkdir
  rcases h with h | h
  · exact ⟨_, by rw [h]⟩
  · exact ⟨_, by rw [h]⟩

theorem get?_unlink {t t' : FileTree γ} {path : String} (h : t.unlink path = some t')
    (p : String) : t'.get? p = if p = path then none else t.get? p := by
  unfold unlink at h
  split at h
  · exact absurd h (by simp)
  · cases h
    rw [Dict.get?_erase]

theorem unlink_of_ne_directory {t : FileTree γ} {path : String}
    (h : t.get? path ≠ some .directory) : t.unlink path = some (t.erase path) := by
  unfold unlink
  split
  · next hdir => exact absurd hdir h
  · rfl

theorem get?_place [DecidableEq γ] {t t' : FileTree γ} {path : String} {content : γ}
    (h : t.place path content = some t') (p : String) :
    t'.get? p = if p = path then some (.file content) else t.get? p := by
  unfold place at h
  split at h
  · cases h
    rw [Dict.get?_insert]
  · exact absurd h (by simp)

theorem place_of_hasParents [DecidableEq γ] {t : FileTree γ} {path : String} (content : γ)
    (hdir : t.get? path ≠ some .directory) (hpar : t.HasParents path) :
    t.place path content = some (t.insert path (.file content)) := by
  unfold place
  rw [if_pos ⟨hdir, hpar⟩]

theorem HasParents.isOpen {t : FileTree γ} {path : String} (h : t.HasParents path) :
    t.Open path :=
  fun dir hdir => Or.inr (h dir hdir)

/-- A change at a name that is no ancestor of an open path leaves it open. -/
theorem Open.of_eq_off {t t' : FileTree γ} {path changed : String} (h : t.Open path)
    (hoff : ∀ p, p ≠ changed → t'.get? p = t.get? p) (hnot : changed ∉ ancestors path) :
    t'.Open path := by
  intro dir hdir
  rw [hoff dir (fun heq => hnot (heq ▸ hdir))]
  exact h dir hdir

/-- A new directory keeps open paths open. -/
theorem Open.mkdir {t t' : FileTree γ} {path dir : String} (h : t.Open path)
    (hmk : t.mkdir dir = some t') : t'.Open path := by
  intro d hd
  rw [get?_mkdir hmk]
  split
  · exact Or.inr rfl
  · exact h d hd

end FileTree

end RomCloud.Lib
