import RomCloud.Cache.CacheState
import RomCloud.Lib.Reach
import RomCloud.Library.Identity

namespace RomCloud.Cache

open RomCloud.Lib
open RomCloud.Library (forwardSlashes rootSlashes purePathParts joinParts normpath)

/-!
# The dependencies of a game

`DependencyResolverRegistry.resolve` goes through the descriptors of a game, depth first, and lists
every asset once.

* `validateCatalogPath`, `resolveReference` — the normal form of a path, and of a reference;
* `sourceEntry` — the entry of a path in the listing of its parent;
* `arrive` — what a visit finds at a path, before its references are followed;
* `walk` — the recursion, with the number of levels it may still go down;
* `Exists`, `Refers` — the tree and the graph of the references;
* `normal_of_validate` — a validated path is in normal form, and validated it stays as it is.
-/

/-! ### What is resolved -/

/-- An entry of a directory of the source. -/
structure RemoteEntry where
  relativePath : String
  isDirectory : Bool
  isSymlink : Bool
  sizeBytes : Option ℕ
deriving DecidableEq

structure DependencyReference where
  path : String
  required : Bool
deriving DecidableEq

/-- What `resolve` raises. -/
inductive DependencyError
  | noPrimaryAsset (gameId : String)
  | cycle (chain : List String)
  | countExceeded (limit : ℕ)
  | unsafePath (system relativePath : String)
  | absoluteReference (descriptor reference : String)
  | escapes (system descriptor reference : String)
  | cannotInspect (parent message : String)
  | missing (relativePath : String)
  | symlink (relativePath : String)
  | descriptorIsDirectory (relativePath : String)
  | recursionExceeded (limit : ℕ) (relativePath : String)
  | descriptorTooLarge (limit : ℕ) (relativePath : String)
  | cannotRead (relativePath message : String)
  | malformed (message : String)
  | provider (message : String)
deriving DecidableEq

/-- The references in the text of a descriptor, or what is wrong with it. -/
abbrev Resolver := String → String → Except String (List DependencyReference)

/-- What the provider answers for a directory or a file below a source root.  The tree does not
    change while a game is resolved. -/
structure StorageProvider where
  listEntries : String → String → Except String (List RemoteEntry)
  getSize : String → String → Except String (Option ℕ)
  readText : String → String → Except String String

/-- The registry.  `lower` is the string method of the same name, with the tables of Unicode. -/
structure DependencyResolverRegistry where
  provider : StorageProvider
  sourceRoot : Option String
  resolvers : List (String × Resolver)
  lower : String → String
  maxDepth : ℕ
  maxDependencies : ℕ
  maxDescriptorBytes : ℕ

/-! ### Paths -/

/-- `_validate_catalog_path`. -/
def validateCatalogPath (system relativePath : String) : Except DependencyError String :=
  let normalized := forwardSlashes relativePath
  let parts := purePathParts normalized
  if rootSlashes normalized ≠ "" ∨ parts = [] ∨ parts.head? ≠ some system
      ∨ parts.any (fun part => ["", ".", ".."].contains part) then
    .error (.unsafePath system relativePath)
  else .ok (joinParts parts)

/-- `posixpath.dirname`. -/
def dirname (path : String) : String :=
  let head := (path.toList.reverse.dropWhile (· ≠ '/')).reverse
  if head.all (· = '/') then String.ofList head
  else String.ofList (head.reverse.dropWhile (· = '/')).reverse

/-- `posixpath.join`. -/
def posixJoin (directory path : String) : String :=
  if path.toList.head? = some '/' then path
  else if directory = "" ∨ directory.toList.getLast? = some '/' then directory ++ path
  else directory ++ "/" ++ path

/-- A Windows path with a drive.  One with a share begins with two slashes. -/
def hasDrive (path : String) : Bool := path.toList[1]? = some ':'

/-- `_resolve_reference`. -/
def resolveReference (descriptor reference system : String) : Except DependencyError String :=
  let raw := forwardSlashes (strip reference)
  if raw = "" ∨ raw.toList.head? = some '/' ∨ raw.toList.head? = some '~'
      ∨ hasDrive (strip reference) ∨ "://".toList <:+: raw.toList then
    .error (.absoluteReference descriptor reference)
  else
    let candidate := normpath (posixJoin (dirname descriptor) raw)
    let parts := purePathParts candidate
    if parts = [] ∨ parts.head? ≠ some system ∨ ".." ∈ parts then
      .error (.escapes system descriptor reference)
    else .ok (joinParts parts)

/-- `PurePosixPath(path).parent.as_posix()`. -/
def parentPath (path : String) : String := joinParts (purePathParts path).dropLast

/-- `PurePosixPath(path).suffix`. -/
def pathSuffix (path : String) : String :=
  let name := (pathName path).toList
  let ending := (name.reverse.takeWhile (· ≠ '.')).reverse
  if ending = [] ∨ name.length ≤ ending.length + 1 then "" else String.ofList ('.' :: ending)

/-! ### A visit -/

/-- The arguments of `walk`. -/
structure Visit where
  relativePath : String
  isPrimary : Bool
  ancestry : List String
  known : Option GameAsset
  required : Bool

/-- What a visit finds: nothing to add, an asset, or a descriptor with its references. -/
inductive Arrival
  | settled
  | leaf (asset : GameAsset)
  | descriptor (asset : GameAsset) (references : List DependencyReference)

/-- The paths of the assets that were found. -/
def assetPaths (assets : List GameAsset) : List String := assets.map GameAsset.relativePath

namespace DependencyResolverRegistry

variable (registry : DependencyResolverRegistry) (root system : String)

/-- The resolver of a path. -/
def resolverOf (path : String) : Option Resolver :=
  registry.resolvers.lookup (registry.lower (pathSuffix path))

/-- `_source_entry`. -/
def sourceEntry (path : String) (required : Bool) :
    Except DependencyError (Option RemoteEntry) :=
  match registry.provider.listEntries root (parentPath path) with
  | .error message => .error (.cannotInspect (parentPath path) message)
  | .ok entries =>
    match entries.find? (fun item => item.relativePath = path) with
    | none => if required then .error (.missing path) else .ok none
    | some entry => if entry.isSymlink then .error (.symlink path) else .ok (some entry)

/-- The size of an entry, as far as it can be found out. -/
def sourceSize (path : String) (known : Option GameAsset) (entry : RemoteEntry) :
    Except DependencyError (Option ℕ) :=
  let first := if (registry.resolverOf path).isSome then entry.sizeBytes
    else known.bind GameAsset.sizeBytes
  match first.or entry.sizeBytes with
  | some size => .ok (some size)
  | none =>
    match registry.provider.getSize root path with
    | .error message => .error (.provider message)
    | .ok size => .ok size

/-- The references in a descriptor. -/
def descriptorReferences (exceeded : Bool) (path : String) (entry : RemoteEntry)
    (size : Option ℕ) (resolver : Resolver) :
    Except DependencyError (List DependencyReference) :=
  if entry.isDirectory then .error (.descriptorIsDirectory path)
  else if exceeded then .error (.recursionExceeded registry.maxDepth path)
  else if size.any (fun bytes => registry.maxDescriptorBytes < bytes) then
    .error (.descriptorTooLarge registry.maxDescriptorBytes path)
  else
    match registry.provider.readText root path with
    | .error message => .error (.cannotRead path message)
    | .ok text =>
      match resolver path text with
      | .error message => .error (.malformed message)
      | .ok references => .ok references

/-- The body of `walk`, up to the loop over the references. -/
def arrive (primaryPath : String) (exceeded : Bool) (visit : Visit) (assets : List GameAsset) :
    Except DependencyError Arrival := do
  let normalized ← validateCatalogPath system visit.relativePath
  if normalized ∈ visit.ancestry then .error (.cycle (visit.ancestry ++ [normalized]))
  else if normalized ∈ assetPaths assets then .ok .settled
  else if normalized ≠ primaryPath ∧ registry.maxDependencies + 1 ≤ assets.length then
    .error (.countExceeded registry.maxDependencies)
  else
    match ← registry.sourceEntry root normalized visit.required with
    | none => .ok .settled
    | some entry => do
      let size ← registry.sourceSize root normalized visit.known entry
      let asset : GameAsset :=
        { filename := pathName normalized
          relativePath := normalized
          sizeBytes := size.or (visit.known.bind GameAsset.sizeBytes)
          isPrimary := visit.isPrimary }
      match registry.resolverOf normalized with
      | none => .ok (.leaf asset)
      | some resolver => do
        let references ← registry.descriptorReferences root exceeded normalized entry size resolver
        .ok (.descriptor asset references)

/-- One turn of the loop over the references of a descriptor. -/
def follow (descend : Visit → List GameAsset → Except DependencyError (List GameAsset))
    (descriptor : String) (ancestry : List String) (assets : List GameAsset)
    (reference : DependencyReference) : Except DependencyError (List GameAsset) := do
  let child ← resolveReference descriptor reference.path system
  descend ⟨child, false, ancestry ++ [descriptor], none, reference.required⟩ assets

/-- A visit: what is found is added, and the references of a descriptor are followed. -/
def walkStep (primaryPath : String) (exceeded : Bool)
    (descend : Visit → List GameAsset → Except DependencyError (List GameAsset))
    (visit : Visit) (assets : List GameAsset) : Except DependencyError (List GameAsset) := do
  match ← registry.arrive root system primaryPath exceeded visit assets with
  | .settled => .ok assets
  | .leaf asset => .ok (assets ++ [asset])
  | .descriptor asset references =>
    references.foldlM (follow system descend asset.relativePath visit.ancestry)
      (assets ++ [asset])

/-- `walk`, with `max_depth - depth` levels left.  On the last level no descriptor is followed. -/
def walk (primaryPath : String) :
    ℕ → Visit → List GameAsset → Except DependencyError (List GameAsset)
  | 0 => registry.walkStep root system primaryPath true (fun _ assets => .ok assets)
  | left + 1 => registry.walkStep root system primaryPath false (walk primaryPath left)

/-- A catalog asset, from the loop of `resolve` that keeps the companions. -/
def walkCatalog (primaryPath : String) (assets : List GameAsset) (catalogAsset : GameAsset) :
    Except DependencyError (List GameAsset) :=
  if catalogAsset.relativePath ∈ assetPaths assets then .ok assets
  else registry.walk root system primaryPath registry.maxDepth
    ⟨catalogAsset.relativePath, false, [], some catalogAsset, true⟩ assets

/-- `self._source_root or game.source_root`. -/
def rootOf (gameRoot : String) : String :=
  match registry.sourceRoot with
  | some sourceRoot => if sourceRoot = "" then gameRoot else sourceRoot
  | none => gameRoot

/-- `resolve`.  The source root of the game is given beside it. -/
def resolve (gameRoot : String) (game : Game) : Except DependencyError Game :=
  match game.primaryAsset with
  | none => .error (.noPrimaryAsset game.id)
  | some primary => do
    let root := registry.rootOf gameRoot
    let assets ← registry.walk root game.system primary.relativePath registry.maxDepth
      ⟨primary.relativePath, true, [], some primary, true⟩ []
    let assets ← game.assets.foldlM
      (registry.walkCatalog root game.system primary.relativePath) assets
    .ok { game with assets := assets }

/-! ### The tree and the graph -/

/-- The entry of a path in the source. -/
def entryOf (path : String) : Option RemoteEntry :=
  match registry.provider.listEntries root (parentPath path) with
  | .error _ => none
  | .ok entries => entries.find? (fun item => item.relativePath = path)

/-- A path with an entry in the source. -/
def Exists (path : String) : Prop := (registry.entryOf root path).isSome

/-- A reference in a descriptor of the source. -/
def References (descriptor : String) (reference : DependencyReference) : Prop :=
  registry.Exists root descriptor ∧ ∃ resolver text references,
    registry.resolverOf descriptor = some resolver ∧
    registry.provider.readText root descriptor = .ok text ∧
    resolver descriptor text = .ok references ∧ reference ∈ references

end DependencyResolverRegistry

/-- The path that a reference leads to. -/
def targetOf (system descriptor : String) (reference : DependencyReference) :
    Except DependencyError String :=
  resolveReference descriptor reference.path system >>= validateCatalogPath system

namespace DependencyResolverRegistry

variable (registry : DependencyResolverRegistry) (root system : String)

/-- A descriptor refers to what it requires, and to what it may use and is there. -/
def Refers (descriptor path : String) : Prop :=
  ∃ reference, registry.References root descriptor reference ∧
    targetOf system descriptor reference = .ok path ∧
    (reference.required = true ∨ registry.Exists root path)

end DependencyResolverRegistry

/-- The normal forms of the primary and of the catalog assets. -/
def catalogPaths (game : Game) : Set String :=
  {path | ∃ asset ∈ game.assets, validateCatalogPath game.system asset.relativePath = .ok path}

/-- A path in normal form that lies in a system. -/
def Normal (system path : String) : Prop :=
  ∃ below, path = "/".intercalate (system :: below) ∧
    ∀ part ∈ system :: below, part ≠ "" ∧ part ≠ "." ∧ part ≠ ".." ∧ '/' ∉ part.toList
      ∧ '\\' ∉ part.toList

/-! ### Normal forms -/

theorem forwardSlashes_eq_self {path : String} (h : '\\' ∉ path.toList) :
    forwardSlashes path = path := by
  have hmap : (path.toList.map fun c => if c = '\\' then '/' else c) = path.toList := by
    refine (List.map_congr_left ?_).trans (List.map_id _)
    intro c hc
    have hne : c ≠ '\\' := fun heq => h (heq ▸ hc)
    rw [if_neg hne, id]
  rw [forwardSlashes, hmap, String.ofList_toList]

theorem backslash_forwardSlashes (path : String) : '\\' ∉ (forwardSlashes path).toList := by
  rw [forwardSlashes, String.toList_ofList]
  intro hmem
  obtain ⟨c, -, hc⟩ := List.mem_map.mp hmem
  split at hc
  · cases hc
  · next hne => exact hne hc

theorem rootSlashes_eq_empty {path : String} (h : path.toList.head? ≠ some '/') :
    rootSlashes path = "" := by
  unfold rootSlashes
  split <;> simp_all

/-- The first component is not a root. -/
theorem joinParts_cons {first : String} (below : List String) (h : '/' ∉ first.toList) :
    joinParts (first :: below) = "/".intercalate (first :: below) := by
  rw [joinParts, if_neg]
  rintro (rfl | rfl) <;> exact h (by decide)

/-- A validated path is in normal form. -/
theorem normal_of_validate {system path normalized : String}
    (h : validateCatalogPath system path = .ok normalized) : Normal system normalized := by
  unfold validateCatalogPath at h
  dsimp only at h
  split at h
  · cases h
  · next hsafe =>
    push Not at hsafe
    obtain ⟨hroot, hne, hhead, hplain⟩ := hsafe
    have hparts : purePathParts (forwardSlashes path) = posixParts (forwardSlashes path) := by
      rw [purePathParts, if_pos hroot, List.nil_append]
    obtain ⟨below, hbelow⟩ := List.head?_eq_some_iff.mp hhead
    have hpart : ∀ part ∈ system :: below, part ≠ "" ∧ part ≠ "." ∧ part ≠ ".."
        ∧ '/' ∉ part.toList ∧ '\\' ∉ part.toList := by
      intro part hmem
      rw [← hbelow] at hmem
      have hdots : part ≠ ".." := by
        rintro rfl
        exact hplain (List.any_eq_true.mpr ⟨_, hmem, by decide⟩)
      rw [hparts] at hmem
      obtain ⟨hempty, hdot, hslash, hchars⟩ := mem_posixParts hmem
      exact ⟨hempty, hdot, hdots, hslash, fun hb => backslash_forwardSlashes path (hchars _ hb)⟩
    refine ⟨below, ?_, hpart⟩
    rw [← Except.ok.inj h, hbelow]
    exact joinParts_cons below (hpart system List.mem_cons_self).2.2.2.1

theorem mem_joined {c : Char} {parts : List String} (h : c ∈ ("/".intercalate parts).toList) :
    c = '/' ∨ ∃ part ∈ parts, c ∈ part.toList := by
  induction parts with
  | nil =>
    rw [String.intercalate_nil, String.toList_empty] at h
    exact absurd h List.not_mem_nil
  | cons part rest ih =>
    cases rest with
    | nil =>
      rw [String.intercalate_singleton] at h
      exact Or.inr ⟨part, List.mem_cons_self, h⟩
    | cons next rest =>
      rw [String.intercalate_cons_cons, String.toList_append, String.toList_append] at h
      rcases List.mem_append.mp h with h | h
      · rcases List.mem_append.mp h with h | h
        · exact Or.inr ⟨part, List.mem_cons_self, h⟩
        · exact Or.inl (List.mem_singleton.mp h)
      · refine (ih h).imp_right ?_
        rintro ⟨other, hmem, hc⟩
        exact ⟨other, List.mem_cons_of_mem part hmem, hc⟩

/-- A path in normal form is accepted, and stays as it is. -/
theorem Normal.validate {system path : String} (h : Normal system path) :
    validateCatalogPath system path = .ok path := by
  obtain ⟨below, rfl, hpart⟩ := h
  obtain ⟨hempty, -, -, hslash, -⟩ := hpart system List.mem_cons_self
  have hbackslash : '\\' ∉ ("/".intercalate (system :: below)).toList := by
    intro hmem
    rcases mem_joined hmem with heq | ⟨part, hin, hc⟩
    · exact absurd heq (by decide)
    · exact (hpart part hin).2.2.2.2 hc
  have hroot : rootSlashes ("/".intercalate (system :: below)) = "" := by
    apply rootSlashes_eq_empty
    obtain ⟨c, cs, hcs⟩ : ∃ c cs, system.toList = c :: cs := by
      refine List.exists_cons_of_ne_nil ?_
      intro hnil
      exact hempty (String.toList_eq_nil_iff.mp hnil)
    have hc : c ≠ '/' := by
      rintro rfl
      exact hslash (by rw [hcs]; exact List.mem_cons_self)
    cases below with
    | nil =>
      rw [String.intercalate_singleton, hcs]
      simpa using hc
    | cons next rest =>
      rw [String.intercalate_cons_cons, String.toList_append, String.toList_append, hcs]
      simpa using hc
  have hparts : purePathParts ("/".intercalate (system :: below)) = system :: below := by
    rw [purePathParts, if_pos hroot, List.nil_append]
    apply posixParts_intercalate
    intro part hin
    exact ⟨(hpart part hin).1, (hpart part hin).2.1, (hpart part hin).2.2.2.1⟩
  unfold validateCatalogPath
  dsimp only
  rw [forwardSlashes_eq_self hbackslash, hparts, if_neg]
  · rw [joinParts_cons below hslash]
  · rintro (hno | hno | hno | hno)
    · exact hno hroot
    · cases hno
    · exact hno rfl
    · obtain ⟨part, hin, hdots⟩ := List.any_eq_true.mp hno
      obtain ⟨hpe, hpd, hpdd, -, -⟩ := hpart part hin
      simp [hpe, hpd, hpdd] at hdots

/-! ### What is found at a path -/

namespace DependencyResolverRegistry

variable {registry : DependencyResolverRegistry} {root system primaryPath path : String}

theorem sourceEntry_eq_ok {required : Bool} {found : Option RemoteEntry}
    (h : registry.sourceEntry root path required = .ok found) :
    registry.entryOf root path = found
      ∧ (found = none → required = false) ∧ ∀ entry, found = some entry → entry.isSymlink = false := by
  unfold sourceEntry at h
  unfold entryOf
  cases hlist : registry.provider.listEntries root (parentPath path) with
  | error message => simp [hlist] at h
  | ok entries =>
    rw [hlist] at h
    dsimp only at h ⊢
    cases hentry : entries.find? (fun item => item.relativePath = path) with
    | none =>
      rw [hentry] at h
      cases required with
      | true => simp at h
      | false =>
        obtain rfl := Except.ok.inj h
        exact ⟨rfl, fun _ => rfl, nofun⟩
    | some entry =>
      rw [hentry] at h
      cases hlink : entry.isSymlink with
      | true => simp [hlink] at h
      | false =>
        simp only [hlink, Bool.false_eq_true, if_false, Except.ok.injEq] at h
        subst h
        exact ⟨rfl, nofun, fun found hfound => Option.some.inj hfound ▸ hlink⟩

/-- An asset that a visit adds. -/
structure Found (registry : DependencyResolverRegistry) (root primaryPath : String) (visit : Visit)
    (assets : List GameAsset) (asset : GameAsset) : Prop where
  fresh : asset.relativePath ∉ assetPaths assets
  counted : asset.relativePath ≠ primaryPath → assets.length ≤ registry.maxDependencies
  entry : ∃ entry, registry.entryOf root asset.relativePath = some entry ∧ entry.isSymlink = false
  primary : asset.isPrimary = visit.isPrimary

/-- What the arrivals at a path say of it. -/
inductive Arrives (registry : DependencyResolverRegistry) (root primaryPath : String)
    (exceeded : Bool) (visit : Visit) (assets : List GameAsset) (path : String) : Arrival → Prop
  | listed (h : path ∈ assetPaths assets) :
      Arrives registry root primaryPath exceeded visit assets path .settled
  | missing (h : ¬ registry.Exists root path) (hoptional : visit.required = false) :
      Arrives registry root primaryPath exceeded visit assets path .settled
  | leaf (asset : GameAsset) (hpath : asset.relativePath = path)
      (hfound : Found registry root primaryPath visit assets asset)
      (hnone : ∀ reference, ¬ registry.References root path reference) :
      Arrives registry root primaryPath exceeded visit assets path (.leaf asset)
  | descriptor (asset : GameAsset) (references : List DependencyReference)
      (hpath : asset.relativePath = path) (hlevel : exceeded = false)
      (hfound : Found registry root primaryPath visit assets asset)
      (hreferences : ∀ reference, registry.References root path reference
        ↔ reference ∈ references) :
      Arrives registry root primaryPath exceeded visit assets path (.descriptor asset references)

theorem references_of_resolver {resolver : Resolver} {text : String}
    {references : List DependencyReference} (hexists : registry.Exists root path)
    (hresolver : registry.resolverOf path = some resolver)
    (hread : registry.provider.readText root path = .ok text)
    (hparse : resolver path text = .ok references) (reference : DependencyReference) :
    registry.References root path reference ↔ reference ∈ references := by
  constructor
  · rintro ⟨-, resolver', text', references', hresolver', hread', hparse', hmem⟩
    rw [hresolver] at hresolver'
    obtain rfl := Option.some.inj hresolver'
    rw [hread] at hread'
    obtain rfl := Except.ok.inj hread'
    rw [hparse] at hparse'
    obtain rfl := Except.ok.inj hparse'
    exact hmem
  · exact fun hmem => ⟨hexists, resolver, text, references, hresolver, hread, hparse, hmem⟩

theorem descriptorReferences_eq_ok {exceeded : Bool} {entry : RemoteEntry} {size : Option ℕ}
    {resolver : Resolver} {references : List DependencyReference}
    (h : registry.descriptorReferences root exceeded path entry size resolver = .ok references) :
    exceeded = false ∧ ∃ text, registry.provider.readText root path = .ok text
      ∧ resolver path text = .ok references := by
  unfold descriptorReferences at h
  split at h
  · cases h
  split at h
  · cases h
  next hlevel =>
    split at h
    · cases h
    cases hread : registry.provider.readText root path with
    | error message => simp [hread] at h
    | ok text =>
      cases hparse : resolver path text with
      | error message => simp [hread, hparse] at h
      | ok found =>
        rw [hread] at h
        dsimp only at h
        rw [hparse] at h
        obtain rfl := Except.ok.inj h
        exact ⟨by simpa using hlevel, text, rfl, hparse⟩

/-- **What a visit finds.** -/
theorem arrive_eq_ok {exceeded : Bool} {visit : Visit} {assets : List GameAsset}
    {arrival : Arrival}
    (h : registry.arrive root system primaryPath exceeded visit assets = .ok arrival) :
    ∃ path, validateCatalogPath system visit.relativePath = .ok path ∧ path ∉ visit.ancestry
      ∧ Arrives registry root primaryPath exceeded visit assets path arrival := by
  unfold arrive at h
  obtain ⟨path, hpath, h⟩ := bind_eq_ok h
  refine ⟨path, hpath, ?_⟩
  split at h
  · cases h
  next hancestry =>
    refine ⟨hancestry, ?_⟩
    split at h
    · next hlisted =>
      obtain rfl := Except.ok.inj h
      exact .listed hlisted
    next hfresh =>
      split at h
      · cases h
      next hcount =>
        obtain ⟨found, hfound, h⟩ := bind_eq_ok h
        obtain ⟨hentry, hoptional, hlink⟩ := sourceEntry_eq_ok hfound
        cases found with
        | none =>
          obtain rfl := Except.ok.inj h
          refine .missing ?_ (hoptional rfl)
          rw [Exists, hentry]
          exact Bool.false_ne_true
        | some entry =>
          dsimp only at h
          obtain ⟨size, -, h⟩ := bind_eq_ok h
          have hadded : ∀ asset : GameAsset, asset.relativePath = path →
              asset.isPrimary = visit.isPrimary →
              Found registry root primaryPath visit assets asset := by
            rintro asset rfl hprimary
            refine ⟨hfresh, ?_, ⟨entry, hentry, hlink entry rfl⟩, hprimary⟩
            intro hne
            rw [not_and, not_le] at hcount
            exact Nat.lt_succ_iff.mp (hcount hne)
          have hexists : registry.Exists root path := by
            rw [Exists, hentry]
            rfl
          cases hresolver : registry.resolverOf path with
          | none =>
            rw [hresolver] at h
            obtain rfl := Except.ok.inj h
            refine .leaf _ rfl (hadded _ rfl rfl) ?_
            rintro reference ⟨-, resolver, -, -, hsome, -⟩
            rw [hresolver] at hsome
            cases hsome
          | some resolver =>
            rw [hresolver] at h
            obtain ⟨references, hreferences, h⟩ := bind_eq_ok h
            obtain rfl := Except.ok.inj h
            obtain ⟨hlevel, text, hread, hparse⟩ := descriptorReferences_eq_ok hreferences
            exact .descriptor _ references rfl hlevel (hadded _ rfl rfl)
              (references_of_resolver hexists hresolver hread hparse)

/-! ### Errors that are no cycle -/

theorem validateCatalogPath_ne_cycle (system path : String) (chain : List String) :
    validateCatalogPath system path ≠ .error (.cycle chain) := by
  unfold validateCatalogPath
  dsimp only
  split <;> simp

theorem resolveReference_ne_cycle (descriptor reference system : String) (chain : List String) :
    resolveReference descriptor reference system ≠ .error (.cycle chain) := by
  unfold resolveReference
  dsimp only
  split
  · simp
  · split <;> simp

theorem sourceEntry_ne_cycle (required : Bool) (chain : List String) :
    registry.sourceEntry root path required ≠ .error (.cycle chain) := by
  unfold sourceEntry
  split
  · simp
  · split
    · split <;> simp
    · split <;> simp

theorem sourceSize_ne_cycle (known : Option GameAsset) (entry : RemoteEntry)
    (chain : List String) :
    registry.sourceSize root path known entry ≠ .error (.cycle chain) := by
  unfold sourceSize
  dsimp only
  split
  · simp
  · split <;> simp

theorem descriptorReferences_ne_cycle (exceeded : Bool) (entry : RemoteEntry) (size : Option ℕ)
    (resolver : Resolver) (chain : List String) :
    registry.descriptorReferences root exceeded path entry size resolver
      ≠ .error (.cycle chain) := by
  unfold descriptorReferences
  split
  · simp
  split
  · simp
  split
  · simp
  split
  · simp
  · split <;> simp

/-- A visit raises a cycle only where it comes back to a path it is on. -/
theorem arrive_eq_cycle {exceeded : Bool} {visit : Visit} {assets : List GameAsset}
    {chain : List String}
    (h : registry.arrive root system primaryPath exceeded visit assets
      = .error (.cycle chain)) :
    ∃ path, validateCatalogPath system visit.relativePath = .ok path
      ∧ path ∈ visit.ancestry := by
  unfold arrive at h
  rcases bind_eq_error h with h | ⟨path, hpath, h⟩
  · exact absurd h (validateCatalogPath_ne_cycle _ _ _)
  refine ⟨path, hpath, ?_⟩
  split at h
  · next hancestry => exact hancestry
  -- every other error is another one
  exfalso
  split at h
  · cases h
  split at h
  · cases h
  rcases bind_eq_error h with h | ⟨found, -, h⟩
  · exact sourceEntry_ne_cycle _ _ h
  cases found with
  | none => cases h
  | some entry =>
    rcases bind_eq_error h with h | ⟨size, -, h⟩
    · exact sourceSize_ne_cycle _ _ _ h
    cases hresolver : registry.resolverOf path with
    | none =>
      rw [hresolver] at h
      cases h
    | some resolver =>
      rw [hresolver] at h
      rcases bind_eq_error h with h | ⟨references, -, h⟩
      · exact descriptorReferences_ne_cycle _ _ _ _ _ h
      · cases h

end DependencyResolverRegistry

end RomCloud.Cache
