import RomCloud.Cache.CuePaths

namespace RomCloud.Cache

open RomCloud.Lib

/-!
# The catalog and the cache on cue sheets

The catalog lists the companions of a cue game when it is found, the dependency resolver once more
when it is cached.

* `buildCueAssets` — the assets that the catalog lists;
* `Agrees` — both accept the same references with the same paths, and what is there is cached as it
  is listed;
* `SameReferences`, `Cacheable` — when they do;
* `followEach_eq` — what the resolver makes of references that lead to files;
* `cue_resolution_agrees_iff` — that these are all cases.
-/

/-! ### The assets of the catalog -/

/-- `_current_entry_size`: from the listing of the directory, or asked for. -/
def currentEntrySize (entryOf : String → Option RemoteEntry) (getSize : String → Option ℕ)
    (path : String) : Option ℕ :=
  match (entryOf path).filter (fun entry => !entry.isDirectory) with
  | some entry => entry.sizeBytes.or (getSize path)
  | none => getSize path

/-- A companion, unless its path was seen. -/
def addCompanion (sizeOf : String → Option ℕ) (found : List GameAsset × List String)
    (dependency : CueDependency) : List GameAsset × List String :=
  let path := dependency.relativePath
  if path ∈ found.2 then found
  else (found.1 ++ [⟨pathName path, path, sizeOf path, false⟩], path :: found.2)

/-- `_build_cue_assets`, of a cue sheet that can be read. -/
def buildCueAssets (T : TextTables) (sizeOf : String → Option ℕ) (cueRelativePath text : String) :
    List GameAsset :=
  let result := resolveCueDependencies T cueRelativePath text
  let companions := (result.dependencies.foldl (addCompanion sizeOf) ([], [cueRelativePath])).1
  ⟨pathName cueRelativePath, cueRelativePath, sizeOf cueRelativePath, true⟩ :: companions

/-- The references of the text, in their order. -/
def cueReferences (T : TextTables) (text : String) : List String :=
  (parseCue T 1 (splitLines text)).references

def cueWarnings (T : TextTables) (text : String) : List CueParseWarning :=
  (parseCue T 1 (splitLines text)).warnings

/-! ### What agrees, and when -/

section Agreement

variable {T : TextTables} (cue : CuePath T) (text : String)

/-- A reference is a dependency for the catalog. -/
def CatalogAccepts (reference path : String) : Prop :=
  (⟨reference, path⟩ : CueDependency) ∈ (resolveCueDependencies T cue.path text).dependencies

/-- The dependency resolver reads the text, and resolves the reference. -/
def RegistryAccepts (reference path : String) : Prop :=
  ∃ references, resolveCue T cue.path text = .ok references ∧
    (⟨reference, true⟩ : DependencyReference) ∈ references ∧
    resolveReference cue.path reference cue.system = .ok path

/-- The rules agree on every reference: what is marked leads out of the system, and else blanks
around a reference do not matter.  If a line cannot be read, nothing may be accepted. -/
def SameReferences : Prop :=
  if cueWarnings T text = [] then
    ∀ reference ∈ cueReferences T text,
      (CuePath.Marked reference → cue.leads reference = none) ∧
      (¬ CuePath.Marked reference → cue.leads reference = cue.leads (strip reference))
  else ∀ reference ∈ cueReferences T text, cue.leads reference = none

variable (provider : StorageProvider) (sourceRoot : Option String) (gameRoot : String)

/-- The dependency resolver of the cache. -/
abbrev cacheRegistry (T : TextTables) (provider : StorageProvider) (sourceRoot : Option String) :
    DependencyResolverRegistry :=
  defaultRegistry T provider sourceRoot

/-- The sizes that the catalog finds in the source. -/
def catalogSize (T : TextTables) (provider : StorageProvider) (sourceRoot : Option String)
    (gameRoot path : String) : Option ℕ :=
  let registry := cacheRegistry T provider sourceRoot
  currentEntrySize (registry.entryOf (registry.rootOf gameRoot))
    (fun path => (provider.getSize (registry.rootOf gameRoot) path).toOption.bind id) path

/-- The game that the catalog makes of the cue sheet. -/
def cueGame (gameId title : String) : Game where
  id := gameId
  system := cue.system
  title := title
  assets := buildCueAssets T (catalogSize T provider sourceRoot gameRoot) cue.path text
  isEligible := true

/-- A file that the source lists with its size. -/
def Present (registry : DependencyResolverRegistry) (root path : String) (size : ℕ) : Prop :=
  ∃ entry, registry.entryOf root path = some entry ∧ entry.isSymlink = false ∧
    entry.isDirectory = false ∧ entry.sizeBytes = some size

/-- Every file that the catalog lists exists, and none but the cue sheet is a descriptor. -/
structure Complete : Prop where
  read : provider.readText ((cacheRegistry T provider sourceRoot).rootOf gameRoot) cue.path
    = .ok text
  listed : ∃ size, Present (cacheRegistry T provider sourceRoot)
    ((cacheRegistry T provider sourceRoot).rootOf gameRoot) cue.path size
  files : ∀ reference path, CatalogAccepts cue text reference path →
    (∃ size, Present (cacheRegistry T provider sourceRoot)
      ((cacheRegistry T provider sourceRoot).rootOf gameRoot) path size) ∧
    (cacheRegistry T provider sourceRoot).resolverOf path = none

/-- The game is resolved, and what is not primary in it are the companions of the catalog. -/
def CachedAsListed (gameId title : String) : Prop :=
  ∃ resolved, (cacheRegistry T provider sourceRoot).resolve gameRoot
      (cueGame cue text provider sourceRoot gameRoot gameId title) = .ok resolved ∧
    resolved.assets.filter (fun asset => !asset.isPrimary)
      = (cueGame cue text provider sourceRoot gameRoot gameId title).assets.filter
          (fun asset => !asset.isPrimary)

/-- The paths of the references, each once. -/
def companionPaths : List String :=
  (((cueReferences T text).filterMap fun reference => cue.leads (strip reference)).dedup).filter
    (· ≠ cue.path)

/-- The cue sheet can be cached: every line is read, there are references, all of them are accepted,
and neither their number nor the size of the cue sheet is beyond a limit. -/
structure Cacheable : Prop where
  warnings : cueWarnings T text = []
  references : cueReferences T text ≠ []
  accepted : ∀ reference ∈ cueReferences T text,
    ¬ CuePath.Marked reference ∧ (cue.leads (strip reference)).isSome = true
  count : (companionPaths cue text).length ≤ 512
  size : ∀ size, Present (cacheRegistry T provider sourceRoot)
    ((cacheRegistry T provider sourceRoot).rootOf gameRoot) cue.path size → size ≤ 1024 * 1024

/-- The two readers agree on the references, and on the files of a complete game. -/
def Agrees (gameId title : String) : Prop :=
  (∀ reference path, CatalogAccepts cue text reference path ↔ RegistryAccepts cue text reference path) ∧
  (Complete cue text provider sourceRoot gameRoot →
    CachedAsListed cue text provider sourceRoot gameRoot gameId title)

end Agreement

/-! ### The references -/

section References

variable {T : TextTables} {cue : CuePath T} {text : String}

theorem catalogAccepts_iff (reference path : String) : CatalogAccepts cue text reference path ↔
    reference ∈ cueReferences T text ∧ cue.leads reference = some path := by
  rw [CatalogAccepts, cue.dependencies_eq, List.mem_filterMap]
  constructor
  · rintro ⟨raw, hraw, hfound⟩
    obtain ⟨target, htarget, heq⟩ := Option.map_eq_some_iff.mp hfound
    obtain ⟨rfl, rfl⟩ := CueDependency.mk.inj heq
    exact ⟨hraw, htarget⟩
  · rintro ⟨hmem, hleads⟩
    exact ⟨reference, hmem, by rw [hleads]; rfl⟩

theorem registryAccepts_iff (reference path : String) : RegistryAccepts cue text reference path ↔
    cueWarnings T text = [] ∧ reference ∈ cueReferences T text ∧
      ¬ CuePath.Marked reference ∧ cue.leads (strip reference) = some path := by
  rw [RegistryAccepts]
  constructor
  · rintro ⟨references, hread, hmem, hresolve⟩
    obtain ⟨hwarnings, -, rfl⟩ := resolveCue_eq_ok_iff.mp hread
    obtain ⟨raw, hraw, heq⟩ := List.mem_map.mp hmem
    obtain ⟨rfl, -⟩ := DependencyReference.mk.inj heq
    exact ⟨hwarnings, hraw, (cue.resolveReference_eq_ok_iff _ _).mp hresolve⟩
  · rintro ⟨hwarnings, hmem, hresolve⟩
    refine ⟨_, resolveCue_eq_ok_iff.mpr ⟨hwarnings, ?_, rfl⟩, List.mem_map.mpr ⟨reference, hmem, rfl⟩,
      (cue.resolveReference_eq_ok_iff _ _).mpr hresolve⟩
    intro hnil
    change reference ∈ (parseCue T 1 (splitLines text)).references at hmem
    rw [hnil] at hmem
    cases hmem

/-- The readers accept the same references with the same paths exactly if the rules agree. -/
theorem accepts_iff : (∀ reference path, CatalogAccepts cue text reference path ↔
    RegistryAccepts cue text reference path) ↔ SameReferences cue text := by
  rw [SameReferences]
  by_cases hwarnings : cueWarnings T text = []
  · rw [if_pos hwarnings]
    constructor
    · intro h reference hmem
      have hpath : ∀ path, cue.leads reference = some path ↔
          ¬ CuePath.Marked reference ∧ cue.leads (strip reference) = some path := by
        intro path
        have hboth := h reference path
        rw [catalogAccepts_iff, registryAccepts_iff] at hboth
        exact ⟨fun hleads => (hboth.mp ⟨hmem, hleads⟩).2.2,
          fun hleads => (hboth.mpr ⟨hwarnings, hmem, hleads⟩).2⟩
      refine ⟨fun hmarked => Option.eq_none_iff_forall_ne_some.mpr fun path hleads => ?_,
        fun hplain => Option.ext fun path => ?_⟩
      · exact ((hpath path).mp hleads).1 hmarked
      · exact (hpath path).trans (and_iff_right hplain)
    · intro h reference path
      rw [catalogAccepts_iff, registryAccepts_iff, and_iff_right hwarnings]
      refine and_congr_right fun hmem => ?_
      by_cases hmarked : CuePath.Marked reference
      · rw [(h reference hmem).1 hmarked]
        exact iff_of_false nofun fun hboth => hboth.1 hmarked
      · rw [(h reference hmem).2 hmarked, and_iff_right hmarked]
  · rw [if_neg hwarnings]
    constructor
    · intro h reference hmem
      refine Option.eq_none_iff_forall_ne_some.mpr fun path hleads => ?_
      have hboth := (h reference path).mp ((catalogAccepts_iff _ _).mpr ⟨hmem, hleads⟩)
      exact hwarnings ((registryAccepts_iff _ _).mp hboth).1
    · intro h reference path
      rw [catalogAccepts_iff, registryAccepts_iff]
      refine iff_of_false ?_ fun hboth => hwarnings hboth.1
      rintro ⟨hmem, hleads⟩
      rw [h reference hmem] at hleads
      cases hleads

theorem mem_posixJoin {c : Char} {directory path : String}
    (h : c ∈ (posixJoin directory path).toList) :
    c ∈ directory.toList ∨ c = '/' ∨ c ∈ path.toList := by
  unfold posixJoin at h
  split at h
  · exact Or.inr (Or.inr h)
  split at h
  · rw [String.toList_append, List.mem_append] at h
    exact h.imp_right Or.inr
  · rw [String.toList_append, String.toList_append, List.mem_append, List.mem_append] at h
    rcases h with (h | h) | h
    · exact Or.inl h
    · exact Or.inr (Or.inl (List.mem_singleton.mp h))
    · exact Or.inr (Or.inr h)

/-- A reference that leads into the system leads to a path in normal form. -/
theorem normal_of_leads {reference path : String} (h : cue.leads reference = some path) :
    Normal cue.system path := by
  have hplain : ∀ part ∈ cue.directory, PlainName part := fun _ h => cue.plain_directory h
  have hparts : ∀ path, (slashParts path).filter (fun part => part ≠ "" && part ≠ ".")
      = posixParts path := fun _ => rfl
  rw [← cue.cueTarget_eq, cueTarget] at h
  simp only [hparts, posixParts_normpath] at h
  rw [Option.ite_none_left_eq_some, Option.some.injEq] at h
  obtain ⟨hinside, rfl⟩ := h
  push Not at hinside
  obtain ⟨-, hhead, hdots⟩ := hinside
  obtain ⟨below, hbelow⟩ := List.head?_eq_some_iff.mp hhead
  refine ⟨below, by rw [hbelow], fun part hpart => ?_⟩
  rw [← hbelow] at hpart
  obtain ⟨hempty, hdot, hslash, hchars⟩ := mem_posixParts (mem_normParts hpart)
  have hnot : part ≠ ".." := by
    rintro rfl
    exact hdots hpart
  refine ⟨hempty, hdot, hnot, hslash, fun hmem => ?_⟩
  have hreference := backslash_forwardSlashes reference
  have hdirectory : '\\' ∉ ("/".intercalate cue.directory).toList := by
    intro hmem
    rcases mem_joined hmem with heq | ⟨other, hother, hc⟩
    · exact absurd heq (by decide)
    · exact (hplain other hother).2.2.2.2 hc
  rcases mem_posixJoin (hchars _ hmem) with hin | heq | hin
  · exact hdirectory hin
  · exact absurd heq (by decide)
  · exact hreference hin

end References

/-! ### Lists of companions -/

section Companions

variable {sizeOf : String → Option ℕ}

/-- A companion is added once. -/
def addLeaf (sizeOf : String → Option ℕ) (assets : List GameAsset) (path : String) :
    List GameAsset :=
  if path ∈ assetPaths assets then assets
  else assets ++ [⟨pathName path, path, sizeOf path, false⟩]

theorem assetPaths_concat (assets : List GameAsset) (asset : GameAsset) :
    assetPaths (assets ++ [asset]) = assetPaths assets ++ [asset.relativePath] := by
  rw [assetPaths, List.map_append, List.map_singleton, assetPaths]

/-- The catalog lists what `addLeaf` lists. -/
theorem buildCueAssets_eq {T : TextTables} (cueRelativePath text : String) :
    buildCueAssets T sizeOf cueRelativePath text
      = ((resolveCueDependencies T cueRelativePath text).dependencies.map
          CueDependency.relativePath).foldl (addLeaf sizeOf)
            [⟨pathName cueRelativePath, cueRelativePath, sizeOf cueRelativePath, true⟩] := by
  rw [buildCueAssets]
  set primary : GameAsset := ⟨pathName cueRelativePath, cueRelativePath, sizeOf cueRelativePath, true⟩
  have hfold : ∀ (dependencies : List CueDependency) (found : List GameAsset × List String),
      (∀ path, path ∈ found.2 ↔ path ∈ assetPaths (primary :: found.1)) →
      primary :: (dependencies.foldl (addCompanion sizeOf) found).1
        = (dependencies.map CueDependency.relativePath).foldl (addLeaf sizeOf)
            (primary :: found.1) := by
    intro dependencies
    induction dependencies with
    | nil => exact fun _ _ => rfl
    | cons dependency rest ih =>
      intro found hfound
      rw [List.foldl_cons, List.map_cons, List.foldl_cons]
      by_cases hseen : dependency.relativePath ∈ found.2
      · rw [addCompanion, if_pos hseen, addLeaf, if_pos ((hfound _).mp hseen)]
        exact ih found hfound
      · rw [addCompanion, if_neg hseen, addLeaf, if_neg fun h => hseen ((hfound _).mpr h)]
        refine ih _ fun path => ?_
        rw [List.mem_cons, hfound, ← List.cons_append, assetPaths_concat, List.mem_append,
          List.mem_singleton, or_comm]
  exact hfold _ ([], [cueRelativePath]) fun path => by simp [assetPaths, primary]

theorem mem_assetPaths_addLeaf {assets : List GameAsset} {path other : String} :
    other ∈ assetPaths (addLeaf sizeOf assets path) ↔ other ∈ assetPaths assets ∨ other = path := by
  rw [addLeaf]
  split
  · next hseen =>
    refine ⟨Or.inl, ?_⟩
    rintro (h | rfl)
    · exact h
    · exact hseen
  · rw [assetPaths_concat, List.mem_append, List.mem_singleton]

theorem mem_assetPaths_foldl {paths : List String} {assets : List GameAsset} {other : String} :
    other ∈ assetPaths (paths.foldl (addLeaf sizeOf) assets) ↔
      other ∈ assetPaths assets ∨ other ∈ paths := by
  induction paths generalizing assets with
  | nil => simp
  | cons path rest ih => rw [List.foldl_cons, ih, mem_assetPaths_addLeaf, List.mem_cons, or_assoc]

theorem nodup_assetPaths_foldl {paths : List String} {assets : List GameAsset}
    (h : (assetPaths assets).Nodup) :
    (assetPaths (paths.foldl (addLeaf sizeOf) assets)).Nodup := by
  induction paths generalizing assets with
  | nil => exact h
  | cons path rest ih =>
    rw [List.foldl_cons]
    apply ih
    rw [addLeaf]
    split
    · exact h
    · next hnew =>
      rw [assetPaths_concat, ← List.concat_eq_append]
      exact h.concat hnew

theorem length_le_foldl (paths : List String) (assets : List GameAsset) :
    assets.length ≤ (paths.foldl (addLeaf sizeOf) assets).length := by
  induction paths generalizing assets with
  | nil => exact le_refl _
  | cons path rest ih =>
    rw [List.foldl_cons]
    refine le_trans ?_ (ih _)
    rw [addLeaf]
    split
    · exact le_refl _
    · rw [List.length_append]
      omega

/-- The companions are counted once each. -/
theorem length_foldl (paths : List String) (primary : GameAsset) :
    (paths.foldl (addLeaf sizeOf) [primary]).length
      = (paths.dedup.filter (· ≠ primary.relativePath)).length + 1 := by
  have hperm : (assetPaths (paths.foldl (addLeaf sizeOf) [primary])).Perm
      (primary.relativePath :: paths.dedup.filter (· ≠ primary.relativePath)) := by
    refine (List.perm_ext_iff_of_nodup (nodup_assetPaths_foldl (by simp [assetPaths])) ?_).mpr ?_
    · rw [List.nodup_cons]
      exact ⟨by simp, (List.nodup_dedup paths).filter _⟩
    · intro other
      rw [mem_assetPaths_foldl, List.mem_cons, List.mem_filter, List.mem_dedup]
      by_cases hother : other = primary.relativePath
      · simp [hother, assetPaths]
      · simp [hother, assetPaths]
  have hlength := hperm.length_eq
  rwa [assetPaths, List.length_map, List.length_cons] at hlength

end Companions

/-! ### The dependency resolver on files -/

section Files

variable {registry : DependencyResolverRegistry} {root system primaryPath path : String}

theorem sourceEntry_of_entryOf {entry : RemoteEntry} (required : Bool)
    (h : registry.entryOf root path = some entry) (hlink : entry.isSymlink = false) :
    registry.sourceEntry root path required = .ok (some entry) := by
  rw [DependencyResolverRegistry.entryOf] at h
  rw [DependencyResolverRegistry.sourceEntry]
  cases hlist : registry.provider.listEntries root (parentPath path) with
  | error message => rw [hlist] at h; cases h
  | ok entries =>
    rw [hlist] at h
    dsimp only at h ⊢
    rw [h]
    dsimp only
    rw [hlink]
    rfl

theorem sourceSize_of_size {entry : RemoteEntry} {size : ℕ}
    (hsize : entry.sizeBytes = some size) :
    registry.sourceSize root path none entry = .ok (some size) := by
  rw [DependencyResolverRegistry.sourceSize, hsize]
  cases (registry.resolverOf path).isSome <;> rfl

/-- A visit to a file that is no descriptor. -/
theorem walk_file {size : ℕ} (hnormal : Normal system path) (hpresent : Present registry root path size)
    (hplain : registry.resolverOf path = none) {ancestry : List String} (hfresh : path ∉ ancestry)
    (hother : path ≠ primaryPath) (left : ℕ) (assets : List GameAsset) :
    registry.walk root system primaryPath left ⟨path, false, ancestry, none, true⟩ assets =
      if path ∈ assetPaths assets then .ok assets
      else if registry.maxDependencies + 1 ≤ assets.length then
        .error (.countExceeded registry.maxDependencies)
      else .ok (assets ++ [⟨pathName path, path, some size, false⟩]) := by
  obtain ⟨entry, hentry, hlink, -, hsize⟩ := hpresent
  have harrive : ∀ exceeded, registry.arrive root system primaryPath exceeded
      ⟨path, false, ancestry, none, true⟩ assets =
        if path ∈ assetPaths assets then .ok .settled
        else if registry.maxDependencies + 1 ≤ assets.length then
          .error (.countExceeded registry.maxDependencies)
        else .ok (.leaf ⟨pathName path, path, some size, false⟩) := by
    intro exceeded
    rw [DependencyResolverRegistry.arrive, hnormal.validate, ok_bind, if_neg hfresh]
    by_cases hlisted : path ∈ assetPaths assets
    · rw [if_pos hlisted, if_pos hlisted]
    rw [if_neg hlisted, if_neg hlisted]
    by_cases hcount : registry.maxDependencies + 1 ≤ assets.length
    · rw [if_pos ⟨hother, hcount⟩, if_pos hcount]
    rw [if_neg fun h => hcount h.2, if_neg hcount, sourceEntry_of_entryOf true hentry hlink, ok_bind]
    dsimp only
    rw [sourceSize_of_size hsize, ok_bind, hplain]
    rfl
  have hstep : ∀ exceeded descend, registry.walkStep root system primaryPath exceeded descend
      ⟨path, false, ancestry, none, true⟩ assets =
        if path ∈ assetPaths assets then .ok assets
        else if registry.maxDependencies + 1 ≤ assets.length then
          .error (.countExceeded registry.maxDependencies)
        else .ok (assets ++ [⟨pathName path, path, some size, false⟩]) := by
    intro exceeded descend
    rw [DependencyResolverRegistry.walkStep, harrive]
    by_cases hlisted : path ∈ assetPaths assets
    · rw [if_pos hlisted, if_pos hlisted]
      rfl
    rw [if_neg hlisted, if_neg hlisted]
    by_cases hcount : registry.maxDependencies + 1 ≤ assets.length
    · rw [if_pos hcount, if_pos hcount]
      rfl
    · rw [if_neg hcount, if_neg hcount]
      rfl
  cases left with
  | zero => exact hstep true _
  | succ left => exact hstep false _

/-- The references to files, one after the other: each file is added once, up to the limit. -/
theorem followEach_eq {sizeOf : String → Option ℕ} {descriptor : String} {left : ℕ}
    {names : List String} {target : String → String}
    (hnames : ∀ name ∈ names, resolveReference descriptor name system = .ok (target name) ∧
      Normal system (target name) ∧ registry.resolverOf (target name) = none ∧
      target name ≠ descriptor ∧ target name ≠ primaryPath ∧
      ∃ size, Present registry root (target name) size ∧ sizeOf (target name) = some size)
    {assets : List GameAsset} (hassets : assets.length ≤ registry.maxDependencies + 1) :
    (names.map (fun name => (⟨name, true⟩ : DependencyReference))).foldlM
        (DependencyResolverRegistry.follow system (registry.walk root system primaryPath left)
          descriptor []) assets =
      if ((names.map target).foldl (addLeaf sizeOf) assets).length ≤ registry.maxDependencies + 1 then
        .ok ((names.map target).foldl (addLeaf sizeOf) assets)
      else .error (.countExceeded registry.maxDependencies) := by
  induction names generalizing assets with
  | nil =>
    rw [List.map_nil, List.foldlM_nil, List.map_nil, List.foldl_nil, if_pos hassets]
    rfl
  | cons name rest ih =>
    rw [List.forall_mem_cons] at hnames
    obtain ⟨⟨hresolve, hnormal, hplain, hother, hprimary, size, hpresent, hsize⟩, hrest⟩ := hnames
    have hfollow : DependencyResolverRegistry.follow system
        (registry.walk root system primaryPath left) descriptor [] assets ⟨name, true⟩ =
          if target name ∈ assetPaths assets then .ok assets
          else if registry.maxDependencies + 1 ≤ assets.length then
            .error (.countExceeded registry.maxDependencies)
          else .ok (assets ++ [⟨pathName (target name), target name, some size, false⟩]) := by
      rw [DependencyResolverRegistry.follow, hresolve, ok_bind]
      exact walk_file hnormal hpresent hplain (by simpa using hother) hprimary left assets
    rw [List.map_cons, List.foldlM_cons, hfollow, List.map_cons, List.foldl_cons]
    by_cases hlisted : target name ∈ assetPaths assets
    · rw [if_pos hlisted, ok_bind, addLeaf, if_pos hlisted]
      exact ih hrest hassets
    rw [if_neg hlisted]
    by_cases hcount : registry.maxDependencies + 1 ≤ assets.length
    · -- The limit is reached: one more file is too many, whatever comes after it.
      have hlong := @length_le_foldl sizeOf (rest.map target)
        (addLeaf sizeOf assets (target name))
      have hadded : (addLeaf sizeOf assets (target name)).length = assets.length + 1 := by
        rw [addLeaf, if_neg hlisted, List.length_append]
        rfl
      rw [if_pos hcount, if_neg (by omega)]
      rfl
    · rw [if_neg hcount, ok_bind, addLeaf, if_neg hlisted, hsize]
      refine ih hrest ?_
      rw [List.length_append, List.length_singleton]
      omega

/-- Catalog assets that are listed add nothing. -/
theorem walkCatalog_listed {catalogAssets assets : List GameAsset}
    (h : ∀ asset ∈ catalogAssets, asset.relativePath ∈ assetPaths assets) :
    catalogAssets.foldlM (registry.walkCatalog root system primaryPath) assets = .ok assets := by
  induction catalogAssets with
  | nil => rfl
  | cons asset rest ih =>
    rw [List.forall_mem_cons] at h
    rw [List.foldlM_cons, DependencyResolverRegistry.walkCatalog, if_pos h.1, ok_bind]
    exact ih h.2

end Files

/-! ### A complete game -/

section Game

variable {T : TextTables} {cue : CuePath T} {text gameRoot gameId title : String}
  {provider : StorageProvider} {sourceRoot : Option String}

theorem resolverOf_cue : (cacheRegistry T provider sourceRoot).resolverOf cue.path
    = some (resolveCue T) := by
  show (defaultResolvers T).lookup (T.lower (pathSuffix cue.path)) = _
  rw [show T.lower (pathSuffix cue.path) = ".cue" from cue.isCue]
  rfl

/-- The primary asset of the game. -/
def cuePrimary (cue : CuePath T) (size : ℕ) : GameAsset := ⟨pathName cue.path, cue.path, some size, true⟩

/-- The first visit: the cue sheet is read, and its references are followed. -/
theorem walk_cue {size : ℕ} (known : Option GameAsset)
    (hpresent : Present (cacheRegistry T provider sourceRoot)
      ((cacheRegistry T provider sourceRoot).rootOf gameRoot) cue.path size)
    (hread : provider.readText ((cacheRegistry T provider sourceRoot).rootOf gameRoot) cue.path
      = .ok text) :
    (cacheRegistry T provider sourceRoot).walk ((cacheRegistry T provider sourceRoot).rootOf gameRoot)
        cue.system cue.path 16 ⟨cue.path, true, [], known, true⟩ [] =
      if 1024 * 1024 < size then .error (.descriptorTooLarge (1024 * 1024) cue.path)
      else match resolveCue T cue.path text with
        | .error message => .error (.malformed message)
        | .ok references => references.foldlM (DependencyResolverRegistry.follow cue.system
            ((cacheRegistry T provider sourceRoot).walk
              ((cacheRegistry T provider sourceRoot).rootOf gameRoot) cue.system cue.path 15)
            cue.path []) [cuePrimary cue size] := by
  obtain ⟨entry, hentry, hlink, hfile, hsize⟩ := hpresent
  have hentrySize : (cacheRegistry T provider sourceRoot).sourceSize
      ((cacheRegistry T provider sourceRoot).rootOf gameRoot) cue.path known entry
        = .ok (some size) := by
    rw [DependencyResolverRegistry.sourceSize, resolverOf_cue, hsize]
    rfl
  show (cacheRegistry T provider sourceRoot).walkStep _ _ _ _ _ _ _ = _
  rw [DependencyResolverRegistry.walkStep, DependencyResolverRegistry.arrive, cue.normal.validate,
    ok_bind, if_neg List.not_mem_nil, if_neg (show cue.path ∉ assetPaths [] from List.not_mem_nil),
    if_neg fun h => h.1 rfl, sourceEntry_of_entryOf true hentry hlink, ok_bind]
  dsimp only
  rw [hentrySize, ok_bind]
  rw [resolverOf_cue]
  dsimp only
  rw [DependencyResolverRegistry.descriptorReferences, hfile, if_neg Bool.false_ne_true,
    if_neg Bool.false_ne_true]
  have hlimit : ((some size).any (fun bytes =>
      decide ((cacheRegistry T provider sourceRoot).maxDescriptorBytes < bytes)) = true) ↔
        1024 * 1024 < size := by
    show decide ((cacheRegistry T provider sourceRoot).maxDescriptorBytes < size) = true ↔ _
    rw [decide_eq_true_eq]
    exact Iff.rfl
  by_cases hlarge : 1024 * 1024 < size
  · rw [if_pos (hlimit.mpr hlarge), if_pos hlarge]
    rfl
  · rw [if_neg fun h => hlarge (hlimit.mp h), if_neg hlarge]
    have hread' : (cacheRegistry T provider sourceRoot).provider.readText
        ((cacheRegistry T provider sourceRoot).rootOf gameRoot) cue.path = .ok text := hread
    rw [hread']
    dsimp only
    cases resolveCue T cue.path text with
    | error message => rfl
    | ok references => rfl

theorem catalogSize_of_present {path : String} {size : ℕ}
    (h : Present (cacheRegistry T provider sourceRoot)
      ((cacheRegistry T provider sourceRoot).rootOf gameRoot) path size) :
    catalogSize T provider sourceRoot gameRoot path = some size := by
  obtain ⟨entry, hentry, -, hfile, hsize⟩ := h
  have hkept : (some entry).filter (fun entry => !entry.isDirectory) = some entry := by
    rw [Option.filter_some, hfile]
    rfl
  rw [catalogSize, currentEntrySize, hentry, hkept]
  dsimp only
  rw [hsize]
  rfl

/-- Where the references of a cue sheet lead. -/
def targetPath (cue : CuePath T) (name : String) : String := (cue.leads (strip name)).getD ""

/-- What the resolver needs of the references, once they are accepted. -/
theorem references_lead (hcomplete : Complete cue text provider sourceRoot gameRoot)
    (hsame : SameReferences cue text) (hwarnings : cueWarnings T text = [])
    (haccepted : ∀ reference ∈ cueReferences T text,
      ¬ CuePath.Marked reference ∧ (cue.leads (strip reference)).isSome = true) :
    ∀ name ∈ cueReferences T text, cue.leads name = some (targetPath cue name) ∧
      resolveReference cue.path name cue.system = .ok (targetPath cue name) ∧
      Normal cue.system (targetPath cue name) ∧
      (cacheRegistry T provider sourceRoot).resolverOf (targetPath cue name) = none ∧
      targetPath cue name ≠ cue.path ∧ targetPath cue name ≠ cue.path ∧
      ∃ size, Present (cacheRegistry T provider sourceRoot)
        ((cacheRegistry T provider sourceRoot).rootOf gameRoot) (targetPath cue name) size ∧
        catalogSize T provider sourceRoot gameRoot (targetPath cue name) = some size := by
  intro name hname
  obtain ⟨hplain, hleads⟩ := haccepted name hname
  obtain ⟨path, hpath⟩ := Option.isSome_iff_exists.mp hleads
  rw [SameReferences, if_pos hwarnings] at hsame
  have hcatalog : cue.leads name = some path := ((hsame name hname).2 hplain).trans hpath
  have htarget : targetPath cue name = path := by rw [targetPath, hpath]; rfl
  obtain ⟨⟨size, hpresent⟩, hnone⟩ :=
    hcomplete.files name path ((catalogAccepts_iff _ _).mpr ⟨hname, hcatalog⟩)
  have hother : path ≠ cue.path := by
    rintro rfl
    rw [resolverOf_cue] at hnone
    cases hnone
  rw [htarget]
  exact ⟨hcatalog, (cue.resolveReference_eq_ok_iff _ _).mpr ⟨hplain, hpath⟩,
    normal_of_leads hcatalog, hnone, hother, hother, size, hpresent,
    catalogSize_of_present hpresent⟩

/-- The paths that the catalog lists are those of the references. -/
theorem dependency_paths (hleads : ∀ name ∈ cueReferences T text,
    cue.leads name = some (targetPath cue name)) :
    (resolveCueDependencies T cue.path text).dependencies.map CueDependency.relativePath
      = (cueReferences T text).map (targetPath cue) := by
  rw [cue.dependencies_eq]
  change ((cueReferences T text).filterMap _).map _ = _
  revert hleads
  generalize cueReferences T text = names
  intro hleads
  induction names with
  | nil => rfl
  | cons name rest ih =>
    rw [List.forall_mem_cons] at hleads
    rw [List.filterMap_cons, hleads.1, Option.map_some]
    dsimp only
    rw [List.map_cons, List.map_cons, ih hleads.2]

/-- A run over references that ends has resolved each of them. -/
theorem resolved_of_foldlM {descend : Visit → List GameAsset → Except DependencyError (List GameAsset)}
    {system descriptor : String} {references : List DependencyReference}
    {assets result : List GameAsset}
    (h : references.foldlM (DependencyResolverRegistry.follow system descend descriptor []) assets
      = .ok result) :
    ∀ reference ∈ references, ∃ path, resolveReference descriptor reference.path system = .ok path := by
  refine (@foldlM_progress _ _ _
    (DependencyResolverRegistry.follow system descend descriptor [])
    (fun done _ => ∀ reference ∈ done, ∃ path,
      resolveReference descriptor reference.path system = .ok path)
    (fun _ => True) references ?_ assets (by simp)).1 result h
  intro done reference rest _ list hdone
  refine ⟨fun next hnext => ?_, fun _ _ => trivial⟩
  obtain ⟨path, hpath, -⟩ := bind_eq_ok hnext
  intro other hother
  rcases List.mem_append.mp hother with hother | hother
  · exact hdone other hother
  · rw [List.mem_singleton.mp hother]
    exact ⟨path, hpath⟩

/-- What a complete game needs to be cached. -/
theorem cachedAsListed_iff (hcomplete : Complete cue text provider sourceRoot gameRoot)
    (hsame : SameReferences cue text) :
    CachedAsListed cue text provider sourceRoot gameRoot gameId title ↔
      Cacheable cue text provider sourceRoot gameRoot := by
  obtain ⟨size, hpresent⟩ := hcomplete.listed
  have hprimary : (cueGame cue text provider sourceRoot gameRoot gameId title).primaryAsset
      = some (cuePrimary cue size) := by
    rw [cuePrimary, ← catalogSize_of_present hpresent]
    rfl
  have hunique : ∀ other, Present (cacheRegistry T provider sourceRoot)
      ((cacheRegistry T provider sourceRoot).rootOf gameRoot) cue.path other → other = size := by
    intro other hother
    have hsize := catalogSize_of_present hother
    rw [catalogSize_of_present hpresent] at hsize
    exact (Option.some.inj hsize).symm
  -- What the resolver and the catalog list, once every reference is accepted.
  have hrun : cueWarnings T text = [] → cueReferences T text ≠ [] →
      (∀ reference ∈ cueReferences T text,
        ¬ CuePath.Marked reference ∧ (cue.leads (strip reference)).isSome = true) →
      ¬ 1024 * 1024 < size →
      (cueGame cue text provider sourceRoot gameRoot gameId title).assets
          = ((cueReferences T text).map (targetPath cue)).foldl
              (addLeaf (catalogSize T provider sourceRoot gameRoot)) [cuePrimary cue size] ∧
      (cacheRegistry T provider sourceRoot).walk
          ((cacheRegistry T provider sourceRoot).rootOf gameRoot) cue.system cue.path 16
          ⟨cue.path, true, [], some (cuePrimary cue size), true⟩ [] =
        if (companionPaths cue text).length ≤ 512 then
          .ok (((cueReferences T text).map (targetPath cue)).foldl
            (addLeaf (catalogSize T provider sourceRoot gameRoot)) [cuePrimary cue size])
        else .error (.countExceeded 512) := by
    intro hwarnings hreferences haccepted hsmall
    have hlead := references_lead hcomplete hsame hwarnings haccepted
    have hcount : (((cueReferences T text).map (targetPath cue)).foldl
        (addLeaf (catalogSize T provider sourceRoot gameRoot)) [cuePrimary cue size]).length
          = (companionPaths cue text).length + 1 := by
      have hpaths : (cueReferences T text).filterMap (fun reference => cue.leads (strip reference))
          = (cueReferences T text).map (targetPath cue) := by
        rw [← List.filterMap_eq_map]
        refine List.filterMap_congr fun name hname => ?_
        obtain ⟨path, hpath⟩ := Option.isSome_iff_exists.mp (haccepted name hname).2
        rw [hpath, Function.comp_apply, targetPath, hpath]
        rfl
      rw [length_foldl, companionPaths, hpaths]
      rfl
    constructor
    · show buildCueAssets T _ cue.path text = _
      rw [buildCueAssets_eq, dependency_paths fun name hname => (hlead name hname).1,
        catalogSize_of_present hpresent]
      rfl
    · rw [walk_cue _ hpresent hcomplete.read, if_neg hsmall,
        resolveCue_eq_ok_iff.mpr ⟨hwarnings, hreferences, rfl⟩]
      dsimp only
      have hfollow := @followEach_eq (cacheRegistry T provider sourceRoot)
        ((cacheRegistry T provider sourceRoot).rootOf gameRoot) cue.system cue.path
        (catalogSize T provider sourceRoot gameRoot) cue.path 15 (cueReferences T text)
        (targetPath cue) (fun name hname => (hlead name hname).2) [cuePrimary cue size]
        (by show 1 ≤ 513; omega)
      refine Eq.trans hfollow ?_
      rw [hcount]
      by_cases hfew : (companionPaths cue text).length ≤ 512
      · rw [if_pos hfew, if_pos (by show _ ≤ 513; omega)]
      · rw [if_neg hfew, if_neg (by show ¬ _ ≤ 513; omega)]
        rfl
  constructor
  · rintro ⟨resolved, hresolve, -⟩
    rw [DependencyResolverRegistry.resolve, hprimary] at hresolve
    dsimp only at hresolve
    obtain ⟨assets, hwalk, -⟩ := bind_eq_ok hresolve
    -- The first visit has succeeded: the text was read, and all its references resolved.
    have hfirst := hwalk
    change (cacheRegistry T provider sourceRoot).walk
      ((cacheRegistry T provider sourceRoot).rootOf gameRoot) cue.system cue.path 16
      ⟨cue.path, true, [], some (cuePrimary cue size), true⟩ [] = .ok assets at hfirst
    rw [walk_cue _ hpresent hcomplete.read] at hfirst
    by_cases hlarge : 1024 * 1024 < size
    · rw [if_pos hlarge] at hfirst
      cases hfirst
    rw [if_neg hlarge] at hfirst
    cases htext : resolveCue T cue.path text with
    | error message =>
      rw [htext] at hfirst
      cases hfirst
    | ok references =>
      rw [htext] at hfirst
      obtain ⟨hwarnings, hreferences, rfl⟩ := resolveCue_eq_ok_iff.mp htext
      have haccepted : ∀ reference ∈ cueReferences T text,
          ¬ CuePath.Marked reference ∧ (cue.leads (strip reference)).isSome = true := by
        intro reference hmem
        obtain ⟨path, hpath⟩ := resolved_of_foldlM hfirst ⟨reference, true⟩
          (List.mem_map.mpr ⟨reference, hmem, rfl⟩)
        obtain ⟨hplain, hleads⟩ := (cue.resolveReference_eq_ok_iff _ _).mp hpath
        exact ⟨hplain, by rw [hleads]; rfl⟩
      have hcount : (companionPaths cue text).length ≤ 512 := by
        by_contra hmany
        have hend := (hrun hwarnings hreferences haccepted hlarge).2
        rw [if_neg hmany] at hend
        have hboth := hend.symm.trans hwalk
        cases hboth
      exact ⟨hwarnings, hreferences, haccepted, hcount, fun other hother => by
        rw [hunique other hother]
        omega⟩
  · intro hcacheable
    have hsmall : ¬ 1024 * 1024 < size := by
      have hsize := hcacheable.size size hpresent
      omega
    obtain ⟨hassets, hwalk⟩ :=
      hrun hcacheable.warnings hcacheable.references hcacheable.accepted hsmall
    rw [if_pos hcacheable.count] at hwalk
    refine ⟨cueGame cue text provider sourceRoot gameRoot gameId title, ?_, rfl⟩
    rw [DependencyResolverRegistry.resolve, hprimary]
    dsimp only
    have hlisted := @walkCatalog_listed (cacheRegistry T provider sourceRoot)
      ((cacheRegistry T provider sourceRoot).rootOf gameRoot) cue.system cue.path
      (cueGame cue text provider sourceRoot gameRoot gameId title).assets
      (cueGame cue text provider sourceRoot gameRoot gameId title).assets
      fun asset hasset => List.mem_map_of_mem hasset
    have hvisit := hwalk
    rw [← hassets] at hvisit
    refine Eq.trans (congrArg (· >>= _) hvisit) ?_
    rw [ok_bind]
    refine Eq.trans (congrArg (· >>= _) hlisted) ?_
    rfl

end Game

/-- **Catalog and cache.** For every cue sheet of a system and every text the two readers agree
exactly if their rules agree on its references, and what the catalog takes for complete can be
cached. -/
theorem cue_resolution_agrees_iff {T : TextTables} (cue : CuePath T) (text : String)
    (provider : StorageProvider) (sourceRoot : Option String) (gameRoot gameId title : String) :
    Agrees cue text provider sourceRoot gameRoot gameId title ↔
      SameReferences cue text ∧
      (Complete cue text provider sourceRoot gameRoot →
        Cacheable cue text provider sourceRoot gameRoot) := by
  rw [Agrees, accepts_iff]
  refine and_congr_right fun hsame => ?_
  constructor
  · exact fun h hcomplete => (cachedAsListed_iff hcomplete hsame).mp (h hcomplete)
  · exact fun h hcomplete => (cachedAsListed_iff hcomplete hsame).mpr (h hcomplete)

/-! ### A track from the root -/

/-- The tables for texts in ASCII. -/
def asciiTables : TextTables where
  lower := fun text => String.ofList (text.toList.map Char.toLower)
  upper := fun text => String.ofList (text.toList.map Char.toUpper)
  sameLetter := fun a b => a.toLower == b.toLower
  isDigit := Char.isDigit
  int := fun text => text.toNat?.map Int.ofNat

/-- The cue sheet `psx/disc.cue`. -/
def discCue : CuePath asciiTables where
  system := "psx"
  directories := []
  name := "disc.cue"
  plain := by unfold PlainName; decide
  isCue := by decide

/-- It names its track from the root of the source. -/
def rootedText : String := "FILE \"/psx/game.bin\" BINARY"

/-- A source with the cue sheet and the track. -/
def discSource : StorageProvider where
  listEntries := fun _ _ =>
    .ok [⟨"psx/disc.cue", false, false, some 27⟩, ⟨"psx/game.bin", false, false, some 700⟩]
  getSize := fun _ _ => .ok none
  readText := fun _ _ => .ok rootedText

theorem rooted_references : cueReferences asciiTables rootedText = ["/psx/game.bin"] := by
  decide +kernel

theorem rooted_leads : discCue.leads "/psx/game.bin" = some "psx/game.bin" := by decide +kernel

theorem rooted_marked : CuePath.Marked "/psx/game.bin" := by
  unfold CuePath.Marked
  decide +kernel

/-- The catalog lists the track, and the game is complete; the cache refuses the reference. -/
theorem rootedTrack_refused :
    CatalogAccepts discCue rootedText "/psx/game.bin" "psx/game.bin" ∧
    ¬ RegistryAccepts discCue rootedText "/psx/game.bin" "psx/game.bin" ∧
    Complete discCue rootedText discSource none "/roms" ∧
    ¬ CachedAsListed discCue rootedText discSource none "/roms" "game" "Disc" ∧
    ¬ Agrees discCue rootedText discSource none "/roms" "game" "Disc" := by
  have hcatalog : CatalogAccepts discCue rootedText "/psx/game.bin" "psx/game.bin" := by
    rw [catalogAccepts_iff, rooted_references]
    exact ⟨List.mem_singleton_self _, rooted_leads⟩
  have hregistry : ¬ RegistryAccepts discCue rootedText "/psx/game.bin" "psx/game.bin" := by
    rw [registryAccepts_iff]
    exact fun h => h.2.2.1 rooted_marked
  have hcomplete : Complete discCue rootedText discSource none "/roms" := by
    refine ⟨rfl, ⟨27, ⟨"psx/disc.cue", false, false, some 27⟩, by decide +kernel, rfl, rfl, rfl⟩, ?_⟩
    intro reference path haccepted
    rw [catalogAccepts_iff, rooted_references] at haccepted
    obtain ⟨hmem, hleads⟩ := haccepted
    rw [List.mem_singleton.mp hmem, rooted_leads] at hleads
    obtain rfl := Option.some.inj hleads
    refine ⟨⟨700, ⟨"psx/game.bin", false, false, some 700⟩, by decide +kernel, rfl, rfl, rfl⟩, ?_⟩
    show (defaultResolvers asciiTables).lookup _ = none
    have hnone : ((defaultResolvers asciiTables).lookup
      (asciiTables.lower (pathSuffix "psx/game.bin"))).isNone = true := by decide +kernel
    exact Option.isNone_iff_eq_none.mp hnone
  have hresolve : ((cacheRegistry asciiTables discSource none).resolve "/roms"
      (cueGame discCue rootedText discSource none "/roms" "game" "Disc")).toOption.isNone
        = true := by decide +kernel
  have hcached : ¬ CachedAsListed discCue rootedText discSource none "/roms" "game" "Disc" := by
    rintro ⟨resolved, hok, -⟩
    rw [hok] at hresolve
    cases hresolve
  exact ⟨hcatalog, hregistry, hcomplete, hcached, fun h => hcached (h.2 hcomplete)⟩

end RomCloud.Cache
