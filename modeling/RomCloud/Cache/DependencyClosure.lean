import RomCloud.Cache.Dependencies

namespace RomCloud.Cache

open RomCloud.Lib Relation

/-!
# The closure of the references

What a walk keeps: the paths it has listed are those it is still on (the ancestry) and those it is
done with.  From a path that is done every path of references ends, and stays in the list.

* `Listed` — the invariant of the list;
* `Opens` — what holds of a visit;
* `walkStep_spec`, `walk_spec` — a visit keeps the list, and lists what it is for, or has found a
  cycle;
* `SameTargets` — references that differ only in what is required where;
* `resolve_closure` — the result is the least closed set.
-/

namespace DependencyResolverRegistry

variable (registry : DependencyResolverRegistry) (root system primaryPath : String)

/-! ### The invariant -/

/-- The list of assets, while the paths of `ancestry` are being followed. -/
structure Listed (roots : Set String) (ancestry : List String) (assets : List GameAsset) :
    Prop where
  nodup : (assetPaths assets).Nodup
  onPath : ∀ path ∈ ancestry, path ∈ assetPaths assets
  done : ∀ path ∈ assetPaths assets, path ∉ ancestry →
    Acc (flip (registry.Refers root system)) path ∧
      ∀ reference, registry.References root path reference →
        ∃ next, targetOf system path reference = .ok next ∧
          (reference.required = true ∨ registry.Exists root next → next ∈ assetPaths assets)
  reached : ∀ path ∈ assetPaths assets, path ∈ Reached (registry.Refers root system) roots
  normal : ∀ path ∈ assetPaths assets, Normal system path
  entry : ∀ path ∈ assetPaths assets,
    ∃ entry, registry.entryOf root path = some entry ∧ entry.isSymlink = false
  first : assets = [] ∨ ∃ first rest, assets = first :: rest ∧ first.isPrimary = true ∧
    validateCatalogPath system primaryPath = .ok first.relativePath ∧
    ∀ asset ∈ rest, asset.isPrimary = false
  limit : assets.length ≤ registry.maxDependencies + 1

/-- A visit to a path that a root or the last path of the ancestry asks for. -/
structure Opens (roots : Set String) (ancestry : List String) (visit : Visit)
    (assets : List GameAsset) : Prop where
  onPath : visit.ancestry = ancestry
  primary : visit.isPrimary = true ↔ assets = []
  first : assets = [] → visit.relativePath = primaryPath
  reached : ∀ path, validateCatalogPath system visit.relativePath = .ok path →
    registry.Exists root path → path ∈ Reached (registry.Refers root system) roots
  back : ∀ path, validateCatalogPath system visit.relativePath = .ok path →
    registry.Exists root path → ∀ before ∈ ancestry,
      TransGen (registry.Refers root system) before path

/-- What a visit has done. -/
structure Visited (roots : Set String) (ancestry : List String) (visit : Visit)
    (assets result : List GameAsset) : Prop where
  listed : registry.Listed root system primaryPath roots ancestry result
  kept : ∀ path ∈ assetPaths assets, path ∈ assetPaths result
  target : ∃ path, validateCatalogPath system visit.relativePath = .ok path ∧ path ∉ ancestry ∧
    (visit.required = true ∨ registry.Exists root path → path ∈ assetPaths result)

/-- A visit, started on a list, keeps the list and lists what it is for, or has found a cycle. -/
def Walks (roots : Set String)
    (descend : Visit → List GameAsset → Except DependencyError (List GameAsset)) : Prop :=
  ∀ ancestry visit assets, registry.Listed root system primaryPath roots ancestry assets →
    registry.Opens root system primaryPath roots ancestry visit assets →
    (∀ result, descend visit assets = .ok result →
      registry.Visited root system primaryPath roots ancestry visit assets result) ∧
    ∀ chain, descend visit assets = .error (.cycle chain) →
      Cyclic (registry.Refers root system) roots

variable {registry root system primaryPath} {roots : Set String} {ancestry : List String}
variable {visit : Visit} {assets : List GameAsset}

theorem mem_assetPaths_append {path : String} {asset : GameAsset} :
    path ∈ assetPaths (assets ++ [asset])
      ↔ path ∈ assetPaths assets ∨ path = asset.relativePath := by
  rw [assetPaths, List.map_append, List.mem_append, List.map_singleton, List.mem_singleton]
  rfl

/-! ### One more asset -/

/-- An asset that was found, listed while it is followed. -/
theorem Listed.append (h : registry.Listed root system primaryPath roots ancestry assets)
    (hopens : registry.Opens root system primaryPath roots ancestry visit assets)
    {asset : GameAsset}
    (hpath : validateCatalogPath system visit.relativePath = .ok asset.relativePath)
    (hfound : Found registry root primaryPath visit assets asset) :
    registry.Listed root system primaryPath roots (ancestry ++ [asset.relativePath])
      (assets ++ [asset]) := by
  obtain ⟨hfresh, hcount, ⟨entry, hentry, hlink⟩, hprimary⟩ := hfound
  have hexists : registry.Exists root asset.relativePath := by
    rw [Exists, hentry]
    rfl
  have hnormal := normal_of_validate hpath
  refine ⟨?_, ?_, ?_, ?_, ?_, ?_, ?_, ?_⟩
  · rw [assetPaths, List.map_append, List.map_singleton, List.nodup_append]
    refine ⟨h.nodup, List.nodup_singleton _, ?_⟩
    intro path hmem other hother heq
    rw [List.mem_singleton] at hother
    exact hfresh (hother ▸ heq ▸ hmem)
  · intro path hmem
    rw [mem_assetPaths_append]
    exact (List.mem_append.mp hmem).imp (h.onPath path) List.mem_singleton.mp
  · intro path hmem hopen
    rw [List.mem_append, not_or, List.mem_singleton] at hopen
    have hold := (mem_assetPaths_append.mp hmem).resolve_right hopen.2
    obtain ⟨hacc, hnext⟩ := h.done path hold hopen.1
    refine ⟨hacc, fun reference hreference => ?_⟩
    obtain ⟨next, htarget, hin⟩ := hnext reference hreference
    exact ⟨next, htarget, fun hneeded => mem_assetPaths_append.mpr (Or.inl (hin hneeded))⟩
  · intro path hmem
    rcases mem_assetPaths_append.mp hmem with hold | rfl
    · exact h.reached path hold
    · exact hopens.reached _ hpath hexists
  · intro path hmem
    rcases mem_assetPaths_append.mp hmem with hold | rfl
    · exact h.normal path hold
    · exact hnormal
  · intro path hmem
    rcases mem_assetPaths_append.mp hmem with hold | rfl
    · exact h.entry path hold
    · exact ⟨entry, hentry, hlink⟩
  · right
    rcases h.first with rfl | ⟨first, rest, rfl, hfirst, hprime, hrest⟩
    · refine ⟨asset, [], rfl, ?_, ?_, by simp⟩
      · rw [hprimary]
        exact hopens.primary.mpr rfl
      · rw [← hopens.first rfl]
        exact hpath
    · refine ⟨first, rest ++ [asset], rfl, hfirst, hprime, ?_⟩
      intro other hmem
      rcases List.mem_append.mp hmem with hin | hlast
      · exact hrest other hin
      · rw [List.mem_singleton.mp hlast, hprimary]
        cases hvisit : visit.isPrimary with
        | false => rfl
        | true => exact absurd (hopens.primary.mp hvisit) (by simp)
  · rw [List.length_append, List.length_singleton]
    rcases h.first with rfl | ⟨first, rest, hassets, -, hprime, -⟩
    · show 0 + 1 ≤ _
      omega
    · have hne : asset.relativePath ≠ primaryPath := by
        intro heq
        -- the primary is listed first, under its normal form
        rw [← heq, hnormal.validate] at hprime
        apply hfresh
        rw [hassets, Except.ok.inj hprime]
        exact List.mem_cons_self
      have := hcount hne
      omega

/-- Once all that an asset refers to is done, the asset is. -/
theorem Listed.close {path : String}
    (h : registry.Listed root system primaryPath roots (ancestry ++ [path]) assets)
    (hnext : ∀ reference, registry.References root path reference →
      ∃ next, targetOf system path reference = .ok next ∧ next ∉ ancestry ++ [path] ∧
        (reference.required = true ∨ registry.Exists root next → next ∈ assetPaths assets)) :
    registry.Listed root system primaryPath roots ancestry assets := by
  refine { h with onPath := fun p hp => h.onPath p (List.mem_append_left _ hp), done := ?_ }
  intro p hp hopen
  by_cases heq : p = path
  · subst heq
    refine ⟨⟨_, ?_⟩, fun reference hreference => ?_⟩
    · rintro next ⟨reference, hreference, htarget, hneeded⟩
      obtain ⟨found, hfound, hout, hin⟩ := hnext reference hreference
      rw [htarget] at hfound
      obtain rfl := Except.ok.inj hfound
      exact (h.done next (hin hneeded) hout).1
    · obtain ⟨next, htarget, -, hin⟩ := hnext reference hreference
      exact ⟨next, htarget, hin⟩
  · refine h.done p hp ?_
    rw [List.mem_append, List.mem_singleton, not_or]
    exact ⟨hopen, heq⟩

/-- With no path being followed, the list is closed. -/
theorem Listed.next_mem (h : registry.Listed root system primaryPath roots [] assets)
    {path next : String} (hpath : path ∈ assetPaths assets)
    (hrefers : registry.Refers root system path next) : next ∈ assetPaths assets := by
  obtain ⟨reference, hreference, htarget, hneeded⟩ := hrefers
  obtain ⟨found, hfound, hin⟩ := (h.done path hpath List.not_mem_nil).2 reference hreference
  rw [htarget] at hfound
  obtain rfl := Except.ok.inj hfound
  exact hin hneeded

/-! ### A visit -/

/-- The next reference of a descriptor opens a visit. -/
theorem opens_child {descriptor child : String} {reference : DependencyReference}
    {visit : Visit} (h : registry.Opens root system primaryPath roots ancestry visit assets)
    (hpath : validateCatalogPath system visit.relativePath = .ok descriptor)
    (hexists : registry.Exists root descriptor)
    (hreference : registry.References root descriptor reference)
    (hchild : resolveReference descriptor reference.path system = .ok child)
    {listed : List GameAsset} (hlisted : listed ≠ []) :
    registry.Opens root system primaryPath roots (ancestry ++ [descriptor])
      ⟨child, false, ancestry ++ [descriptor], none, reference.required⟩ listed := by
  have hrefers : ∀ path, validateCatalogPath system child = .ok path →
      registry.Exists root path → registry.Refers root system descriptor path := by
    intro path htarget hthere
    refine ⟨reference, hreference, ?_, Or.inr hthere⟩
    rw [targetOf, hchild]
    exact htarget
  refine ⟨rfl, ?_, fun hnil => absurd hnil hlisted, ?_, ?_⟩
  · exact iff_of_false Bool.false_ne_true hlisted
  · intro path htarget hthere
    exact Reached.step (h.reached descriptor hpath hexists) (hrefers path htarget hthere)
  · intro path htarget hthere before hbefore
    rcases List.mem_append.mp hbefore with hin | hlast
    · exact (h.back descriptor hpath hexists before hin).tail (hrefers path htarget hthere)
    · rw [List.mem_singleton.mp hlast]
      exact TransGen.single (hrefers path htarget hthere)

/-- **The loop over the references** of a descriptor that has been listed. -/
theorem follow_spec {descend : Visit → List GameAsset → Except DependencyError (List GameAsset)}
    (hdescend : registry.Walks root system primaryPath roots descend) {descriptor : String}
    {visit : Visit} {found : List GameAsset}
    (h : registry.Opens root system primaryPath roots ancestry visit assets)
    (hpath : validateCatalogPath system visit.relativePath = .ok descriptor)
    (hexists : registry.Exists root descriptor) (hfound : found ≠ [])
    (hlisted : registry.Listed root system primaryPath roots (ancestry ++ [descriptor]) found)
    {references : List DependencyReference}
    (hreferences : ∀ reference ∈ references, registry.References root descriptor reference) :
    (∀ result, references.foldlM (follow system descend descriptor ancestry) found = .ok result →
      registry.Listed root system primaryPath roots (ancestry ++ [descriptor]) result ∧
      (∀ path ∈ assetPaths found, path ∈ assetPaths result) ∧
      ∀ reference ∈ references, ∃ path, targetOf system descriptor reference = .ok path ∧
        path ∉ ancestry ++ [descriptor] ∧
        (reference.required = true ∨ registry.Exists root path → path ∈ assetPaths result)) ∧
    ∀ error, references.foldlM (follow system descend descriptor ancestry) found = .error error →
      ∀ chain, error = .cycle chain → Cyclic (registry.Refers root system) roots := by
  refine @foldlM_progress _ _ _ _ (fun done list =>
    registry.Listed root system primaryPath roots (ancestry ++ [descriptor]) list ∧
    (∀ path ∈ assetPaths found, path ∈ assetPaths list) ∧
    ∀ reference ∈ done, ∃ path, targetOf system descriptor reference = .ok path ∧
      path ∉ ancestry ++ [descriptor] ∧
      (reference.required = true ∨ registry.Exists root path → path ∈ assetPaths list)) _ _ ?_ _
    ⟨hlisted, fun path hmem => hmem, by simp⟩
  rintro done reference rest hsplit list ⟨hlist, hkept, hdone⟩
  have hreference := hreferences reference (by rw [hsplit]; simp)
  have hne : list ≠ [] := by
    rintro rfl
    obtain ⟨first, others, rfl⟩ := List.exists_cons_of_ne_nil hfound
    exact absurd (hkept first.relativePath List.mem_cons_self) (by simp [assetPaths])
  unfold follow
  cases hchild : resolveReference descriptor reference.path system with
  | error error =>
    refine ⟨fun result hresult => absurd hresult (by simp [bind, Except.bind]), ?_⟩
    rintro error' herror chain rfl
    obtain rfl : error = .cycle chain := by simpa [bind, Except.bind] using herror
    exact absurd hchild (resolveReference_ne_cycle _ _ _ _)
  | ok child =>
    rw [ok_bind]
    obtain ⟨hok, hcycle⟩ := hdescend _ _ list hlist
      (opens_child h hpath hexists hreference hchild hne)
    refine ⟨?_, fun error herror chain heq => hcycle chain (heq ▸ herror)⟩
    intro result hresult
    obtain ⟨hlisted', hkept', path, htarget, hopen, hadded⟩ := hok result hresult
    refine ⟨hlisted', fun p hp => hkept' p (hkept p hp), ?_⟩
    intro other hmem
    rcases List.mem_append.mp hmem with hin | hlast
    · obtain ⟨p, hp, hout, hthere⟩ := hdone other hin
      exact ⟨p, hp, hout, fun hneeded => hkept' p (hthere hneeded)⟩
    · rw [List.mem_singleton.mp hlast]
      refine ⟨path, ?_, hopen, hadded⟩
      rw [targetOf, hchild]
      exact htarget

/-- **One visit.** -/
theorem walkStep_spec {exceeded : Bool}
    {descend : Visit → List GameAsset → Except DependencyError (List GameAsset)}
    (hdescend : exceeded = false → registry.Walks root system primaryPath roots descend) :
    registry.Walks root system primaryPath roots
      (registry.walkStep root system primaryPath exceeded descend) := by
  intro ancestry visit assets hlisted hopens
  unfold walkStep
  cases harrive : registry.arrive root system primaryPath exceeded visit assets with
  | error error =>
    refine ⟨fun result hresult => absurd hresult (by simp [bind, Except.bind]), ?_⟩
    intro chain hchain
    obtain rfl : error = .cycle chain := by simpa [bind, Except.bind] using hchain
    -- the visit came back to a path it is on, which is there
    obtain ⟨path, hpath, hmem⟩ := arrive_eq_cycle harrive
    rw [hopens.onPath] at hmem
    have hin := hlisted.onPath path hmem
    obtain ⟨entry, hentry, -⟩ := hlisted.entry path hin
    have hexists : registry.Exists root path := by
      rw [Exists, hentry]
      rfl
    exact ⟨path, hlisted.reached path hin, hopens.back path hpath hexists path hmem⟩
  | ok arrival =>
    rw [ok_bind]
    obtain ⟨path, hpath, hopen, harrives⟩ := arrive_eq_ok harrive
    rw [hopens.onPath] at hopen
    cases harrives with
    | listed hin =>
      refine ⟨?_, fun chain hchain => by cases hchain⟩
      intro result hresult
      obtain rfl := Except.ok.inj hresult
      exact ⟨hlisted, fun p hp => hp, path, hpath, hopen, fun _ => hin⟩
    | missing hgone hoptional =>
      refine ⟨?_, fun chain hchain => by cases hchain⟩
      intro result hresult
      obtain rfl := Except.ok.inj hresult
      refine ⟨hlisted, fun p hp => hp, path, hpath, hopen, ?_⟩
      rintro (hrequired | hthere)
      · rw [hoptional] at hrequired
        cases hrequired
      · exact absurd hthere hgone
    | leaf asset hasset hfound hnone =>
      subst hasset
      refine ⟨?_, fun chain hchain => by cases hchain⟩
      intro result hresult
      obtain rfl := Except.ok.inj hresult
      refine ⟨(hlisted.append hopens hpath hfound).close ?_,
        fun p hp => mem_assetPaths_append.mpr (Or.inl hp), _, hpath, hopen,
        fun _ => mem_assetPaths_append.mpr (Or.inr rfl)⟩
      exact fun reference hreference => absurd hreference (hnone reference)
    | descriptor asset references hasset hlevel hfound hreferences =>
      subst hasset
      dsimp only
      rw [hopens.onPath]
      have hexists : registry.Exists root asset.relativePath := by
        obtain ⟨entry, hentry, -⟩ := hfound.entry
        rw [Exists, hentry]
        rfl
      obtain ⟨hok, hcycle⟩ := follow_spec (hdescend hlevel) hopens hpath hexists (by simp)
        (hlisted.append hopens hpath hfound)
        (fun reference hmem => (hreferences reference).mpr hmem)
      refine ⟨?_, fun chain hchain => hcycle _ hchain chain rfl⟩
      intro result hresult
      obtain ⟨hresult', hkept, hadded⟩ := hok result hresult
      refine ⟨hresult'.close ?_,
        fun p hp => hkept p (mem_assetPaths_append.mpr (Or.inl hp)), _, hpath, hopen,
        fun _ => hkept _ (mem_assetPaths_append.mpr (Or.inr rfl))⟩
      exact fun reference hreference => hadded reference ((hreferences reference).mp hreference)

/-- **The recursion**, on whatever level it is. -/
theorem walk_spec (left : ℕ) :
    registry.Walks root system primaryPath roots (registry.walk root system primaryPath left) := by
  induction left with
  | zero => exact walkStep_spec nofun
  | succ left ih => exact walkStep_spec fun _ => ih

/-! ### The roots -/

variable {gameRoot : String} {game resolved : Game} {primary : GameAsset}

theorem primary_mem (h : game.primaryAsset = some primary) : primary ∈ game.assets := by
  unfold Game.primaryAsset at h
  rcases Option.or_eq_some_iff.mp h with hfound | ⟨-, hhead⟩
  · exact List.mem_of_find?_eq_some hfound
  · exact List.mem_of_mem_head? hhead

/-- A visit to a catalog asset, which no path leads to. -/
theorem opens_root {visit : Visit} {asset : GameAsset} (hasset : asset ∈ game.assets)
    (hpath : visit.relativePath = asset.relativePath) (hancestry : visit.ancestry = [])
    (hprimary : visit.isPrimary = true ↔ assets = [])
    (hfirst : assets = [] → visit.relativePath = primaryPath) :
    registry.Opens root game.system primaryPath (catalogPaths game) [] visit assets := by
  refine ⟨hancestry, hprimary, hfirst, ?_, by simp⟩
  intro path htarget _
  rw [hpath] at htarget
  exact Reached.root ⟨asset, hasset, htarget⟩

/-- **The loop over the catalog assets.** -/
theorem walkCatalog_spec
    (h : registry.Listed root game.system primaryPath (catalogPaths game) [] assets)
    (hne : assets ≠ []) :
    (∀ result, game.assets.foldlM (registry.walkCatalog root game.system primaryPath) assets
        = .ok result →
      registry.Listed root game.system primaryPath (catalogPaths game) [] result ∧
      result ≠ [] ∧ ∀ asset ∈ game.assets, ∃ path,
        validateCatalogPath game.system asset.relativePath = .ok path ∧
        path ∈ assetPaths result) ∧
    ∀ error, game.assets.foldlM (registry.walkCatalog root game.system primaryPath) assets
        = .error error →
      ∀ chain, error = .cycle chain →
        Cyclic (registry.Refers root game.system) (catalogPaths game) := by
  refine @foldlM_progress _ _ _ (registry.walkCatalog root game.system primaryPath)
    (fun done list =>
      registry.Listed root game.system primaryPath (catalogPaths game) [] list ∧
      list ≠ [] ∧ ∀ asset ∈ done, ∃ path,
        validateCatalogPath game.system asset.relativePath = .ok path ∧ path ∈ assetPaths list)
    (fun error => ∀ chain, error = .cycle chain →
      Cyclic (registry.Refers root game.system) (catalogPaths game))
    game.assets ?_ assets ⟨h, hne, by simp⟩
  rintro done asset rest hsplit list ⟨hlist, hlistNe, hdone⟩
  unfold walkCatalog
  by_cases hin : asset.relativePath ∈ assetPaths list
  · rw [if_pos hin]
    refine ⟨?_, nofun⟩
    intro result hresult
    obtain rfl := Except.ok.inj hresult
    refine ⟨hlist, hlistNe, ?_⟩
    intro other hmem
    rcases List.mem_append.mp hmem with hold | hlast
    · exact hdone other hold
    · rw [List.mem_singleton.mp hlast]
      exact ⟨_, (hlist.normal _ hin).validate, hin⟩
  · rw [if_neg hin]
    have hasset : asset ∈ game.assets := by
      rw [hsplit]
      simp
    obtain ⟨hok, hcycle⟩ := @walk_spec registry root game.system primaryPath (catalogPaths game)
      registry.maxDepth [] ⟨asset.relativePath, false, [], some asset, true⟩ list hlist
      (opens_root hasset rfl rfl (iff_of_false Bool.false_ne_true hlistNe)
        fun hnil => absurd hnil hlistNe)
    refine ⟨?_, fun error herror chain heq => hcycle chain (heq ▸ herror)⟩
    intro result hresult
    obtain ⟨hlisted, hkept, path, htarget, -, hadded⟩ := hok result hresult
    refine ⟨hlisted, ?_, ?_⟩
    · rintro rfl
      obtain ⟨first, others, rfl⟩ := List.exists_cons_of_ne_nil hlistNe
      exact absurd (hkept first.relativePath List.mem_cons_self) (by simp [assetPaths])
    · intro other hmem
      rcases List.mem_append.mp hmem with hold | hlast
      · obtain ⟨p, hp, hthere⟩ := hdone other hold
        exact ⟨p, hp, hkept p hthere⟩
      · rw [List.mem_singleton.mp hlast]
        exact ⟨path, htarget, hadded (Or.inl rfl)⟩

/-- What `resolve` has done: the list is closed, and holds every catalog asset. -/
structure Complete (registry : DependencyResolverRegistry) (root : String) (game : Game)
    (primary : GameAsset) (assets : List GameAsset) : Prop where
  listed : registry.Listed root game.system primary.relativePath (catalogPaths game) [] assets
  catalog : ∀ asset ∈ game.assets, ∃ path,
    validateCatalogPath game.system asset.relativePath = .ok path ∧ path ∈ assetPaths assets
  nonempty : assets ≠ []

/-- **A whole run**: it returns a complete list, or has found a cycle, or fails otherwise. -/
theorem resolve_spec :
    (∀ resolved, registry.resolve gameRoot game = .ok resolved → ∃ primary,
      game.primaryAsset = some primary ∧ resolved = { game with assets := resolved.assets } ∧
      Complete registry (registry.rootOf gameRoot) game primary resolved.assets) ∧
    ∀ chain, registry.resolve gameRoot game = .error (.cycle chain) →
      Cyclic (registry.Refers (registry.rootOf gameRoot) game.system) (catalogPaths game) := by
  unfold resolve
  cases hprimary : game.primaryAsset with
  | none => exact ⟨nofun, nofun⟩
  | some primary =>
    dsimp only
    obtain ⟨root, hroot⟩ : ∃ root, root = registry.rootOf gameRoot := ⟨_, rfl⟩
    rw [← hroot]
    have hstart : registry.Listed root game.system primary.relativePath (catalogPaths game) []
        [] := by
      refine ⟨List.nodup_nil, ?_, ?_, ?_, ?_, ?_, Or.inl rfl, Nat.zero_le _⟩ <;>
        simp [assetPaths]
    obtain ⟨hok, hcycle⟩ := @walk_spec registry root game.system primary.relativePath
      (catalogPaths game) registry.maxDepth [] ⟨primary.relativePath, true, [], some primary, true⟩
      [] hstart
      (opens_root (primary_mem hprimary) rfl rfl (iff_of_true rfl rfl) fun _ => rfl)
    cases hwalk : registry.walk root game.system primary.relativePath registry.maxDepth
        ⟨primary.relativePath, true, [], some primary, true⟩ [] with
    | error error =>
      refine ⟨fun resolved h => absurd h (by simp [bind, Except.bind]), ?_⟩
      intro chain hchain
      obtain rfl : error = .cycle chain := by simpa [bind, Except.bind] using hchain
      exact hcycle chain hwalk
    | ok assets =>
      rw [ok_bind]
      obtain ⟨hlisted, -, path, -, -, hadded⟩ := hok assets hwalk
      have hne : assets ≠ [] := by
        rintro rfl
        exact absurd (hadded (Or.inl rfl)) (by simp [assetPaths])
      obtain ⟨hok', hcycle'⟩ := walkCatalog_spec hlisted hne
      cases hcatalog : game.assets.foldlM
          (registry.walkCatalog root game.system primary.relativePath) assets with
      | error error =>
        refine ⟨fun resolved h => absurd h (by simp [bind, Except.bind]), ?_⟩
        intro chain hchain
        obtain rfl : error = .cycle chain := by simpa [bind, Except.bind] using hchain
        exact hcycle' _ hcatalog chain rfl
      | ok result =>
        rw [ok_bind]
        refine ⟨?_, nofun⟩
        intro resolved hresolved
        obtain rfl := Except.ok.inj hresolved
        obtain ⟨hlisted', hne', hall⟩ := hok' result hcatalog
        exact ⟨primary, rfl, rfl, hlisted', hall, hne'⟩

/-! ### What is required where -/

/-- The registry with other resolvers. -/
def withResolvers (registry : DependencyResolverRegistry) (resolvers : List (String × Resolver)) :
    DependencyResolverRegistry :=
  { registry with resolvers := resolvers }

/-- The paths in a descriptor, whether they are required or not. -/
def referencePaths (registry : DependencyResolverRegistry) (path text : String) :
    Option (Except String (List String)) :=
  (registry.resolverOf path).map fun resolver =>
    (resolver path text).map (List.map DependencyReference.path)

/-- A path that is required by a reference of the closure. -/
def Requires (registry : DependencyResolverRegistry) (root : String) (game : Game)
    (path : String) : Prop :=
  ∃ descriptor ∈ Reached (registry.Refers root game.system) (catalogPaths game),
    ∃ reference, registry.References root descriptor reference ∧ reference.required = true ∧
      targetOf game.system descriptor reference = .ok path

/-- Two registries that find the same paths in the same order, and of which each requires what the
    other does, though elsewhere. -/
structure SameTargets (registry other : DependencyResolverRegistry) (root : String) (game : Game) :
    Prop where
  paths : ∀ path text, registry.referencePaths path text = other.referencePaths path text
  requires : ∀ path, registry.Requires root game path ↔ other.Requires root game path

theorem SameTargets.symm {other : DependencyResolverRegistry}
    (h : SameTargets registry other root game) : SameTargets other registry root game :=
  ⟨fun path text => (h.paths path text).symm, fun path => (h.requires path).symm⟩

section SameTargets

variable {resolvers : List (String × Resolver)}

theorem isSome_resolverOf
    (h : ∀ path text, registry.referencePaths path text
      = (registry.withResolvers resolvers).referencePaths path text) (path : String) :
    ((registry.withResolvers resolvers).resolverOf path).isSome
      = (registry.resolverOf path).isSome := by
  have := congrArg Option.isSome (h path "")
  rw [referencePaths, referencePaths, Option.isSome_map, Option.isSome_map] at this
  exact this.symm

/-- The references of one registry are those of the other, up to what is required. -/
theorem references_of_same
    (h : ∀ path text, registry.referencePaths path text
      = (registry.withResolvers resolvers).referencePaths path text) {path text : String}
    {resolver : Resolver} {references : List DependencyReference}
    (hresolver : registry.resolverOf path = some resolver)
    (hparse : resolver path text = .ok references) :
    ∃ resolver' references', (registry.withResolvers resolvers).resolverOf path = some resolver' ∧
      resolver' path text = .ok references' ∧
      references.map DependencyReference.path = references'.map DependencyReference.path := by
  have hpaths := h path text
  rw [referencePaths, referencePaths, hresolver, Option.map_some, hparse] at hpaths
  cases hresolver' : (registry.withResolvers resolvers).resolverOf path with
  | none => simp [hresolver'] at hpaths
  | some resolver' =>
    rw [hresolver', Option.map_some] at hpaths
    have hpaths := Option.some.inj hpaths
    obtain ⟨references', hparse', heq⟩ := map_eq_ok hpaths.symm
    exact ⟨resolver', references', rfl, hparse', heq.symm⟩

theorem Refers.of_same
    (h : ∀ path text, registry.referencePaths path text
      = (registry.withResolvers resolvers).referencePaths path text) {path next : String}
    (hrefers : registry.Refers root system path next) (hexists : registry.Exists root next) :
    (registry.withResolvers resolvers).Refers root system path next := by
  obtain ⟨reference, ⟨hthere, resolver, text, references, hresolver, hread, hparse, hmem⟩,
    htarget, -⟩ := hrefers
  obtain ⟨resolver', references', hresolver', hparse', hpaths⟩ :=
    references_of_same h hresolver hparse
  have hin : reference.path ∈ references'.map DependencyReference.path := by
    rw [← hpaths]
    exact List.mem_map_of_mem hmem
  obtain ⟨reference', hmem', hpath⟩ := List.mem_map.mp hin
  refine ⟨reference', ⟨hthere, resolver', text, references', hresolver', hread, hparse', hmem'⟩,
    ?_, Or.inr hexists⟩
  rw [targetOf, hpath]
  exact htarget

/-- An entry is found whether it is required or not; what is not there is required by neither. -/
theorem sourceEntry_of_same {path : String} {required required' : Bool}
    {found : Option RemoteEntry} (h : registry.sourceEntry root path required = .ok found)
    (hrequired : required' = true → required = true ∨ registry.Exists root path) :
    registry.sourceEntry root path required' = .ok found := by
  obtain ⟨hentry, hoptional, -⟩ := sourceEntry_eq_ok h
  cases found with
  | some entry =>
    unfold sourceEntry at h ⊢
    unfold entryOf at hentry
    cases hlist : registry.provider.listEntries root (parentPath path) with
    | error message => simp [hlist] at h
    | ok entries =>
      rw [hlist] at h hentry
      dsimp only at h hentry ⊢
      rw [hentry] at h ⊢
      exact h
  | none =>
    have hfalse : required' = false := by
      cases hreq : required' with
      | false => rfl
      | true =>
        rcases hrequired hreq with htrue | hexists
        · rw [hoptional rfl] at htrue
          cases htrue
        · rw [Exists, hentry] at hexists
          cases hexists
    rw [hfalse, ← hoptional rfl]
    exact h

/-- Arrivals that differ only in what is required. -/
inductive SameArrival : Arrival → Arrival → Prop
  | settled : SameArrival .settled .settled
  | leaf (asset : GameAsset) : SameArrival (.leaf asset) (.leaf asset)
  | descriptor (asset : GameAsset) {references references' : List DependencyReference}
      (hpaths : references.map DependencyReference.path
        = references'.map DependencyReference.path) :
      SameArrival (.descriptor asset references) (.descriptor asset references')

theorem sourceSize_of_same
    (h : ∀ path text, registry.referencePaths path text
      = (registry.withResolvers resolvers).referencePaths path text) (path : String)
    (known : Option GameAsset) (entry : RemoteEntry) :
    (registry.withResolvers resolvers).sourceSize root path known entry
      = registry.sourceSize root path known entry := by
  unfold sourceSize
  rw [isSome_resolverOf h]
  rfl

theorem descriptorReferences_of_same
    (h : ∀ path text, registry.referencePaths path text
      = (registry.withResolvers resolvers).referencePaths path text) {path : String}
    {exceeded : Bool} {entry : RemoteEntry} {size : Option ℕ} {resolver : Resolver}
    {references : List DependencyReference} (hresolver : registry.resolverOf path = some resolver)
    (hreferences : registry.descriptorReferences root exceeded path entry size resolver
      = .ok references) :
    ∃ resolver' references', (registry.withResolvers resolvers).resolverOf path = some resolver' ∧
      (registry.withResolvers resolvers).descriptorReferences root exceeded path entry size
        resolver' = .ok references' ∧
      references.map DependencyReference.path = references'.map DependencyReference.path := by
  obtain ⟨-, text, hread, hparse⟩ := descriptorReferences_eq_ok hreferences
  obtain ⟨resolver', references', hresolver', hparse', hpaths⟩ :=
    references_of_same h hresolver hparse
  refine ⟨resolver', references', hresolver', ?_, hpaths⟩
  -- the checks before the resolver are the same
  unfold descriptorReferences at hreferences ⊢
  split at hreferences
  · cases hreferences
  next hdirectory =>
    split at hreferences
    · cases hreferences
    next hlevel =>
      split at hreferences
      · cases hreferences
      next hsize =>
        have hread' : (registry.withResolvers resolvers).provider.readText root path = .ok text :=
          hread
        rw [if_neg hdirectory, if_neg hlevel]
        refine (if_neg hsize).trans ?_
        rw [hread']
        dsimp only
        rw [hparse']

/-- **The same arrival**, where no path that is missing becomes required. -/
theorem arrive_of_same
    (h : ∀ path text, registry.referencePaths path text
      = (registry.withResolvers resolvers).referencePaths path text) {exceeded required : Bool}
    {visit : Visit} {arrival : Arrival}
    (harrive : registry.arrive root system primaryPath exceeded visit assets = .ok arrival)
    (hrequired : required = true → visit.required = true ∨
      ∀ path, validateCatalogPath system visit.relativePath = .ok path →
        registry.Exists root path) :
    ∃ arrival', (registry.withResolvers resolvers).arrive root system primaryPath exceeded
        { visit with required := required } assets = .ok arrival' ∧
      SameArrival arrival arrival' := by
  unfold arrive at harrive ⊢
  obtain ⟨path, hpath, harrive⟩ := bind_eq_ok harrive
  rw [hpath, ok_bind]
  split at harrive
  · cases harrive
  next hancestry =>
    rw [if_neg hancestry]
    split at harrive
    · next hlisted =>
      obtain rfl := Except.ok.inj harrive
      exact ⟨_, if_pos hlisted, .settled⟩
    next hfresh =>
      rw [if_neg hfresh]
      split at harrive
      · cases harrive
      next hcount =>
        have hcount' : ¬ (path ≠ primaryPath
            ∧ (registry.withResolvers resolvers).maxDependencies + 1 ≤ assets.length) := hcount
        rw [if_neg hcount']
        obtain ⟨found, hfound, harrive⟩ := bind_eq_ok harrive
        have hfound' : (registry.withResolvers resolvers).sourceEntry root path required
            = .ok found := by
          refine sourceEntry_of_same hfound ?_
          exact fun hreq => (hrequired hreq).imp_right fun hexists => hexists path hpath
        rw [hfound', ok_bind]
        cases found with
        | none =>
          obtain rfl := Except.ok.inj harrive
          exact ⟨_, rfl, .settled⟩
        | some entry =>
          dsimp only at harrive ⊢
          obtain ⟨size, hsize, harrive⟩ := bind_eq_ok harrive
          rw [sourceSize_of_same h, hsize, ok_bind]
          cases hresolver : registry.resolverOf path with
          | none =>
            have hnone : (registry.withResolvers resolvers).resolverOf path = none := by
              have := isSome_resolverOf h path
              rw [hresolver] at this
              exact Option.isSome_eq_false_iff.mp this |> Option.isNone_iff_eq_none.mp
            rw [hresolver] at harrive
            obtain rfl := Except.ok.inj harrive
            rw [hnone]
            exact ⟨_, rfl, .leaf _⟩
          | some resolver =>
            rw [hresolver] at harrive
            obtain ⟨references, hreferences, harrive⟩ := bind_eq_ok harrive
            obtain rfl := Except.ok.inj harrive
            obtain ⟨resolver', references', hresolver', hreferences', hpaths⟩ :=
              descriptorReferences_of_same h hresolver hreferences
            rw [hresolver']
            dsimp only
            rw [hreferences', ok_bind]
            exact ⟨_, rfl, .descriptor _ hpaths⟩

/-- What was listed before stays listed. -/
def Keeps (descend : Visit → List GameAsset → Except DependencyError (List GameAsset)) : Prop :=
  ∀ visit assets result, descend visit assets = .ok result →
    ∀ path ∈ assetPaths assets, path ∈ assetPaths result

variable {descend descend' : Visit → List GameAsset → Except DependencyError (List GameAsset)}

theorem Keeps.follow (hkeeps : Keeps descend) {descriptor : String}
    {references : List DependencyReference} {found result : List GameAsset}
    (h : references.foldlM (follow system descend descriptor ancestry) found = .ok result) :
    ∀ path ∈ assetPaths found, path ∈ assetPaths result := by
  intro path hmem
  refine (foldlM_outcome (I := fun list => path ∈ assetPaths list) (E := fun _ => True) ?_
    hmem).1 result h
  intro list hlist reference _
  refine ⟨fun next hnext => ?_, fun _ _ => trivial⟩
  obtain ⟨child, -, hnext⟩ := bind_eq_ok hnext
  exact hkeeps _ _ _ hnext path hlist

theorem Keeps.walkStep (hkeeps : Keeps descend) (exceeded : Bool) :
    Keeps (registry.walkStep root system primaryPath exceeded descend) := by
  intro visit assets result hresult path hmem
  unfold DependencyResolverRegistry.walkStep at hresult
  obtain ⟨arrival, -, hresult⟩ := bind_eq_ok hresult
  cases arrival with
  | settled => exact Except.ok.inj hresult ▸ hmem
  | leaf asset =>
    rw [← Except.ok.inj hresult]
    exact mem_assetPaths_append.mpr (Or.inl hmem)
  | descriptor asset references =>
    exact hkeeps.follow hresult path (mem_assetPaths_append.mpr (Or.inl hmem))

theorem keeps_walk (left : ℕ) : Keeps (registry.walk root system primaryPath left) := by
  induction left with
  | zero =>
    refine Keeps.walkStep ?_ true
    intro _ _ _ heq
    obtain rfl := Except.ok.inj heq
    exact fun _ hp => hp
  | succ left ih => exact ih.walkStep false

/-- What a registry lists in a visit, the other lists too, as long as only paths that are there are
    required by what is listed in the end. -/
def Repeats (registry : DependencyResolverRegistry) (root system : String) (final : List String)
    (descend descend' : Visit → List GameAsset → Except DependencyError (List GameAsset)) : Prop :=
  ∀ visit required assets result, descend visit assets = .ok result →
    (∀ path ∈ assetPaths result, path ∈ final) →
    (required = true → visit.required = true ∨
      ∀ path, validateCatalogPath system visit.relativePath = .ok path →
        registry.Exists root path) →
    descend' { visit with required := required } assets = .ok result

theorem Repeats.follow {final : List String}
    (hrepeats : Repeats registry root system final descend descend') (hkeeps : Keeps descend)
    {descriptor : String} {references references' : List DependencyReference}
    (hpaths : references.map DependencyReference.path
      = references'.map DependencyReference.path)
    (htargets : ∀ reference ∈ references', reference.required = true → ∀ next,
      targetOf system descriptor reference = .ok next → registry.Exists root next)
    {found result : List GameAsset}
    (h : references.foldlM (follow system descend descriptor ancestry) found = .ok result)
    (hfinal : ∀ path ∈ assetPaths result, path ∈ final) :
    references'.foldlM (DependencyResolverRegistry.follow system descend' descriptor ancestry) found
      = .ok result := by
  induction references generalizing references' found with
  | nil =>
    obtain rfl : references' = [] := List.map_eq_nil_iff.mp hpaths.symm
    rw [List.foldlM_nil] at h ⊢
    exact h
  | cons reference rest ih =>
    cases references' with
    | nil => cases hpaths
    | cons reference' rest' =>
      rw [List.map_cons, List.map_cons, List.cons.injEq] at hpaths
      obtain ⟨hpath, hrest⟩ := hpaths
      rw [List.foldlM_cons] at h ⊢
      obtain ⟨next, hnext, h⟩ := bind_eq_ok h
      obtain ⟨child, hchild, hwalk⟩ := bind_eq_ok hnext
      have hnextFinal : ∀ path ∈ assetPaths next, path ∈ final :=
        fun path hmem => hfinal path (hkeeps.follow h path hmem)
      have hwalk' := hrepeats _ reference'.required found next hwalk hnextFinal <| by
        intro hrequired
        right
        intro path hvalid
        refine htargets reference' List.mem_cons_self hrequired path ?_
        rw [targetOf, ← hpath, hchild]
        exact hvalid
      have hfollow : DependencyResolverRegistry.follow system descend' descriptor ancestry found
          reference' = .ok next := by
        rw [DependencyResolverRegistry.follow, ← hpath, hchild, ok_bind]
        exact hwalk'
      rw [hfollow, ok_bind]
      exact ih hrest (fun other hmem => htargets other (List.mem_cons_of_mem _ hmem)) h

/-- **The same walk.** -/
theorem Repeats.walkStep {final : List String}
    (h : ∀ path text, registry.referencePaths path text
      = (registry.withResolvers resolvers).referencePaths path text)
    (hthere : ∀ path ∈ final, ∀ reference,
      (registry.withResolvers resolvers).References root path reference →
        reference.required = true → ∀ next, targetOf system path reference = .ok next →
          registry.Exists root next)
    (hrepeats : Repeats registry root system final descend descend') (hkeeps : Keeps descend)
    (exceeded : Bool) :
    Repeats registry root system final
      (registry.walkStep root system primaryPath exceeded descend)
      ((registry.withResolvers resolvers).walkStep root system primaryPath exceeded descend') := by
  intro visit required assets result hresult hfinal hrequired
  unfold DependencyResolverRegistry.walkStep at hresult ⊢
  obtain ⟨arrival, harrive, hresult⟩ := bind_eq_ok hresult
  obtain ⟨arrival', harrive', hsame⟩ := arrive_of_same h harrive hrequired
  rw [harrive', ok_bind]
  cases hsame with
  | settled => exact hresult
  | leaf asset => exact hresult
  | @descriptor asset references references' hpaths =>
    have hlisted : asset.relativePath ∈ final :=
      hfinal _ (hkeeps.follow hresult _ (mem_assetPaths_append.mpr (Or.inr rfl)))
    obtain ⟨path, -, -, harrives⟩ := arrive_eq_ok harrive'
    cases harrives with
    | descriptor _ _ hpath _ _ hreferences =>
      subst hpath
      refine hrepeats.follow hkeeps hpaths ?_ hresult hfinal
      intro reference hmem
      exact hthere _ hlisted reference ((hreferences reference).mpr hmem)

theorem repeats_walk {final : List String}
    (h : ∀ path text, registry.referencePaths path text
      = (registry.withResolvers resolvers).referencePaths path text)
    (hthere : ∀ path ∈ final, ∀ reference,
      (registry.withResolvers resolvers).References root path reference →
        reference.required = true → ∀ next, targetOf system path reference = .ok next →
          registry.Exists root next) (left : ℕ) :
    Repeats registry root system final (registry.walk root system primaryPath left)
      ((registry.withResolvers resolvers).walk root system primaryPath left) := by
  have hnothing : Keeps (fun _ assets => (.ok assets : Except DependencyError _)) := by
    intro _ _ _ heq
    obtain rfl := Except.ok.inj heq
    exact fun _ hp => hp
  induction left with
  | zero => exact Repeats.walkStep h hthere (fun _ _ _ _ heq _ _ => heq) hnothing true
  | succ left ih => exact Repeats.walkStep h hthere ih (keeps_walk left) false

theorem walkCatalog_kept {catalog : List GameAsset} {result : List GameAsset}
    (h : catalog.foldlM (registry.walkCatalog root system primaryPath) assets = .ok result) :
    ∀ path ∈ assetPaths assets, path ∈ assetPaths result := by
  intro path hmem
  refine (foldlM_outcome (I := fun list => path ∈ assetPaths list) (E := fun _ => True) ?_
    hmem).1 result h
  intro list hlist asset _
  refine ⟨fun next hnext => ?_, fun _ _ => trivial⟩
  unfold walkCatalog at hnext
  split at hnext
  · exact Except.ok.inj hnext ▸ hlist
  · exact keeps_walk _ _ _ _ hnext path hlist

theorem walkCatalog_of_same {final : List String}
    (hrepeats : Repeats registry root system final
      (registry.walk root system primaryPath registry.maxDepth)
      ((registry.withResolvers resolvers).walk root system primaryPath registry.maxDepth))
    {catalog : List GameAsset} {result : List GameAsset}
    (h : catalog.foldlM (registry.walkCatalog root system primaryPath) assets = .ok result)
    (hfinal : ∀ path ∈ assetPaths result, path ∈ final) :
    catalog.foldlM ((registry.withResolvers resolvers).walkCatalog root system primaryPath) assets
      = .ok result := by
  induction catalog generalizing assets with
  | nil =>
    rw [List.foldlM_nil] at h ⊢
    exact h
  | cons asset rest ih =>
    rw [List.foldlM_cons] at h ⊢
    obtain ⟨next, hnext, h⟩ := bind_eq_ok h
    have hnext' : (registry.withResolvers resolvers).walkCatalog root system primaryPath assets
        asset = .ok next := by
      unfold walkCatalog at hnext ⊢
      split at hnext
      · next hin =>
        rw [if_pos hin]
        exact hnext
      · next hnot =>
        rw [if_neg hnot]
        exact hrepeats _ true assets next hnext
          (fun path hmem => hfinal path (walkCatalog_kept h path hmem)) fun _ => Or.inl rfl
    rw [hnext', ok_bind]
    exact ih h

theorem Complete.root_mem {assets : List GameAsset}
    (h : Complete registry root game primary assets) {path : String}
    (hroot : path ∈ catalogPaths game) : path ∈ assetPaths assets := by
  obtain ⟨asset, hasset, hpath⟩ := hroot
  obtain ⟨found, hfound, hin⟩ := h.catalog asset hasset
  rw [hpath] at hfound
  exact Except.ok.inj hfound ▸ hin

theorem Complete.closed {assets : List GameAsset}
    (h : Complete registry root game primary assets) :
    Closed (registry.Refers root game.system) (catalogPaths game)
      {path | path ∈ assetPaths assets} :=
  ⟨fun hroot => h.root_mem hroot, fun hpath hrefers => h.listed.next_mem hpath hrefers⟩

theorem Complete.exists {assets : List GameAsset}
    (h : Complete registry root game primary assets) {path : String}
    (hpath : path ∈ assetPaths assets) : registry.Exists root path := by
  obtain ⟨entry, hentry, -⟩ := h.listed.entry path hpath
  rw [Exists, hentry]
  rfl

/-- **The result does not depend on which of the references to a path requires it.** -/
theorem resolve_of_same
    (h : SameTargets registry (registry.withResolvers resolvers) (registry.rootOf gameRoot) game)
    (hresolve : registry.resolve gameRoot game = .ok resolved) :
    (registry.withResolvers resolvers).resolve gameRoot game = .ok resolved := by
  obtain ⟨primary, hprimary, -, hcomplete⟩ := resolve_spec.1 resolved hresolve
  obtain ⟨root, hroot⟩ : ∃ root, root = registry.rootOf gameRoot := ⟨_, rfl⟩
  have hroot' : (registry.withResolvers resolvers).rootOf gameRoot = root := hroot.symm
  rw [← hroot] at h hcomplete
  -- what one registry reaches, the other reaches too
  have hreached : ∀ path ∈ assetPaths resolved.assets,
      path ∈ Reached ((registry.withResolvers resolvers).Refers root game.system)
        (catalogPaths game) := by
    intro path hmem
    obtain ⟨start, hstart, hpath⟩ := hcomplete.listed.reached path hmem
    suffices hboth : path ∈ assetPaths resolved.assets ∧ path ∈ Reached
        ((registry.withResolvers resolvers).Refers root game.system) (catalogPaths game) from
      hboth.2
    induction hpath with
    | refl => exact ⟨hcomplete.root_mem hstart, Reached.root hstart⟩
    | @tail middle last hbefore hrefers ih =>
      have hmiddle : middle ∈ assetPaths resolved.assets :=
        hcomplete.closed.of_path (hcomplete.root_mem hstart) hbefore
      have hlast := hcomplete.listed.next_mem hmiddle hrefers
      exact ⟨hlast, Reached.step (ih hmiddle).2
        (hrefers.of_same h.paths (hcomplete.exists hlast))⟩
  have hthere : ∀ path ∈ assetPaths resolved.assets, ∀ reference,
      (registry.withResolvers resolvers).References root path reference →
        reference.required = true → ∀ next, targetOf game.system path reference = .ok next →
          registry.Exists root next := by
    intro path hmem reference hreference hrequired next htarget
    obtain ⟨descriptor, hdescriptor, other, hother, hneeded, hnext⟩ :=
      (h.requires next).mpr ⟨path, hreached path hmem, reference, hreference, hrequired, htarget⟩
    have hin : descriptor ∈ assetPaths resolved.assets := by
      obtain ⟨start, hstart, hpath⟩ := hdescriptor
      exact hcomplete.closed.of_path (hcomplete.root_mem hstart) hpath
    exact hcomplete.exists (hcomplete.listed.next_mem hin ⟨other, hother, hnext, Or.inl hneeded⟩)
  have hrepeats := @repeats_walk registry root game.system primary.relativePath resolvers _ h.paths
    hthere registry.maxDepth
  unfold resolve at hresolve ⊢
  rw [hprimary] at hresolve ⊢
  dsimp only at hresolve ⊢
  rw [← hroot] at hresolve
  rw [hroot']
  obtain ⟨assets, hwalk, hresolve⟩ := bind_eq_ok hresolve
  obtain ⟨result, hcatalog, hresolve⟩ := bind_eq_ok hresolve
  obtain rfl := Except.ok.inj hresolve
  have hwalk' : (registry.withResolvers resolvers).walk root game.system primary.relativePath
      registry.maxDepth ⟨primary.relativePath, true, [], some primary, true⟩ [] = .ok assets :=
    hrepeats ⟨primary.relativePath, true, [], some primary, true⟩ true [] assets hwalk
      (walkCatalog_kept hcatalog) fun _ => Or.inl rfl
  have hcatalog' := walkCatalog_of_same hrepeats hcatalog fun path hmem => hmem
  refine bind_eq_ok_iff.mpr ⟨assets, hwalk', ?_⟩
  exact bind_eq_ok_iff.mpr ⟨result, hcatalog', rfl⟩

end SameTargets

/-! ### The result -/

/-- What `resolve` returns: the least closed set, the primary first, each path once, in normal form,
    in the system, and no link. -/
structure Resolved (registry : DependencyResolverRegistry) (root : String)
    (game resolved : Game) : Prop where
  same : resolved = { game with assets := resolved.assets }
  least : IsLeast {paths | Closed (registry.Refers root game.system) (catalogPaths game) paths}
    {path | path ∈ assetPaths resolved.assets}
  required : ∀ descriptor ∈ assetPaths resolved.assets, ∀ reference,
    registry.References root descriptor reference → ∃ path,
      targetOf game.system descriptor reference = .ok path ∧
      (reference.required = true ∨ registry.Exists root path →
        path ∈ assetPaths resolved.assets)
  catalog : ∀ asset ∈ game.assets, ∃ path,
    validateCatalogPath game.system asset.relativePath = .ok path ∧
    path ∈ assetPaths resolved.assets
  primary : ∃ primary first rest, game.primaryAsset = some primary ∧
    resolved.assets = first :: rest ∧
    validateCatalogPath game.system primary.relativePath = .ok first.relativePath ∧
    first.isPrimary = true ∧ ∀ asset ∈ rest, asset.isPrimary = false
  nodup : (assetPaths resolved.assets).Nodup
  normal : ∀ path ∈ assetPaths resolved.assets, Normal game.system path
  entry : ∀ path ∈ assetPaths resolved.assets,
    ∃ entry, registry.entryOf root path = some entry ∧ entry.isSymlink = false
  limit : resolved.assets.length ≤ registry.maxDependencies + 1

theorem Complete.isResolved
    (hsame : resolved = { game with assets := resolved.assets })
    (hprimary : game.primaryAsset = some primary)
    (h : Complete registry root game primary resolved.assets) :
    Resolved registry root game resolved := by
  have hleast := h.closed.isLeast h.listed.reached
  refine ⟨hsame, hleast, ?_, h.catalog, ?_, h.listed.nodup, h.listed.normal, h.listed.entry,
    h.listed.limit⟩
  · intro descriptor hmem reference hreference
    exact (h.listed.done descriptor hmem List.not_mem_nil).2 reference hreference
  · obtain ⟨first, rest, hassets, hfirst, hpath, hrest⟩ := h.listed.first.resolve_left h.nonempty
    exact ⟨primary, first, rest, hprimary, hassets, hpath, hfirst, hrest⟩

/-- No path of references comes back, in what was resolved. -/
theorem Complete.not_cyclic {assets : List GameAsset}
    (h : Complete registry root game primary assets) :
    ¬ Cyclic (registry.Refers root game.system) (catalogPaths game) := by
  refine RomCloud.Lib.not_cyclic ?_
  intro path hroot
  exact (h.listed.done path (h.root_mem hroot) List.not_mem_nil).1

/-- **Dependency resolution.** For every source, every set of resolvers and every game: what is
    returned is the closure of the references; a cycle is raised exactly when one is reached and no
    other error comes first; and which of the references to a path requires it makes no
    difference. -/
theorem resolve_closure (registry : DependencyResolverRegistry) (gameRoot : String) (game : Game) :
    (∀ resolved, registry.resolve gameRoot game = .ok resolved →
      Resolved registry (registry.rootOf gameRoot) game resolved) ∧
    ((∃ chain, registry.resolve gameRoot game = .error (.cycle chain)) ↔
      Cyclic (registry.Refers (registry.rootOf gameRoot) game.system) (catalogPaths game) ∧
      ∀ error, registry.resolve gameRoot game = .error error → ∃ chain, error = .cycle chain) ∧
    ∀ resolvers,
      SameTargets registry (registry.withResolvers resolvers) (registry.rootOf gameRoot) game →
      ∀ resolved, registry.resolve gameRoot game = .ok resolved ↔
        (registry.withResolvers resolvers).resolve gameRoot game = .ok resolved := by
  obtain ⟨hok, hcycle⟩ := @resolve_spec registry gameRoot game
  refine ⟨?_, ⟨?_, ?_⟩, ?_⟩
  · intro resolved hresolved
    obtain ⟨primary, hprimary, hsame, hcomplete⟩ := hok resolved hresolved
    exact hcomplete.isResolved hsame hprimary
  · rintro ⟨chain, hchain⟩
    refine ⟨hcycle chain hchain, ?_⟩
    intro error herror
    rw [hchain] at herror
    exact ⟨chain, (Except.error.inj herror).symm⟩
  · rintro ⟨hcyclic, hother⟩
    cases hresult : registry.resolve gameRoot game with
    | ok resolved =>
      obtain ⟨primary, -, -, hcomplete⟩ := hok resolved hresult
      exact absurd hcyclic hcomplete.not_cyclic
    | error error =>
      obtain ⟨chain, rfl⟩ := hother error hresult
      exact ⟨chain, rfl⟩
  · intro resolvers hsame resolved
    refine ⟨resolve_of_same hsame, ?_⟩
    exact @resolve_of_same (registry.withResolvers resolvers) gameRoot game resolved
      registry.resolvers hsame.symm

end DependencyResolverRegistry

end RomCloud.Cache
