import RomCloud.Transfer.AssetTransfer
import RomCloud.Transfer.FileDelivery

namespace RomCloud.Transfer

open RomCloud.Lib RomCloud.Cache

/-!
# What the three passes make of an asset

* `Complete`, `Exact` — a copy that holds the files of the source, and one that holds nothing else;
* `Planned`, `planAsset_planned` — what is known of a plan when the source lists its sizes;
* `promotedSize_spec` — a final copy that is as the rows say;
* `transferDirectory_spec` — a staged package;
* `Stage`, `stageAsset_spec` — the first pass: the asset is staged, or its final copy is kept;
* `validateAsset_spec`, `promoteAsset_spec` — the other two.
-/

/-! ### Plans -/

/-- A copy holds every file of the source. -/
def Complete (source : Source) (files : List PlannedFile) (tree : FileTree Content) : Prop :=
  ∀ file ∈ files, tree.get? file.packageRelativePath
    = some (.file (source.content file.relativePath))

/-- What is known of a plan: the sizes of the source, one file or a package, and that no file is
    planned after the one that its name with `.part` belongs to. -/
structure Planned (source : Source) (plan : AssetPlan) : Prop where
  sizes : ∀ file ∈ plan.files,
    file.sizeBytes = some (source.content file.relativePath).length
  nodup : (plan.files.map PlannedFile.packageRelativePath).Nodup
  single : plan.isDirectory = false →
    ∃ file, plan.files = [file] ∧ file.packageRelativePath = ""
  named : plan.isDirectory = true → ∀ file ∈ plan.files, file.packageRelativePath ≠ ""
  order : plan.isDirectory = true → ∀ done file rest, plan.files = done ++ file :: rest →
    ∀ earlier ∈ done, earlier.packageRelativePath ≠ file.packageRelativePath ++ ".part"

/-- The source lists the files of an asset once each, with their sizes, and so does the catalog. -/
def Listed (source : Source) (asset : GameAsset) : Prop :=
  ∀ plan, planAsset source asset = .ok plan →
    (∀ file ∈ plan.files, file.sizeBytes = some (source.content file.relativePath).length)
      ∧ (plan.files.map PlannedFile.packageRelativePath).Nodup

section Plans

variable {source : Source} {asset : GameAsset} {plan : AssetPlan}

theorem Planned.withEvidence (h : Planned source plan) (evidence : Bool) :
    Planned source { plan with recoveryEvidence := evidence } :=
  ⟨h.sizes, h.nodup, h.single, h.named, h.order⟩

/-- Components that are joined are not the empty name. -/
theorem intercalate_posixParts_ne {path : String} (h : posixParts path ≠ []) :
    "/".intercalate (posixParts path) ≠ "" := by
  obtain ⟨part, rest, hparts⟩ := List.exists_cons_of_ne_nil h
  have hpart : part ≠ "" := by
    have hmem : part ∈ posixParts path := by rw [hparts]; exact List.mem_cons_self
    have hfilter := (List.mem_filter.mp hmem).2
    simp only [Bool.and_eq_true, decide_eq_true_eq, ne_eq] at hfilter
    exact hfilter.1
  rw [hparts]
  cases rest with
  | nil => rwa [String.intercalate_singleton]
  | cons next rest =>
    intro heq
    have hlength := congrArg String.length heq
    rw [String.intercalate_cons_cons] at hlength
    simp [String.length_append] at hlength

/-- The files of a package lie below its root. -/
theorem planEntry_files {root : String} {package result : Package} {entry : RemoteEntry}
    (h : planEntry root package entry = .ok result)
    (hpackage : ∀ file ∈ package.2, file.packageRelativePath ≠ ""
      ∧ file.relativePath = root ++ "/" ++ file.packageRelativePath) :
    ∀ file ∈ result.2, file.packageRelativePath ≠ ""
      ∧ file.relativePath = root ++ "/" ++ file.packageRelativePath := by
  unfold planEntry at h
  dsimp only at h
  split at h
  · exact absurd h (by simp)
  next hvalid =>
  simp only [not_or] at hvalid
  split at h
  · exact absurd h (by simp)
  split at h
  · cases h
    exact hpackage
  · cases h
    intro file hfile
    rcases List.mem_append.mp hfile with hfile | hfile
    · exact hpackage file hfile
    · rw [List.mem_singleton.mp hfile, RemoteEntry.planned_relativePath,
        RemoteEntry.planned_packageRelativePath]
      exact ⟨intercalate_posixParts_ne hvalid.2.1, Eq.refl _⟩

/-- A name sorts before a longer one that begins with it. -/
theorem lt_append {name more : String} (h : more ≠ "") : name < name ++ more := by
  rw [String.lt_iff_toList_lt, String.toList_append]
  have hmore : more.toList ≠ [] := fun hnil => h (String.toList_eq_nil_iff.mp hnil)
  induction name.toList with
  | nil =>
    obtain ⟨c, rest, hrest⟩ := List.exists_cons_of_ne_nil hmore
    rw [hrest]
    exact List.nil_lt_cons c rest
  | cons c rest ih => exact List.cons_lt_cons_iff.mpr (Or.inr ⟨rfl, ih⟩)

/-- A file that sorts before another is not named like its `.part` file. -/
theorem before_part {root : String} {f g : PlannedFile}
    (hf : f.relativePath = root ++ "/" ++ f.packageRelativePath)
    (hg : g.relativePath = root ++ "/" ++ g.packageRelativePath) (hbefore : g.before f) :
    g.packageRelativePath ≠ f.packageRelativePath ++ ".part" := by
  intro heq
  have hpath : g.relativePath = f.relativePath ++ ".part" := by
    rw [hg, hf, heq, ← String.append_assoc]
  have hlt : f.relativePath < g.relativePath := by
    rw [hpath]
    exact lt_append (by decide)
  exact absurd hbefore (not_le.mpr hlt)

/-- **Plans.** What the source lists, the plan knows. -/
theorem planAsset_planned (hplan : planAsset source asset = .ok plan)
    (hlisted : Listed source asset) :
    Planned source plan ∧ plan.asset = asset ∧ plan.recoveryEvidence = false := by
  obtain ⟨hsizes, hnodup⟩ := hlisted plan hplan
  obtain ⟨entry, -, hentry⟩ := bind_eq_ok hplan
  split at hentry
  · exact absurd hentry (by simp)
  split at hentry
  · obtain ⟨package, hpackage, hpure⟩ := bind_eq_ok hentry
    have hroot := (@foldlM_outcome TransferError Package RemoteEntry
      (planEntry (posix asset.relativePath))
      (fun package => ∀ file ∈ package.2, file.packageRelativePath ≠ ""
        ∧ file.relativePath = posix asset.relativePath ++ "/" ++ file.packageRelativePath)
      (fun _ => True) (source.walk asset.relativePath)
      (fun package hinv entry _ => ⟨fun result h => planEntry_files h hinv, fun _ _ => trivial⟩)
      ([], []) (by simp)).1 package hpackage
    cases hpure
    have hmem : ∀ file, file ∈ package.2.insertionSort PlannedFile.before → file ∈ package.2 :=
      fun file hfile => (List.mem_insertionSort _).mp hfile
    refine ⟨⟨hsizes, hnodup, fun h => absurd h (by simp), ?_, ?_⟩, rfl, rfl⟩
    · exact fun _ file hfile => (hroot file (hmem file hfile)).1
    · intro _ done file rest hsplit earlier hearlier
      -- the files are sorted
      have hsorted : (package.2.insertionSort PlannedFile.before).Pairwise PlannedFile.before :=
        List.pairwise_insertionSort _ _
      have hfiles : package.2.insertionSort PlannedFile.before = done ++ file :: rest := hsplit
      rw [hfiles] at hsorted
      have hbefore := (List.pairwise_append.mp hsorted).2.2 earlier hearlier file
        List.mem_cons_self
      refine before_part (hroot file (hmem file ?_)).2 (hroot earlier (hmem earlier ?_)).2 hbefore
      · rw [hfiles]
        exact List.mem_append_right _ List.mem_cons_self
      · rw [hfiles]
        exact List.mem_append_left _ hearlier
  · cases hentry
    refine ⟨⟨hsizes, hnodup, ?_, ?_, ?_⟩, rfl, rfl⟩
    · exact fun _ => ⟨_, rfl, rfl⟩
    · exact fun h => absurd h (by simp)
    · exact fun h => absurd h (by simp)

end Plans

/-! ### Rows and copies -/

section Copies

variable {δ μ : Type} {source : Source} {plan : AssetPlan} {s₀ s t : AssetStore δ μ}

/-- The rows of an asset are those of the plan. -/
structure Recorded (plan : AssetPlan) (s : AssetStore δ μ) : Prop where
  expected : ∀ file ∈ plan.files,
    (s.files.get? file.packageRelativePath).map FileRow.expectedSize = some file.sizeBytes
  only : ∀ name, (s.files.get? name).isSome = true →
    name ∈ plan.files.map PlannedFile.packageRelativePath

/-- The final copies and the row of the asset are as they were, and so are the sizes that are
    expected. -/
structure Framed (s₀ s : AssetStore δ μ) : Prop where
  tree : ∀ place, place = .final ∨ place = .backup → s.tree place = s₀.tree place
  asset : s.asset = s₀.asset
  expected : ∀ name, (s.files.get? name).map FileRow.expectedSize
    = (s₀.files.get? name).map FileRow.expectedSize

theorem Framed.refl (s : AssetStore δ μ) : Framed s s := ⟨fun _ _ => rfl, rfl, fun _ => rfl⟩

theorem Framed.trans (h : Framed s₀ s) (h' : Framed s t) : Framed s₀ t where
  tree := fun place hplace => (h'.tree place hplace).trans (h.tree place hplace)
  asset := h'.asset.trans h.asset
  expected := fun name => (h'.expected name).trans (h.expected name)

theorem Touched.framed {member : String} (h : Touched member s₀ s) : Framed s₀ s :=
  ⟨h.tree, h.asset, h.expected⟩

/-- A write in the staged copy. -/
theorem Framed.sets {name : String} {value : Option (Node Content)} (h : Framed s₀ s)
    (hsets : Sets (.staged, name) value s t) : Framed s₀ t := by
  refine h.trans ⟨?_, hsets.asset, fun name => by rw [hsets.files]⟩
  intro place hplace
  refine hsets.tree place ?_
  rcases hplace with rfl | rfl <;> simp

theorem Recorded.of_framed (h : Recorded plan s₀) (hframed : Framed s₀ s) : Recorded plan s := by
  refine ⟨fun file hfile => (hframed.expected _).trans (h.expected file hfile), ?_⟩
  intro name hname
  refine h.only name ?_
  rw [← Option.isSome_map (f := FileRow.expectedSize), ← hframed.expected, Option.isSome_map]
  exact hname

/-- A plan that is written again has its rows. -/
theorem recorded_replacePlan (hplan : Planned source plan)
    (manifestSha256 : List ManifestItem → μ) :
    Recorded plan (s.replacePlan manifestSha256 plan) := by
  refine ⟨?_, ?_⟩
  · intro file hfile
    show ((Dict.insertEach ∅ _ _ plan.files).get? _).map _ = _
    rw [Dict.get?_insertEach_of_mem _ _ _ hplan.nodup hfile]
    show some (plannedRow _ file.sizeBytes).expectedSize = _
    unfold plannedRow
    split <;> rfl
  · intro name hname
    by_contra hnot
    have hne : ∀ file ∈ plan.files, file.packageRelativePath ≠ name := by
      intro file hfile heq
      exact hnot (heq ▸ List.mem_map_of_mem hfile)
    have hget : (s.replacePlan manifestSha256 plan).files.get? name = none :=
      (Dict.get?_insertEach_of_ne _ _ _ hne).trans (Dict.get?_empty name)
    rw [hget] at hname
    exact absurd hname (by simp)

/-- What the row says of a file that is as its row says. -/
theorem of_nodeAsRecorded [DecidableEq δ] {sha256 : Content → δ} {file : PlannedFile}
    {node : Option (Node Content)}
    (hsize : file.sizeBytes = some (source.content file.relativePath).length)
    (hrow : (s.files.get? file.packageRelativePath).map FileRow.expectedSize = some file.sizeBytes)
    (h : nodeAsRecorded sha256 (s.files.get? file.packageRelativePath) node = true) :
    ∃ bytes, node = some (.file bytes)
      ∧ bytes.length = (source.content file.relativePath).length := by
  obtain ⟨row, hget, hexpected⟩ := Option.map_eq_some_iff.mp hrow
  rw [hget] at h
  unfold nodeAsRecorded at h
  split at h
  · next record bytes hrecord =>
    cases hrecord
    refine ⟨bytes, rfl, ?_⟩
    unfold asRecorded at h
    rw [hexpected, hsize] at h
    simp only [Option.any_some, Bool.and_eq_true, Bool.not_eq_true', decide_eq_false_iff_not,
      not_not] at h
    exact h.1.symm
  · exact absurd h (by simp)

/-- A final copy that is as the rows say has every file of the plan, with its size. -/
theorem promotedSize_spec [DecidableEq δ] {sha256 : Content → δ} (hplan : Planned source plan)
    (hrecorded : Recorded plan s) (h : (s.promotedSize sha256).isSome = true) :
    ∀ file ∈ plan.files, ∃ bytes, s.node (.final, file.packageRelativePath) = some (.file bytes)
      ∧ bytes.length = (source.content file.relativePath).length := by
  intro file hfile
  have hrow := hrecorded.expected file hfile
  unfold AssetStore.promotedSize at h
  split at h
  · exact absurd h (by simp)
  next asset hasset =>
  dsimp only at h
  split at h
  · exact absurd h (by simp)
  split at h
  · split at h
    · exact absurd h (by simp)
    next hvalid =>
    simp only [not_or, ne_eq, not_not] at hvalid
    obtain ⟨-, -, hnames, hall⟩ := hvalid
    -- the rows name the files of the copy
    have hkey : file.packageRelativePath ∈ s.files.keys := by
      rw [Dict.mem_keys_iff]
      obtain ⟨row, hget, -⟩ := Option.map_eq_some_iff.mp hrow
      exact ⟨row, hget⟩
    have hbelow : file.packageRelativePath ∈ filesBelow (s.tree .final) := by
      rw [← mem_sortedSet, hnames, mem_sortedSet]
      exact hkey
    have hrecord : nodeAsRecorded sha256 (s.files.get? file.packageRelativePath)
        ((s.tree .final).get? file.packageRelativePath) = true := by
      by_contra hnot
      refine hall (List.any_eq_true.mpr ⟨_, hbelow, ?_⟩)
      simpa using hnot
    exact of_nodeAsRecorded (hplan.sizes file hfile) hrow hrecord
  · split at h
    · next hrecord =>
      -- the row without a name is that of the only file
      have hmember : file.packageRelativePath = "" := by
        have hsome : (s.files.get? "").isSome = true := by
          unfold nodeAsRecorded at hrecord
          split at hrecord
          · next row _ hget _ => rw [hget]; rfl
          · exact absurd hrecord (by simp)
        obtain ⟨first, hfirst, hempty⟩ := List.mem_map.mp (hrecorded.only "" hsome)
        cases hdirectory : plan.isDirectory with
        | true => exact absurd hempty (hplan.named hdirectory first hfirst)
        | false =>
          obtain ⟨only, honly, hname⟩ := hplan.single hdirectory
          rw [honly, List.mem_singleton] at hfile
          rw [hfile]
          exact hname
      have hfound : nodeAsRecorded sha256 (s.files.get? file.packageRelativePath)
          ((s.tree .final).get? file.packageRelativePath) = true := by
        rw [hmember]
        exact hrecord
      exact of_nodeAsRecorded (hplan.sizes file hfile) hrow hfound
    · exact absurd h (by simp)

end Copies

/-! ### Staged packages -/

section Staging

variable {δ μ : Type} {sha256 : Content → δ} {source : Source} {env : Env Site Failure}
  {plan : AssetPlan} {s₀ s t : AssetStore δ μ} {done : List PlannedFile} {X : AssetStore δ μ → Prop}

/-- A package that is being staged: its directory is there, and so are some of its files. -/
structure Staging (source : Source) (s₀ : AssetStore δ μ) (done : List PlannedFile)
    (s : AssetStore δ μ) : Prop where
  framed : Framed s₀ s
  opened : s.node (.staged, "") = some .directory
  complete : Complete source done (s.tree .staged)

/-- A directory of the package is made. -/
theorem Staging.mkdir {name : String} (h : Staging source s₀ done s)
    (hmkdir : s.mkdir (.staged, name) = some t) : Staging source s₀ done t := by
  obtain ⟨hsets, hfree⟩ := sets_mkdir hmkdir
  -- what stood there stays
  have hkeep : ∀ spot node, s.node spot = some node → t.node spot = some node := by
    intro spot node hnode
    rw [hsets.node]
    split
    · next hspot =>
      rw [hspot] at hnode
      rcases hfree with hnone | hdirectory
      · rw [hnone] at hnode
        exact absurd hnode (by simp)
      · rw [← hnode, hdirectory]
    · exact hnode
  exact ⟨h.framed.sets hsets, hkeep _ _ h.opened,
    fun file hfile => hkeep (.staged, _) _ (h.complete file hfile)⟩

theorem makeDirectories_staging (names : List String) :
    Within env (Framed s₀) (Staging source s₀ done)
      (makeDirectories names : TransferProg (AssetStore δ μ) Unit)
      (fun _ => Staging source s₀ done) := by
  have hloop : Triple env (Staging source s₀ done) (makeDirectories names)
      (fun _ => Staging source s₀ done) (fun _ => Framed s₀) (Framed s₀) :=
    Triple.forEach_keep fun name _ => within_change (fun _ h => h.framed) fun t u ht hu =>
      ht.mkdir hu
  exact hloop

/-- What is not of the package is removed; its directory stays. -/
theorem removeStale_spec {name : String} (hname : name ≠ "") :
    Within env (Framed s₀) (Staging source s₀ [])
      (removeStale plan name : TransferProg (AssetStore δ μ) Unit)
      (fun _ => Staging source s₀ []) := by
  refine within_look (fun _ h => h.framed) fun t ht => ?_
  have hX : ∀ u, u = t → Framed s₀ u := fun u hu => hu ▸ ht.framed
  have hroot : ((Place.staged, "") : Spot) ≠ (.staged, name) :=
    fun heq => hname (congrArg Prod.snd heq).symm
  split
  · split
    · exact Within.pure _ fun u hu => hu ▸ ht
    · refine Within.bind (within_notify hX) fun _ => within_change hX fun u v hu hv => ?_
      rw [hu] at hv
      have hsets := sets_unlink hv
      refine ⟨ht.framed.sets hsets, ?_, by simp [Complete]⟩
      rw [hsets.node, if_neg hroot]
      exact ht.opened
  · split
    · exact Within.pure _ fun u hu => hu ▸ ht
    · refine Within.bind (within_notify hX) fun _ => within_change hX fun u v hu hv => ?_
      cases hv
      rw [hu]
      refine ⟨ht.framed.trans ⟨?_, rfl, fun _ => rfl⟩, ?_, by simp [Complete]⟩
      · intro place hplace
        refine Function.update_of_ne ?_ _ _
        rcases hplace with rfl | rfl <;> simp
      · rw [node_rmtree_root hname]
        exact ht.opened
  · exact Within.pure _ fun u hu => hu ▸ ht

/-- A directory stands at the place of the package. -/
theorem openPackage_spec (source : Source) (hX : ∀ t, Framed s₀ t → X t) :
    Within env X (Framed s₀) (openPackage : TransferProg (AssetStore δ μ) Unit)
      (fun _ => Staging source s₀ []) := by
  refine within_look hX fun t ht => ?_
  refine Within.bind (Q := fun _ => Framed s₀) ?_ fun _ => ?_
  · split
    · refine Within.bind (within_notify fun u hu => hX u (hu ▸ ht)) fun _ => ?_
      refine within_change (fun u hu => hX u (hu ▸ ht)) fun u v hu hv => ?_
      rw [hu] at hv
      exact ht.sets (sets_unlink hv)
    · exact Within.pure _ fun u hu => hu ▸ ht
  · refine within_change hX fun u v hu hv => ?_
    obtain ⟨hsets, -⟩ := sets_mkdir hv
    refine ⟨hu.sets hsets, ?_, by simp [Complete]⟩
    rw [hsets.node, if_pos rfl]

/-- The files of the package are staged one after the other; none of them is lost again. -/
theorem transferDirectory_spec [DecidableEq δ] (hsha : Function.Injective sha256)
    (hplan : Planned source plan) (hdirectory : plan.isDirectory = true) (s₀ : AssetStore δ μ) :
    Within env (Framed s₀) (Framed s₀) (transferDirectory sha256 source plan)
      (fun _ => Staging source s₀ plan.files) := by
  refine Within.bind (openPackage_spec source fun _ h => h) fun _ => ?_
  refine within_look (fun _ h => h.framed) fun t ht => ?_
  refine Within.bind (Q := fun _ => Staging source s₀ []) ?_ fun _ => ?_
  · refine (Triple.forEach_keep fun name hname => removeStale_spec ?_).pre fun u hu => hu ▸ ht
    have hbelow := (List.mem_insertionSort _).mp hname
    simpa using (List.mem_filter.mp hbelow).2
  refine Within.bind (Q := fun _ => Staging source s₀ []) ?_ fun _ => ?_
  · exact Triple.forEach_keep fun name _ => makeDirectories_staging _
  refine Triple.forEach (fun done => Staging source s₀ done) ?_
  intro done file rest hsplit
  have hmem : file ∈ plan.files := by
    rw [hsplit]
    exact List.mem_append_right _ List.mem_cons_self
  refine Within.bind (within_checkCancelled fun _ h => h.framed) fun _ => ?_
  refine Within.bind (makeDirectories_staging _) fun _ => Within.ofState fun u hu => ?_
  refine (transferFile_spec hsha (hplan.sizes file hmem) u).weaken (fun _ h => h) ?_ ?_
  · intro _ v hv
    obtain ⟨htouched, hfile⟩ := hv
    have hpart : partOf file.packageRelativePath = (.staged, file.packageRelativePath ++ ".part") :=
      if_neg (hplan.named hdirectory file hmem)
    refine ⟨hu.framed.trans htouched.framed, ?_, ?_⟩
    · refine htouched.node _ _ ?_ ?_ hu.opened
      · exact fun heq => hplan.named hdirectory file hmem (congrArg Prod.snd heq).symm
      · rw [hpart]
        intro heq
        have hlength := congrArg String.length (congrArg Prod.snd heq)
        have hfive : (".part" : String).length = 5 := rfl
        simp only [String.length_append, String.length_empty, hfive] at hlength
        omega
    · intro earlier hearlier
      rcases List.mem_append.mp hearlier with hearlier | hlast
      · refine htouched.node (.staged, _) _ ?_ ?_ (hu.complete earlier hearlier)
        · -- the names of the plan are different
          intro heq
          have hnodup := hplan.nodup
          rw [hsplit, List.map_append, List.nodup_append] at hnodup
          exact hnodup.2.2 _ (List.mem_map_of_mem hearlier) _ List.mem_cons_self
            (congrArg Prod.snd heq)
        · rw [hpart]
          exact fun heq => hplan.order hdirectory done file rest hsplit earlier hearlier
            (congrArg Prod.snd heq)
      · rw [List.mem_singleton.mp hlast]
        exact hfile
  · exact fun v hv => hu.framed.trans hv.framed

end Staging

/-! ### Final copies -/

section Final

variable {δ μ : Type} [DecidableEq δ] {sha256 : Content → δ} {source : Source}
  {env : Env Site Failure} {plan : AssetPlan} {s : AssetStore δ μ} {X : AssetStore δ μ → Prop}

/-- Files that are as long as those of the source and match it are those of the source. -/
theorem sourceHolds_spec (hsha : Function.Injective sha256) (hX : X s) (files : List PlannedFile)
    (hfiles : ∀ file ∈ files, ∃ bytes,
      s.node (.final, file.packageRelativePath) = some (.file bytes)
        ∧ bytes.length = (source.content file.relativePath).length) :
    Within env X (fun t => t = s) (sourceHolds sha256 source files)
      (fun same t => t = s ∧ (same = true → Complete source files (s.tree .final))) := by
  induction files with
  | nil => exact Within.pure _ fun t ht => ⟨ht, fun _ => by simp [Complete]⟩
  | cons file rest ih =>
    obtain ⟨bytes, hnode, hlength⟩ := hfiles file List.mem_cons_self
    rw [sourceHolds]
    refine within_look (fun t ht => ht ▸ hX) fun t ht => ?_
    rw [ht, hnode]
    refine Within.bind (sourceMatches_spec hsha hX _ _ _) fun same => ?_
    refine Within.ofState fun u hu => ?_
    obtain ⟨rfl, hsame⟩ := hu
    split
    · next hs =>
      refine (ih fun file hfile => hfiles file (List.mem_cons_of_mem _ hfile)).weaken
        (fun _ h => h) ?_ fun _ h => h
      rintro held v ⟨hv, hheld⟩
      refine ⟨hv, fun h => List.forall_mem_cons.mpr ⟨?_, hheld h⟩⟩
      have htake := (hsame hs).2
      rw [List.take_length, hlength, List.take_length] at htake
      rw [← htake]
      exact hnode
    · exact Within.pure _ fun v hv => ⟨hv, fun h => absurd h (by simp)⟩

/-- What a final copy is when it can stay: the files of the source where the asset has a manifest,
    and a copy of the sizes of the plan where it has none. -/
def Held (source : Source) (plan : AssetPlan) (tree : FileTree Content) : Prop :=
  if plan.recoveryEvidence = true then Complete source plan.files tree
  else (validatedSize tree plan).isSome = true

theorem validatedFinalSize_spec (hsha : Function.Injective sha256) (hplan : Planned source plan)
    (hrecorded : plan.recoveryEvidence = true → Recorded plan s) (hX : X s) :
    Within env X (fun t => t = s) (validatedFinalSize sha256 source plan)
      (fun size t => t = s ∧ (size.isSome = true → Held source plan (s.tree .final))
        ∧ (plan.recoveryEvidence = false → size = validatedSize (s.tree .final) plan)) := by
  refine within_look (fun t ht => ht ▸ hX) fun t ht => ?_
  rw [ht]
  split
  · next hevidence =>
    have hnot : ¬ plan.recoveryEvidence = false := by simp [hevidence]
    split
    · exact Within.pure _ fun u hu => ⟨hu, fun h => absurd h (by simp), fun h => absurd h hnot⟩
    · next size hsize =>
      have hfiles := promotedSize_spec hplan (hrecorded hevidence) (by rw [hsize]; rfl)
      refine Within.bind (sourceHolds_spec hsha hX plan.files hfiles) fun same => ?_
      refine Within.pure _ fun u hu => ⟨hu.1, fun h => ?_, fun h => absurd h hnot⟩
      have hsame : same = true := by
        by_contra hsame
        rw [if_neg hsame] at h
        exact absurd h (by simp)
      rw [Held, if_pos hevidence]
      exact hu.2 hsame
  · next hevidence =>
    refine Within.pure _ fun u hu => ⟨hu, fun h => ?_, fun _ => rfl⟩
    rw [Held, if_neg hevidence]
    exact h

end Final

/-! ### The first pass -/

section Stage

variable {δ μ : Type} [DecidableEq δ] [DecidableEq μ] {sha256 : Content → δ}
  {manifestSha256 : List ManifestItem → μ} {source : Source} {env : Env Site Failure}
  {asset : GameAsset} {plan : AssetPlan} {s₀ s : AssetStore δ μ}

/-- Nothing disturbs the write that follows the removal of a manifest. -/
def Reconciles (env : Env Site Failure) : Prop := ∀ n, env n .persistPlan = none

/-- How the first pass can leave an asset: the final copies are as they were, and a manifest that
    was there still is, unless its rewriting was disturbed. -/
structure Cut (env : Env Site Failure) (s₀ s : AssetStore δ μ) : Prop where
  tree : ∀ place, place = .final ∨ place = .backup → s.tree place = s₀.tree place
  row : Reconciles env → s₀.asset.isSome = true → s.asset.isSome = true

/-- What the first pass makes of an asset: a staged copy with the files of the source, or nothing,
    where the final copy can stay. -/
inductive Stage (source : Source) (plan : AssetPlan) (s₀ s : AssetStore δ μ) : Prop
  | staged (present : s.present .staged = true)
      (complete : Complete source plan.files (s.tree .staged)) (row : s.asset.isSome = true)
      (unsized : plan.recoveryEvidence = false → validatedSize (s₀.tree .final) plan = none)
  | kept (same : s.tree .staged = s₀.tree .staged) (held : Held source plan (s₀.tree .final))

/-- An asset after the first pass. -/
structure Staged (env : Env Site Failure) (source : Source) (asset : GameAsset)
    (s₀ : AssetStore δ μ) (plan : AssetPlan) (s : AssetStore δ μ) : Prop where
  planned : ∃ bare, planAsset source asset = .ok bare
    ∧ plan = { bare with recoveryEvidence := s₀.asset.isSome }
  cut : Cut env s₀ s
  recorded : plan.recoveryEvidence = true → Recorded plan s
  stage : Stage source plan s₀ s

omit [DecidableEq δ] [DecidableEq μ] in
theorem Cut.refl (s : AssetStore δ μ) : Cut env s s := ⟨fun _ _ => rfl, fun _ h => h⟩

omit [DecidableEq δ] [DecidableEq μ] in
theorem Cut.framed {t : AssetStore δ μ} (h : Cut env s₀ s) (hframed : Framed s t) : Cut env s₀ t :=
  ⟨fun place hplace => (hframed.tree place hplace).trans (h.tree place hplace),
    fun hfree hrow => by rw [hframed.asset]; exact h.row hfree hrow⟩

omit [DecidableEq δ] [DecidableEq μ] in
theorem planWithEvidence_spec :
    Within env (Cut env s₀) (fun s => s = s₀) (planWithEvidence source asset)
      (fun plan s => s = s₀ ∧ ∃ bare, planAsset source asset = .ok bare
        ∧ plan = { bare with recoveryEvidence := s₀.asset.isSome }) := by
  have hX : ∀ s, s = s₀ → Cut env s₀ s := fun s hs => by rw [hs]; exact Cut.refl s₀
  refine Within.bind (within_checkCancelled hX) fun _ => ?_
  refine Within.bind (Q := fun plan s => s = s₀ ∧ planAsset source asset = .ok plan) ?_
    fun bare => ?_
  · refine Within.step hX fun s plan t hs hact => ?_
    obtain ⟨found, hfound, heq⟩ := map_eq_ok hact
    cases heq
    exact ⟨hs, hfound⟩
  · refine within_look (fun s hs => hX s hs.1) fun s hs => Within.pure _ fun t ht => ?_
    rw [ht, hs.1]
    exact ⟨rfl, bare, hs.2, rfl⟩

omit [DecidableEq δ] in
/-- A manifest that was found is there again, with the rows of the plan. -/
theorem reconcilePlan_spec (hplan : Planned source plan)
    (hevidence : plan.recoveryEvidence = s₀.asset.isSome) :
    Within env (Cut env s₀) (fun s => s = s₀) (reconcilePlan manifestSha256 plan)
      (fun _ s => Cut env s₀ s ∧ s.tree .staged = s₀.tree .staged
        ∧ s.asset.isSome = s₀.asset.isSome
        ∧ (plan.recoveryEvidence = true → Recorded plan s)) := by
  have hX : ∀ s, s = s₀ → Cut env s₀ s := fun s hs => by rw [hs]; exact Cut.refl s₀
  refine within_look hX fun t ht => ?_
  rw [ht]
  split
  · next hnone =>
    refine Within.pure _ fun u hu => ⟨hX u hu, by rw [hu], by rw [hu], fun h => ?_⟩
    rw [hevidence, hnone] at h
    exact absurd h (by simp)
  · next row hrow =>
    -- the manifest may be gone for the length of one write
    refine Within.bind (Q := fun _ u => u.tree = s₀.tree) ?_ fun _ => ?_
    · split
      · refine within_change hX fun u v hu hv => ?_
        cases hv
        rw [hu]
        rfl
      · exact Within.pure _ fun u hu => by rw [hu]
    · have hcut : ∀ u : AssetStore δ μ, u.tree = s₀.tree → ¬ Reconciles env → Cut env s₀ u :=
        fun u hu hnot => ⟨fun place _ => by rw [hu], fun hfree => absurd hfree hnot⟩
      refine Triple.step ?_ ?_ ?_
      · rintro u hu ⟨n, hn⟩
        refine hcut u hu fun hfree => ?_
        rw [hfree n] at hn
        exact absurd hn (by simp)
      · rintro u x hu ⟨n, hn⟩
        refine hcut u hu fun hfree => ?_
        rw [hfree n] at hn
        exact absurd hn (by simp)
      · intro u hu
        refine ⟨⟨fun place _ => ?_, fun _ _ => rfl⟩, ?_, ?_, fun _ => ?_⟩
        · exact congrFun hu place
        · exact congrFun hu .staged
        · rw [hrow]
          rfl
        · exact recorded_replacePlan hplan manifestSha256

omit [DecidableEq μ] in
/-- The staged copy of an asset. -/
theorem stageCopy_spec (hsha : Function.Injective sha256) (hplan : Planned source plan)
    (hevidence : plan.recoveryEvidence = s.asset.isSome)
    (hrecorded : plan.recoveryEvidence = true → Recorded plan s) (hcut : Cut env s₀ s) :
    Within env (Cut env s₀) (fun t => t = s) (stageCopy sha256 manifestSha256 source plan)
      (fun _ t => Cut env s₀ t ∧ Recorded plan t ∧ t.asset.isSome = true
        ∧ t.present .staged = true ∧ Complete source plan.files (t.tree .staged)) := by
  have hX : ∀ t, t = s → Cut env s₀ t := fun t ht => ht ▸ hcut
  refine Within.bind (Q := fun _ t => Cut env s₀ t ∧ Recorded plan t ∧ t.asset.isSome = true) ?_
    fun _ => Within.ofState fun t ht => ?_
  · split
    · next h =>
      refine Within.pure _ fun t ht => ⟨hX t ht, ?_, ?_⟩
      · rw [ht]
        exact hrecorded h
      · rw [ht, ← hevidence]
        exact h
    · refine within_change hX fun t u ht hu => ?_
      cases hu
      rw [ht]
      exact ⟨⟨hcut.tree, fun _ _ => rfl⟩, recorded_replacePlan hplan manifestSha256, rfl⟩
  obtain ⟨hcut', hrec, hrow⟩ := ht
  split
  · next hdirectory =>
    refine (transferDirectory_spec hsha hplan hdirectory t).weaken ?_ ?_ ?_
    · intro u hu
      rw [hu]
      exact Framed.refl t
    · intro _ u hu
      refine ⟨hcut'.framed hu.framed, hrec.of_framed hu.framed, ?_, ?_, hu.complete⟩
      · rw [hu.framed.asset]
        exact hrow
      · show (u.node (.staged, "")).isSome = true
        rw [hu.opened]
        rfl
    · exact fun u hu => hcut'.framed hu
  · next hfile =>
    obtain ⟨file, hfiles, hmember⟩ := hplan.single (by simpa using hfile)
    have hhead : plan.files.head? = some file := by rw [hfiles]; rfl
    rw [hhead]
    have hsize := hplan.sizes file (by rw [hfiles]; exact List.mem_singleton_self file)
    refine (transferFile_spec hsha hsize t).weaken (fun _ h => h) ?_
      fun u hu => hcut'.framed hu.framed
    rintro _ u ⟨htouched, hnode⟩
    refine ⟨hcut'.framed htouched.framed, hrec.of_framed htouched.framed, ?_, ?_, ?_⟩
    · rw [htouched.asset]
      exact hrow
    · show (u.node (.staged, "")).isSome = true
      rw [hmember] at hnode
      have hroot : u.node (.staged, "") = _ := hnode
      rw [hroot]
      rfl
    · rw [hfiles]
      exact List.forall_mem_singleton.mpr hnode

/-- **The first pass.** An asset is staged, or its final copy can stay. -/
theorem stageAsset_spec (hsha : Function.Injective sha256) (hlisted : Listed source asset) :
    Within env (Cut env s₀) (fun s => s = s₀) (stageAsset sha256 manifestSha256 source asset)
      (Staged env source asset s₀) := by
  have hX : ∀ s, s = s₀ → Cut env s₀ s := fun s hs => by rw [hs]; exact Cut.refl s₀
  refine Within.bind (within_checkCancelled hX) fun _ => ?_
  refine Within.bind planWithEvidence_spec fun plan => Within.ofState fun s hs => ?_
  obtain ⟨rfl, bare, hbare, hplan'⟩ := hs
  have hplan : Planned source plan := by
    rw [hplan']
    exact (planAsset_planned hbare hlisted).1.withEvidence _
  have hevidence : plan.recoveryEvidence = s.asset.isSome := by rw [hplan']
  refine Within.bind (reconcilePlan_spec hplan hevidence) fun _ => Within.ofState fun t ht => ?_
  obtain ⟨hcut, hstaged, hrow, hrecorded⟩ := ht
  have hfinal : t.tree .final = s.tree .final := hcut.tree _ (Or.inl rfl)
  refine Within.bind (validatedFinalSize_spec hsha hplan hrecorded hcut) fun size =>
    Within.ofState fun u hu => ?_
  obtain ⟨rfl, hheld, hsized⟩ := hu
  rw [hfinal] at hheld hsized
  have hX' : ∀ v, v = u → Cut env s v := fun v hv => hv ▸ hcut
  split
  · next hsize =>
    refine Within.bind (within_checkCancelled hX') fun _ => ?_
    refine Within.bind (within_notify hX') fun _ => ?_
    refine Within.bind (within_checkCancelled hX') fun _ => Within.pure _ fun v hv => ?_
    rw [hv]
    exact ⟨⟨bare, hbare, hplan'⟩, hcut, hrecorded, .kept hstaged (hheld hsize)⟩
  · next hsize =>
    refine Within.bind (stageCopy_spec hsha hplan (hevidence.trans hrow.symm) hrecorded hcut)
      fun _ => Within.pure _ fun v hv => ?_
    obtain ⟨hcutv, hrec, hasset, hpresent, hcomplete⟩ := hv
    refine ⟨⟨bare, hbare, hplan'⟩, hcutv, fun _ => hrec, .staged hpresent hcomplete hasset ?_⟩
    intro hnot
    rw [← hsized hnot]
    simpa using hsize

end Stage

/-! ### The other passes -/

section Promote

variable {δ μ : Type} {sha256 : Content → δ} {source : Source} {env : Env Site Failure}
  {plan : AssetPlan} {s t : AssetStore δ μ}

/-- What passes the validation is a staged copy of the sizes of the plan, or a final copy that can
    stay. -/
theorem validateAsset_spec [DecidableEq δ] (hsha : Function.Injective sha256)
    (hplan : Planned source plan) (hrecorded : plan.recoveryEvidence = true → Recorded plan s) :
    Within env (fun t => t = s) (fun t => t = s) (validateAsset sha256 source plan)
      (fun _ t => t = s ∧ ((validatedSize (s.tree .staged) plan).isSome = true
        ∨ Held source plan (s.tree .final))) := by
  refine Within.bind (validatedFinalSize_spec hsha hplan hrecorded rfl) fun size =>
    Within.ofState fun t ht => ?_
  obtain ⟨rfl, hheld, -⟩ := ht
  split
  · next hsize => exact Within.pure _ fun u hu => ⟨hu, Or.inr (hheld hsize)⟩
  · refine within_look (fun u hu => hu) fun u hu => ?_
    split
    · next hsize =>
      refine Within.pure _ fun v hv => ⟨hv.trans hu, Or.inl ?_⟩
      rw [← hu]
      exact hsize
    · exact Within.throw _ fun v hv => hv.trans hu

/-- A whole place is moved. -/
theorem tree_rename {place other : Place} (h : s.rename place other = some t)
    (hne : place ≠ other) : t.tree other = s.tree place ∧ t.tree place = ∅
      ∧ (∀ p, p ≠ place → p ≠ other → t.tree p = s.tree p) ∧ t.asset = s.asset := by
  have hmoved : t = (s.setTree other (s.tree place)).setTree place ∅ := by
    unfold AssetStore.rename at h
    split at h
    · exact (Option.some.inj h).symm
    · split at h
      · exact (Option.some.inj h).symm
      · exact absurd h (by simp)
    · exact absurd h (by simp)
    · exact absurd h (by simp)
    · exact (Option.some.inj h).symm
    · exact absurd h (by simp)
  rw [hmoved]
  refine ⟨?_, Function.update_self place ∅ _, fun p hp ho => ?_, rfl⟩
  · show Function.update (Function.update s.tree other (s.tree place)) place ∅ other = _
    rw [Function.update_of_ne hne.symm, Function.update_self]
  · show Function.update (Function.update s.tree other (s.tree place)) place ∅ p = _
    rw [Function.update_of_ne hp, Function.update_of_ne ho]

/-- The parked copy is removed, and nothing else. -/
theorem removeBackup_spec {P X : AssetStore δ μ → Prop} (hX : ∀ t, P t → X t)
    (hP : ∀ t, P t → P (t.setTree .backup ∅)) :
    Within env X P removeBackup (fun _ => P) := by
  refine within_look hX fun t ht => ?_
  have hX' : ∀ u, u = t → X u := fun u hu => hX u (hu ▸ ht)
  split
  · refine within_change hX' fun u v hu hv => ?_
    cases hv
    rw [hu]
    exact hP t ht
  · exact Within.pure _ fun u hu => hu ▸ ht

/-- The staged copy becomes the final one, whole. -/
theorem atomicPromote_spec :
    Within env (fun t => t.asset = s.asset) (fun t => t = s) atomicPromote
      (fun _ t => t.asset = s.asset ∧ t.tree .final = s.tree .staged) := by
  have hrest : Within env (fun t : AssetStore δ μ => t.asset = s.asset)
      (fun t => t.asset = s.asset ∧ t.tree .final = s.tree .staged) removeBackup
      (fun _ t => t.asset = s.asset ∧ t.tree .final = s.tree .staged) :=
    removeBackup_spec (fun t ht => ht.1) fun t ht =>
      ⟨ht.1, (tree_setTree_of_ne (by simp) ∅).trans ht.2⟩
  refine within_look (fun t ht => by rw [ht]) fun t ht => ?_
  rw [ht]
  split
  · refine Within.bind (Q := fun _ u => u.asset = s.asset ∧ u.tree .staged = s.tree .staged) ?_
      fun _ => ?_
    · refine Within.weaken (removeBackup_spec (X := fun u => u.asset = s.asset)
        (P := fun u => u.asset = s.asset ∧ u.tree .staged = s.tree .staged)
        (fun u hu => hu.1) fun u hu =>
          ⟨hu.1, (tree_setTree_of_ne (by simp) ∅).trans hu.2⟩) ?_ (fun _ _ h => h) fun _ h => h
      intro u hu
      rw [hu]
      exact ⟨rfl, rfl⟩
    refine Within.bind (Q := fun _ u => u.asset = s.asset ∧ u.tree .staged = s.tree .staged) ?_
      fun _ => ?_
    · refine within_change (fun u hu => hu.1) fun u v hu hv => ?_
      obtain ⟨-, -, hothers, hasset⟩ := tree_rename hv (by simp)
      exact ⟨hasset.trans hu.1, (hothers .staged (by simp) (by simp)).trans hu.2⟩
    refine Within.bind (Q := fun _ u => u.asset = s.asset ∧ u.tree .final = s.tree .staged) ?_
      fun _ => hrest
    refine Within.tryCatch ?_ fun error => ?_
    · refine within_change (fun u hu => hu.1) fun u v hu hv => ?_
      obtain ⟨hmoved, -, -, hasset⟩ := tree_rename hv (by simp)
      exact ⟨hasset.trans hu.1, hmoved.trans hu.2⟩
    · -- the old final copy is put back, and the error goes on
      refine within_look (fun _ h => h) fun u hu => ?_
      have hX : ∀ v, v = u → v.asset = s.asset := fun v hv => hv ▸ hu
      refine Within.bind (Q := fun _ v => v.asset = s.asset) ?_
        fun _ => Within.throw _ fun _ h => h
      split
      · refine within_change hX fun v w hv hw => ?_
        obtain ⟨-, -, -, hasset⟩ := tree_rename hw (by simp)
        exact hasset.trans (hX v hv)
      · exact Within.pure _ hX
  · refine Within.bind (Q := fun _ u => u.asset = s.asset ∧ u.tree .final = s.tree .staged) ?_
      fun _ => hrest
    refine within_change (fun u hu => by rw [hu]) fun u v hu hv => ?_
    rw [hu] at hv
    obtain ⟨hmoved, -, -, hasset⟩ := tree_rename hv (by simp)
    exact ⟨hasset, hmoved⟩

/-- **The last pass.** What is staged becomes the final copy; nothing else does. -/
theorem promoteAsset_spec :
    Within env (fun t => t.asset = s.asset
        ∧ (s.present .staged = false → t.tree .final = s.tree .final)) (fun t => t = s)
      promoteAsset
      (fun _ t => t.asset = s.asset ∧ t.tree .final
        = if s.present .staged = true then s.tree .staged else s.tree .final) := by
  have hX : ∀ t, t = s → t.asset = s.asset
      ∧ (s.present .staged = false → t.tree .final = s.tree .final) := by
    intro t ht
    rw [ht]
    exact ⟨rfl, fun _ => rfl⟩
  refine within_look hX fun t ht => ?_
  rw [ht]
  split
  · next hpresent =>
    have hnot : ¬ s.present .staged = false := by simp [hpresent]
    refine Within.bind (within_notify hX) fun _ => ?_
    exact atomicPromote_spec.weaken (fun _ h => h) (fun _ t ht => ht)
      fun t ht => ⟨ht, fun h => absurd h hnot⟩
  · next hpresent =>
    have hsame : ∀ t, t = s → t.asset = s.asset ∧ t.tree .final = s.tree .final := by
      intro t ht
      rw [ht]
      exact ⟨rfl, rfl⟩
    split
    · refine Within.weaken (removeBackup_spec (X := fun u => u.asset = s.asset
          ∧ (s.present .staged = false → u.tree .final = s.tree .final))
        (P := fun u => u.asset = s.asset ∧ u.tree .final = s.tree .final)
        (fun u hu => ⟨hu.1, fun _ => hu.2⟩) fun u hu =>
          ⟨hu.1, (tree_setTree_of_ne (by simp) ∅).trans hu.2⟩) hsame (fun _ _ h => h)
        fun _ h => h
    · exact Within.pure _ hsame

end Promote

end RomCloud.Transfer
