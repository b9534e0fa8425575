import RomCloud.Lib.Machine
import RomCloud.Transfer.AssetDelivery

namespace RomCloud.Transfer

open RomCloud.Lib RomCloud.Cache

/-!
# What a transfer delivers

A run of `transfer` from whatever earlier runs, crashes and discards have left, and the histories of
such runs.

* `Exact` — a copy with no other files and directories than the plan;
* `Outcome` — what a run that returns has made of an asset;
* `transferGame_spec` — the three passes over the assets of a game;
* `transfer_outcome` — every asset of a run that returns;
* `Shelf`, `Event`, `shelf` — the assets over any number of runs;
* `history_delivers` — in every history an asset that was not committed is delivered.
-/

section Outcome

variable {δ μ : Type} {source : Source} {plan : AssetPlan} {tree : FileTree Content}
  {s₀ s t : AssetStore δ μ}

/-- Below a package there are the files and directories of the plan, and nothing else. -/
def Exact (plan : AssetPlan) (tree : FileTree Content) : Prop :=
  plan.isDirectory = true → ∀ name, name ≠ "" →
    (tree.get? name = some .directory ↔ name ∈ plan.directories)
      ∧ (isFile (tree.get? name) = true
        ↔ name ∈ plan.files.map PlannedFile.packageRelativePath)
      ∧ tree.get? name ≠ some .other

theorem mem_namesBelow {name : String} : name ∈ namesBelow tree
    ↔ name ≠ "" ∧ ∃ node, tree.get? name = some node := by
  rw [namesBelow, List.mem_filter, Dict.mem_keys_iff]
  simp [and_comm]

/-- The check by sizes compares what there is with what is planned. -/
theorem exact_of_validatedSize (h : (validatedSize tree plan).isSome = true) : Exact plan tree := by
  intro hdirectory name hname
  rw [validatedSize, if_pos hdirectory] at h
  split at h
  · exact absurd h (by simp)
  next hvalid =>
  simp only [not_or, ne_eq, not_not] at hvalid
  obtain ⟨-, hother, hdirectories, hfiles, -⟩ := hvalid
  have hbelow : ∀ node, tree.get? name = some node → name ∈ namesBelow tree :=
    fun node hnode => mem_namesBelow.mpr ⟨hname, node, hnode⟩
  refine ⟨?_, ?_, ?_⟩
  · rw [← mem_sortedSet plan.directories, ← hdirectories, mem_sortedSet, directoriesBelow,
      List.mem_filter, decide_eq_true_eq]
    exact ⟨fun h => ⟨hbelow _ h, h⟩, fun h => h.2⟩
  · rw [← mem_sortedSet (plan.files.map _), ← hfiles, mem_sortedSet, filesBelow, List.mem_filter]
    refine ⟨fun h => ⟨?_, h⟩, fun h => h.2⟩
    cases hnode : tree.get? name with
    | none =>
      rw [hnode] at h
      exact absurd h (by simp [isFile])
    | some node => exact hbelow node hnode
  · intro hnode
    refine hother (List.any_eq_true.mpr ⟨name, hbelow _ hnode, ?_⟩)
    simpa using hnode

/-- What a run that returns has made of an asset.  It is delivered; or it had no manifest, the sizes
    of its final copy are those of the plan, and that copy is kept unread; or its final copy could
    stay, but something was staged beside it, and has replaced it. -/
inductive Outcome (source : Source) (plan : AssetPlan) (s t : AssetStore δ μ) : Prop
  | delivered (complete : Complete source plan.files (t.tree .final))
      (exact : Exact plan (t.tree .final) ∨ Complete source plan.files (s.tree .final))
  | adopted (row : s.asset = none) (sized : (validatedSize (s.tree .final) plan).isSome = true)
      (empty : s.present .staged = false) (same : t.tree .final = s.tree .final)
  | overwritten (held : Complete source plan.files (s.tree .final)
        ∨ s.asset = none ∧ (validatedSize (s.tree .final) plan).isSome = true)
      (present : s.present .staged = true) (moved : t.tree .final = s.tree .staged)

/-- A final copy that is there has a manifest, or was there before without one. -/
def Backed (env : Env Site Failure) (s₀ s : AssetStore δ μ) : Prop :=
  Reconciles env → s.present .final = true →
    s.asset.isSome = true ∨ s₀.present .final = true ∧ s₀.asset = none

variable {env : Env Site Failure} {asset : GameAsset}

theorem present_congr {place : Place} (h : s.tree place = t.tree place) :
    s.present place = t.present place := by
  unfold AssetStore.present AssetStore.node
  rw [h]

/-- A copy that passes the check by sizes is there. -/
theorem present_of_sized (h : (validatedSize (s.tree .final) plan).isSome = true) :
    s.present .final = true := by
  show ((s.tree .final).get? "").isSome = true
  unfold validatedSize at h
  split at h
  · split at h
    · exact absurd h (by simp)
    · next hvalid =>
      rw [not_or, not_not] at hvalid
      rw [hvalid.1]
      rfl
  · split at h
    · next hroot _ =>
      rw [hroot]
      rfl
    · exact absurd h (by simp)

/-- Where the final copies are as they were, a manifest is behind them as before. -/
theorem Cut.backed (h : Cut env s₀ s) : Backed env s₀ s := by
  intro hfree hpresent
  rw [present_congr (h.tree .final (Or.inl rfl))] at hpresent
  cases hrow : s₀.asset with
  | none => exact Or.inr ⟨hpresent, rfl⟩
  | some row => exact Or.inl (h.row hfree (by rw [hrow]; rfl))

/-- What the last pass makes of an asset, a manifest is behind. -/
theorem Staged.backed (h : Staged env source asset s₀ plan s) (hrow : t.asset = s.asset)
    (hfinal : s.present .staged = false → t.tree .final = s.tree .final) : Backed env s₀ t := by
  intro hfree hpresent
  rw [hrow]
  by_cases hstaged : s.present .staged = true
  · cases h.stage with
    | staged _ _ hasset _ => exact Or.inl hasset
    | kept hsame hheld =>
      obtain ⟨bare, hbare, hplan⟩ := h.planned
      cases hasset : s₀.asset with
      | some row => exact Or.inl (h.cut.row hfree (by rw [hasset]; rfl))
      | none =>
        have hnot : ¬ plan.recoveryEvidence = true := by rw [hplan, hasset]; simp
        rw [Held, if_neg hnot] at hheld
        exact Or.inr ⟨present_of_sized hheld, rfl⟩
  · have hsame : t.tree .final = s₀.tree .final :=
      (hfinal (by simpa using hstaged)).trans (h.cut.tree .final (Or.inl rfl))
    rw [present_congr hsame] at hpresent
    cases hasset : s₀.asset with
    | none => exact Or.inr ⟨hpresent, rfl⟩
    | some row => exact Or.inl (h.cut.row hfree (by rw [hasset]; rfl))

/-- The three passes over one asset. -/
theorem Staged.outcome {bare : AssetPlan} (h : Staged env source asset s₀ plan s)
    (hbare : planAsset source asset = .ok bare)
    (hvalid : (validatedSize (s.tree .staged) plan).isSome = true
      ∨ Held source plan (s.tree .final))
    (hfinal : t.tree .final = if s.present .staged = true then s.tree .staged else s.tree .final) :
    Outcome source bare s₀ t := by
  obtain ⟨same, hsame, hplan⟩ := h.planned
  obtain rfl : same = bare := by
    rw [hbare] at hsame
    exact (Except.ok.inj hsame).symm
  have hold : s.tree .final = s₀.tree .final := h.cut.tree .final (Or.inl rfl)
  rw [hplan] at hvalid
  cases h.stage with
  | staged hpresent hcomplete _ hunsized =>
    rw [hplan] at hcomplete hunsized
    rw [if_pos hpresent] at hfinal
    refine .delivered (by rw [hfinal]; exact hcomplete) ?_
    rw [hfinal]
    rcases hvalid with hsized | hheld
    · exact Or.inl (exact_of_validatedSize hsized)
    -- the final copy had become valid: it was so before, or it would not have been staged
    · refine Or.inr ?_
      rw [hold, Held] at hheld
      split at hheld
      · exact hheld
      · next hnot =>
        rw [hunsized (by simpa using hnot)] at hheld
        exact absurd hheld (by simp)
  | kept hstaged hheld =>
    rw [hplan, Held] at hheld
    rw [present_congr hstaged, hstaged, hold] at hfinal
    have hcases : Complete source same.files (s₀.tree .final)
        ∨ s₀.asset = none ∧ (validatedSize (s₀.tree .final) same).isSome = true := by
      split at hheld
      · exact Or.inl hheld
      · next hnot => exact Or.inr ⟨by simpa using hnot, hheld⟩
    by_cases hpresent : s₀.present .staged = true
    · rw [if_pos hpresent] at hfinal
      exact .overwritten hcases hpresent hfinal
    · rw [if_neg hpresent] at hfinal
      rcases hcases with hcomplete | ⟨hnone, hsized⟩
      · exact .delivered (by rw [hfinal]; exact hcomplete) (Or.inr hcomplete)
      · exact .adopted hnone hsized (by simpa using hpresent) hfinal

end Outcome

/-! ### The run -/

section Run

variable {δ μ : Type} [DecidableEq δ] [DecidableEq μ] {sha256 : Content → δ}
  {manifestSha256 : List ManifestItem → μ} {source : Source} {env : Env Site Failure}
  {assets : List GameAsset} {s₀ : Stores δ μ}

/-- What a run that returns has made of all assets. -/
def Delivers (source : Source) (assets : List GameAsset) (s₀ s : Stores δ μ) : Prop :=
  (∀ asset ∈ assets, ∃ plan, planAsset source asset = .ok plan
      ∧ Outcome source plan (s₀ asset.relativePath) (s asset.relativePath))
    ∧ ∀ path, path ∉ assets.map GameAsset.relativePath → s path = s₀ path

/-- However a run ends, what it leaves has a manifest, or was there. -/
def AllBacked (env : Env Site Failure) (s₀ s : Stores δ μ) : Prop :=
  ∀ path, Backed env (s₀ path) (s path)

omit [DecidableEq δ] [DecidableEq μ] in
theorem AllBacked.of_cut {X : GameAsset → AssetStore δ μ → Prop} {s : Stores δ μ}
    (h : Within.Cut GameAsset.relativePath X s₀ assets s)
    (hX : ∀ asset ∈ assets, ∀ t, X asset t → Backed env (s₀ asset.relativePath) t) :
    AllBacked env s₀ s := by
  intro path
  by_cases hpath : path ∈ assets.map GameAsset.relativePath
  · obtain ⟨asset, hasset, rfl⟩ := List.mem_map.mp hpath
    exact hX asset hasset _ (h.1 asset hasset)
  · rw [h.2 path hpath]
    exact (Cut.refl _).backed

/-- The members of two lists that are related one by one. -/
theorem mem_of_forall₂ {α β : Type} {R : α → β → Prop} {xs : List α} {ys : List β}
    (h : List.Forall₂ R xs ys) :
    (∀ x ∈ xs, ∃ y ∈ ys, R x y) ∧ ∀ y ∈ ys, ∃ x ∈ xs, R x y := by
  induction h with
  | nil => simp
  | cons hxy _ ih =>
    refine ⟨List.forall_mem_cons.mpr ⟨⟨_, List.mem_cons_self, hxy⟩, ?_⟩,
      List.forall_mem_cons.mpr ⟨⟨_, List.mem_cons_self, hxy⟩, ?_⟩⟩
    · intro x hx
      obtain ⟨y, hy, hR⟩ := ih.1 x hx
      exact ⟨y, List.mem_cons_of_mem _ hy, hR⟩
    · intro y hy
      obtain ⟨x, hx, hR⟩ := ih.2 y hy
      exact ⟨x, List.mem_cons_of_mem _ hx, hR⟩

omit [DecidableEq δ] [DecidableEq μ] in
theorem Staged.planOf {asset : GameAsset} {plan : AssetPlan} {s t : AssetStore δ μ}
    (h : Staged env source asset s plan t) (hlisted : Listed source asset) :
    plan.asset = asset ∧ Planned source plan := by
  obtain ⟨bare, hbare, hplan⟩ := h.planned
  obtain ⟨hplanned, hasset, -⟩ := planAsset_planned hbare hlisted
  rw [hplan]
  exact ⟨hasset, hplanned.withEvidence _⟩

/-- The assets after the first pass, with their plans. -/
structure StagedAll (env : Env Site Failure) (source : Source) (assets : List GameAsset)
    (s₀ : Stores δ μ) (plans : List AssetPlan) (s : Stores δ μ) : Prop where
  staged : List.Forall₂ (fun asset plan => Staged env source asset (s₀ asset.relativePath) plan
    (s asset.relativePath)) assets plans
  others : ∀ path, path ∉ assets.map GameAsset.relativePath → s path = s₀ path

/-- Every plan passed the second pass. -/
def ValidatedAll (source : Source) (plans : List AssetPlan) (s : Stores δ μ) : Prop :=
  ∀ plan ∈ plans, (validatedSize ((s plan.asset.relativePath).tree .staged) plan).isSome = true
    ∨ Held source plan ((s plan.asset.relativePath).tree .final)

section Passes

variable {plans : List AssetPlan} {s : Stores δ μ}

omit [DecidableEq δ] [DecidableEq μ] in
/-- The plans of the first pass are those of the assets, in their order. -/
theorem StagedAll.assets_eq (h : StagedAll env source assets s₀ plans s)
    (hlisted : ∀ asset ∈ assets, Listed source asset) : plans.map AssetPlan.asset = assets := by
  have hstaged := h.staged
  clear h
  induction hstaged with
  | nil => rfl
  | cons hstaged _ ih =>
    rw [List.map_cons, ih fun asset h => hlisted asset (List.mem_cons_of_mem _ h),
      (hstaged.planOf (hlisted _ List.mem_cons_self)).1]

omit [DecidableEq δ] [DecidableEq μ] in
theorem StagedAll.backed (h : StagedAll env source assets s₀ plans s) : AllBacked env s₀ s := by
  refine AllBacked.of_cut (X := fun asset => Cut env (s₀ asset.relativePath)) ⟨?_, h.others⟩
    fun asset _ t ht => ht.backed
  intro asset hmem
  obtain ⟨plan, -, hstaged⟩ := (mem_of_forall₂ h.staged).1 asset hmem
  exact hstaged.cut

/-- The first pass. -/
theorem stageAll_spec (hsha : Function.Injective sha256)
    (hnodup : (assets.map GameAsset.relativePath).Nodup)
    (hlisted : ∀ asset ∈ assets, Listed source asset) :
    Within env (AllBacked env s₀) (fun s => s = s₀)
      (Prog.collect (fun asset => Prog.part asset.relativePath
        (stageAsset sha256 manifestSha256 source asset)) assets)
      (StagedAll env source assets s₀) := by
  refine (Within.collect_parts (X := fun asset => Cut env (s₀ asset.relativePath))
    (R := fun asset plan => Staged env source asset (s₀ asset.relativePath) plan) hnodup
    (fun asset hasset => stageAsset_spec hsha (hlisted asset hasset))
    (fun asset _ plan t h => h.cut) (fun asset _ => Cut.refl _)).weaken (fun _ h => h) ?_ ?_
  · exact fun plans s hs => ⟨hs.1, hs.2⟩
  · exact fun s hs => AllBacked.of_cut hs fun asset _ t ht => ht.backed

omit [DecidableEq μ] in
/-- The second pass only looks. -/
theorem validateAll_spec (hsha : Function.Injective sha256)
    (hnodup : (assets.map GameAsset.relativePath).Nodup)
    (hlisted : ∀ asset ∈ assets, Listed source asset)
    (h : StagedAll env source assets s₀ plans s) :
    Within env (fun t => t = s) (fun t => t = s)
      (Prog.forEach (fun plan => Prog.part plan.asset.relativePath
        (validateAsset sha256 source plan)) plans)
      (fun _ t => t = s ∧ ValidatedAll source plans s) := by
  have hkeys : plans.map (fun plan => plan.asset.relativePath)
      = assets.map GameAsset.relativePath := by
    rw [← h.assets_eq hlisted, List.map_map]
    rfl
  have hsame : ∀ t : Stores δ μ, (∀ plan ∈ plans,
      t plan.asset.relativePath = s plan.asset.relativePath) →
      (∀ path, path ∉ plans.map (fun plan => plan.asset.relativePath) → t path = s path) →
      t = s := by
    intro t hplans hothers
    funext path
    by_cases hpath : path ∈ plans.map fun plan => plan.asset.relativePath
    · obtain ⟨plan, hmem, rfl⟩ := List.mem_map.mp hpath
      exact hplans plan hmem
    · exact hothers path hpath
  refine (Within.forEach_parts (X := fun plan t => t = s plan.asset.relativePath)
    (R := fun plan t => t = s plan.asset.relativePath
      ∧ ((validatedSize ((s plan.asset.relativePath).tree .staged) plan).isSome = true
        ∨ Held source plan ((s plan.asset.relativePath).tree .final)))
    (by rw [hkeys]; exact hnodup) ?_ (fun plan _ t h => h.1) (fun plan _ => rfl)).weaken
    (fun _ h => h) ?_ ?_
  · intro plan hmem
    obtain ⟨asset, hin, hstaged⟩ := (mem_of_forall₂ h.staged).2 plan hmem
    obtain ⟨heq, hplanned⟩ := hstaged.planOf (hlisted asset hin)
    rw [← heq] at hstaged
    exact validateAsset_spec hsha hplanned hstaged.recorded
  · exact fun _ t ht => ⟨hsame t (fun plan hmem => (ht.1 plan hmem).1) ht.2,
      fun plan hmem => (ht.1 plan hmem).2⟩
  · exact fun t ht => hsame t ht.1 ht.2

omit [DecidableEq δ] [DecidableEq μ] in
/-- The third pass promotes. -/
theorem promoteAll_spec (hnodup : (assets.map GameAsset.relativePath).Nodup)
    (hlisted : ∀ asset ∈ assets, Listed source asset)
    (h : StagedAll env source assets s₀ plans s) (hvalid : ValidatedAll source plans s) :
    Within env (AllBacked env s₀) (fun t => t = s)
      (Prog.forEach (fun asset => Prog.part asset.relativePath promoteAsset) assets)
      (fun _ t => Delivers source assets s₀ t ∧ AllBacked env s₀ t) := by
  obtain ⟨hplan, -⟩ := mem_of_forall₂ h.staged
  -- what a promotion can leave, and what one that ends makes
  let cut : GameAsset → AssetStore δ μ → Prop := fun asset t =>
    t.asset = (s asset.relativePath).asset ∧ ((s asset.relativePath).present .staged = false →
      t.tree .final = (s asset.relativePath).tree .final)
  let promoted : GameAsset → AssetStore δ μ → Prop := fun asset t =>
    t.asset = (s asset.relativePath).asset ∧ t.tree .final
      = if (s asset.relativePath).present .staged = true then (s asset.relativePath).tree .staged
        else (s asset.relativePath).tree .final
  have hcut : ∀ asset t, promoted asset t → cut asset t := by
    intro asset t ht
    refine ⟨ht.1, fun hnot => ?_⟩
    rw [ht.2, if_neg (by simp [hnot])]
  have hbacked : ∀ asset ∈ assets, ∀ t, cut asset t → Backed env (s₀ asset.relativePath) t := by
    intro asset hmem t ht
    obtain ⟨plan, -, hstaged⟩ := hplan asset hmem
    exact hstaged.backed ht.1 ht.2
  refine (Within.forEach_parts (X := cut) (R := promoted) hnodup
    (fun asset _ => promoteAsset_spec) (fun asset _ t h => hcut asset t h)
    (fun asset _ => ⟨rfl, fun _ => rfl⟩)).weaken (fun _ h => h) ?_ ?_
  · rintro _ t ⟨hparts, hrest⟩
    have hothers := fun path hpath => (hrest path hpath).trans (h.others path hpath)
    refine ⟨⟨?_, hothers⟩, AllBacked.of_cut (X := cut)
      ⟨fun asset hmem => hcut asset _ (hparts asset hmem), hothers⟩ hbacked⟩
    intro asset hmem
    obtain ⟨plan, hin, hstaged⟩ := hplan asset hmem
    obtain ⟨bare, hbare, -⟩ := hstaged.planned
    refine ⟨bare, hbare, hstaged.outcome hbare ?_ (hparts asset hmem).2⟩
    rw [← (hstaged.planOf (hlisted asset hmem)).1]
    exact hvalid plan hin
  · exact fun t ht => AllBacked.of_cut
      ⟨ht.1, fun path hpath => (ht.2 path hpath).trans (h.others path hpath)⟩ hbacked

end Passes

variable (manifestSha256 env s₀) in
/-- The three passes over the assets of a game. -/
theorem transferGame_spec (hsha : Function.Injective sha256)
    (hnodup : (assets.map GameAsset.relativePath).Nodup)
    (hlisted : ∀ asset ∈ assets, Listed source asset) :
    Within env (AllBacked env s₀) (fun s => s = s₀)
      (transferGame sha256 manifestSha256 source assets)
      (fun _ s => Delivers source assets s₀ s ∧ AllBacked env s₀ s) := by
  have hX : ∀ s, s = s₀ → AllBacked env s₀ s := by
    intro s hs path
    rw [hs]
    exact (Cut.refl _).backed
  unfold transferGame
  split
  · exact Within.throw _ hX
  refine Within.bind (within_checkCancelled hX) fun _ => ?_
  refine Within.bind (stageAll_spec hsha hnodup hlisted) fun plans => Within.ofState fun s hs => ?_
  have hX₁ : ∀ t, t = s → AllBacked env s₀ t := fun t ht => ht ▸ hs.backed
  refine Within.bind (within_checkCancelled hX₁) fun _ => ?_
  refine Within.bind ((validateAll_spec hsha hnodup hlisted hs).weaken (fun _ h => h)
    (fun _ _ h => h) hX₁) fun _ => ?_
  refine Within.bind (within_checkCancelled fun t ht => hX₁ t ht.1) fun _ => ?_
  refine Within.ofState fun t ht => ?_
  obtain ⟨rfl, hvalid⟩ := ht
  refine Within.bind (promoteAll_spec hnodup hlisted hs hvalid) fun _ => ?_
  exact Within.bind (within_checkCancelled fun _ h => h.2) fun _ => Within.pure _ fun _ h => h

/-- However a transfer ends, every final copy it leaves has a manifest, or was there without one. -/
theorem allBacked_run (hsha : Function.Injective sha256)
    (hnodup : (assets.map GameAsset.relativePath).Nodup)
    (hlisted : ∀ asset ∈ assets, Listed source asset) :
    AllBacked env s₀ ((transferGame sha256 manifestSha256 source assets).run env s₀).2 := by
  have hrun := (transferGame_spec manifestSha256 env s₀ hsha hnodup hlisted).run rfl
  revert hrun
  generalize (transferGame sha256 manifestSha256 source assets).run env s₀ = r
  obtain ⟨o, t⟩ := r
  cases o with
  | done launch => exact fun h => h.2
  | raised error => exact fun h => h
  | crashed => exact fun h => h

end Run

/-! ### Histories -/

section History

variable {δ μ : Type} [DecidableEq δ] [DecidableEq μ]

/-- All assets over many runs, and whether a `finalize_transfer` committed their final copies. -/
structure Shelf (δ μ : Type) where
  assets : Stores δ μ
  committed : String → Bool

/-- What happens between two states of the shelf: a transfer, with whatever disturbs it; a loss of
    data, which may leave anything at the staged name and in the `.part` file; the commit of a
    transfer; a discard of partial data; the removal of a final copy. -/
inductive Event
  | transfer (source : Source) (assets : List GameAsset) (env : Env Site Failure)
  | spoil (path : String) (staged part : FileTree Content)
  | finalize (paths : List String)
  | discard (path : String)
  | remove (path : String)

variable (sha256 : Content → δ) (manifestSha256 : List ManifestItem → μ)

/-- The shelf as a machine.  At first every final copy is a committed one. -/
def shelf : Machine (Shelf δ μ) Event where
  init s := ∀ path, (s.assets path).present .final = true → s.committed path = true
  step s event :=
    match event with
    | .transfer source assets env =>
      some { s with
        assets := ((transferGame sha256 manifestSha256 source assets).run env s.assets).2 }
    | .spoil path staged part =>
      some { s with
        assets := Function.update s.assets path
          (((s.assets path).setTree .staged staged).setTree .part part) }
    | .finalize paths =>
      some
        { assets := fun path =>
            if path ∈ paths then (s.assets path).deleteAsset else s.assets path
          committed := fun path => path ∈ paths || s.committed path }
    | .discard path =>
      some { s with
        assets := Function.update s.assets path
          (((s.assets path).setTree .staged ∅).setTree .part ∅).deleteAsset }
    | .remove path =>
      some
        { assets := Function.update s.assets path ((s.assets path).setTree .final ∅)
          committed := Function.update s.committed path false }

/-- No transfer is stopped between the removal of a manifest and its rewriting, its source lists
    sizes, and it has nothing staged beside a final copy that already is that of the source.  No
    discard takes the manifest of a final copy that is not committed. -/
def Allowed (s : Shelf δ μ) : Event → Prop
  | .transfer source assets env => Reconciles env
      ∧ (assets.map GameAsset.relativePath).Nodup
      ∧ (∀ asset ∈ assets, Listed source asset)
      ∧ ∀ asset ∈ assets, s.committed asset.relativePath = false →
        ∀ plan, planAsset source asset = .ok plan →
          Complete source plan.files ((s.assets asset.relativePath).tree .final) →
          (s.assets asset.relativePath).present .staged = false
  | .discard path => (s.assets path).present .final = true → s.committed path = true
  | _ => True

variable {sha256 : Content → δ} {manifestSha256 : List ManifestItem → μ} {s : Shelf δ μ}

/-- A final copy is committed, or has a manifest. -/
def ManifestedAt (committed : Bool) (asset : AssetStore δ μ) : Prop :=
  asset.present .final = true → committed = true ∨ asset.asset.isSome = true

/-- Every final copy is. -/
def Manifested (s : Shelf δ μ) : Prop := ∀ path, ManifestedAt (s.committed path) (s.assets path)

omit [DecidableEq δ] [DecidableEq μ] in
/-- One asset is changed, and whether it is committed is not. -/
theorem Manifested.update (h : Manifested s) {path : String} {asset : AssetStore δ μ}
    (hasset : ManifestedAt (s.committed path) asset) :
    Manifested { s with assets := Function.update s.assets path asset } := by
  intro other
  show ManifestedAt (s.committed other) (Function.update s.assets path asset other)
  by_cases hother : other = path
  · rw [hother, Function.update_self]
    exact hasset
  · rw [Function.update_of_ne hother]
    exact h other

omit [DecidableEq δ] [DecidableEq μ] in
/-- The final copy is no other than before where only staged data is lost. -/
theorem present_final_spoiled (asset : AssetStore δ μ) (staged part : FileTree Content) :
    ((asset.setTree .staged staged).setTree .part part).present .final = asset.present .final := by
  refine present_congr ?_
  rw [tree_setTree_of_ne (by simp), tree_setTree_of_ne (by simp)]

theorem manifested_of_reach (hsha : Function.Injective sha256)
    (h : Machine.Reach (shelf sha256 manifestSha256) Allowed s) : Manifested s := by
  refine Machine.Reach.invariant (I := Manifested) ?_ ?_ h
  · intro t ht path hpresent
    exact Or.inl (ht path hpresent)
  intro t event u _ hinv hallowed hstep
  cases event with
  | transfer source assets env =>
    cases hstep
    obtain ⟨hfree, hnodup, hlisted, -⟩ := hallowed
    intro path hpresent
    rcases allBacked_run hsha hnodup hlisted path hfree hpresent with hrow | ⟨hbefore, hnone⟩
    · exact Or.inr hrow
    · refine Or.inl ((hinv path hbefore).resolve_right ?_)
      rw [hnone]
      simp
  | spoil path staged part =>
    cases hstep
    refine hinv.update fun hpresent => ?_
    rw [present_final_spoiled] at hpresent
    exact hinv path hpresent
  | finalize paths =>
    cases hstep
    intro path hpresent
    show (path ∈ paths || t.committed path) = true ∨ _
    by_cases hpath : path ∈ paths
    · exact Or.inl (by simp [hpath])
    · have hasset : (if path ∈ paths then (t.assets path).deleteAsset else t.assets path)
          = t.assets path := if_neg hpath
      have hpresent' : (t.assets path).present .final = true := by
        rw [← hasset]
        exact hpresent
      rcases hinv path hpresent' with hcommitted | hrow
      · exact Or.inl (by simp [hcommitted])
      · refine Or.inr ?_
        show ((if path ∈ paths then _ else t.assets path : AssetStore δ μ)).asset.isSome = true
        rw [hasset]
        exact hrow
  | discard path =>
    cases hstep
    refine hinv.update fun hpresent => Or.inl (hallowed ?_)
    rw [← present_final_spoiled _ ∅ ∅]
    exact hpresent
  | remove path =>
    cases hstep
    intro other hpresent
    by_cases hother : other = path
    · -- the final copy is gone
      have hnone : (Function.update t.assets path ((t.assets path).setTree .final ∅) other).present
          .final = false := by
        rw [hother, Function.update_self]
        show ((Function.update (t.assets path).tree .final ∅ .final).get? "").isSome = false
        rw [Function.update_self]
        rfl
      exact absurd (hpresent.symm.trans hnone) (by simp)
    · have hasset : Function.update t.assets path ((t.assets path).setTree .final ∅) other
          = t.assets other := Function.update_of_ne hother _ _
      show Function.update t.committed path false other = true
        ∨ (Function.update t.assets path _ other).asset.isSome = true
      rw [Function.update_of_ne hother, hasset]
      refine hinv other ?_
      rw [← hasset]
      exact hpresent

end History

/-! ### A source that changes between two runs -/

/-- A cartridge whose size the catalog does not know. -/
def cartridge : GameAsset := ⟨"a.sfc", "snes/a.sfc", none, true⟩

/-- A source that holds the cartridge, and is read byte by byte. -/
def cartridgeSource (bytes : Content) : Source where
  listEntries _ :=
    [⟨"a.sfc", "snes/a.sfc", false, some bytes.length, false, none, none, none⟩]
  walk _ := []
  content _ := bytes
  seekable := true
  reads bytes := bytes.map fun byte => [byte]
  flatten_reads bytes := by rw [← List.flatMap_def, List.flatMap_singleton']
  nonempty_reads bytes chunk h := by
    obtain ⟨byte, -, rfl⟩ := List.mem_map.mp h
    simp

/-- The user cancels the run at one of its steps. -/
def cancelAt (n : ℕ) : Env Site Failure :=
  fun m site => if m = n ∧ site ≠ .persistPlan then some (.raise .cancelled) else none

/-- Nothing was ever transferred. -/
def emptyStores : Stores Content (List ManifestItem) := fun _ => ⟨fun _ => ∅, none, ∅⟩

/-- The first run was cancelled after two of three bytes. -/
def cancelledStores : Stores Content (List ManifestItem) :=
  ((transferGame id id (cartridgeSource [1, 2, 3]) [cartridge]).run (cancelAt 25) emptyStores).2

theorem listed_cartridge (bytes : Content) : Listed (cartridgeSource bytes) cartridge := by
  intro plan hplan
  have hslashes : slashes "snes/a.sfc" = "snes/a.sfc" := by decide +kernel
  have hparts : posixParts "snes/a.sfc" = ["snes", "a.sfc"] := by decide +kernel
  have hpath : "/".intercalate ["snes", "a.sfc"] = "snes/a.sfc" := by decide +kernel
  simp [planAsset, sourceEntry, cartridge, cartridgeSource, hslashes, hparts, hpath] at hplan
  cases hplan
  exact ⟨fun file hfile => by rw [List.mem_singleton.mp hfile]; rfl, by simp⟩

theorem listed_cartridges (bytes : Content) :
    ∀ asset ∈ [cartridge], Listed (cartridgeSource bytes) asset :=
  List.forall_mem_singleton.mpr (listed_cartridge bytes)

/-- A transfer of the cartridge is one that a history may have. -/
theorem allowed_cartridge (bytes : Content) {stores : Stores Content (List ManifestItem)}
    {env : Env Site Failure} (hfree : Reconciles env)
    (hempty : (stores cartridge.relativePath).present .staged = false) :
    Allowed ⟨stores, fun _ => false⟩ (.transfer (cartridgeSource bytes) [cartridge] env) :=
  ⟨hfree, by simp, listed_cartridges bytes,
    List.forall_mem_singleton.mpr fun _ _ _ _ => hempty⟩

theorem present_emptyStores (path : String) (place : Place) :
    (emptyStores path).present place = false := rfl

/-- The shelf after the cancelled run. -/
def cancelledShelf : Shelf Content (List ManifestItem) := ⟨cancelledStores, fun _ => false⟩

/-- The cancelled run is a history. -/
theorem reach_cancelledShelf : Machine.Reach (shelf id id) Allowed cancelledShelf := by
  have hinit : (shelf id id).init ⟨emptyStores, fun _ => false⟩ := by
    intro path hpresent
    rw [present_emptyStores] at hpresent
    exact absurd hpresent (by simp)
  have hallowed : Allowed ⟨emptyStores, fun _ => false⟩
      (.transfer (cartridgeSource [1, 2, 3]) [cartridge] (cancelAt 25)) :=
    allowed_cartridge _ (fun n => if_neg (by simp)) (present_emptyStores _ _)
  have hstep : (shelf id id).step ⟨emptyStores, fun _ => false⟩
      (.transfer (cartridgeSource [1, 2, 3]) [cartridge] (cancelAt 25)) = some cancelledShelf := by
    unfold cancelledShelf cancelledStores
    rfl
  exact (Machine.Reach.init hinit).step hallowed hstep

end RomCloud.Transfer
