import RomCloud.SaveSync.ManifestDigest

namespace RomCloud.SaveSync.Commit

open RomCloud.Lib RomCloud.SaveSync.Index

/-!
# What recovery makes of a commit that was interrupted

The originating device crashed after it had promoted some of the changed paths of its intent.
Another device finds the intent and resolves it by what its own scan sees.

* `PartlyPromoted` — a payload between the two manifests of an intent;
* `observed_get?` — a device sees the paths of the layouts it has enabled, and no others;
* `findsAll_iff` — the groups of an intent, told path by path;
* `Discerns` — what the device has to see, `unknown_of_discerns` and `exists_misread` — that this
  is enough and needed;
* `interrupted_commit` — the classification is exact, and recovery refuses what is half promoted
  exactly then.
-/

/-! ### The manifests of an intent -/

/-- The artifact of a list at a path. -/
def artifactAt (artifacts : List IndexArtifact) (path : Path) : Option IndexArtifact :=
  artifacts.find? (fun artifact => artifact.path = path)

def CommitIntent.beforeAt (intent : CommitIntent) (path : Path) : Option IndexArtifact :=
  artifactAt (intent.groups.flatMap IntentGroup.before) path

def CommitIntent.desiredAt (intent : CommitIntent) (path : Path) : Option IndexArtifact :=
  artifactAt (intent.groups.flatMap IntentGroup.desired) path

/-- No path belongs to two groups. -/
def DisjointPaths (intent : CommitIntent) : Prop :=
  intent.groups.Pairwise (fun group other => group.paths.Disjoint other.paths)

/-- A path at which the commit changes something. -/
def CommitIntent.Changes (intent : CommitIntent) (path : Path) : Prop :=
  path ∈ intent.paths ∧ intent.beforeAt path ≠ intent.desiredAt path

/-- What the payload holds at a path. -/
def storedAt (payload : Manifest) (path : Path) : Option IndexArtifact :=
  (payload.get? path).map indexArtifact

/-- A proper, non-empty part of the changed paths was promoted. -/
structure PartlyPromoted (intent : CommitIntent) (payload : Manifest) : Prop where
  either : ∀ path ∈ intent.paths,
    storedAt payload path = intent.beforeAt path ∨ storedAt payload path = intent.desiredAt path
  promoted : ∃ path, intent.Changes path ∧ storedAt payload path = intent.desiredAt path
  waiting : ∃ path, intent.Changes path ∧ storedAt payload path = intent.beforeAt path

theorem artifactAt_eq_some_iff {artifacts : List IndexArtifact} {path : Path} {a : IndexArtifact}
    (h : (artifacts.map IndexArtifact.path).Nodup) :
    artifactAt artifacts path = some a ↔ a ∈ artifacts ∧ a.path = path := by
  constructor
  · intro hfind
    exact ⟨List.mem_of_find?_eq_some hfind, by simpa using List.find?_some hfind⟩
  · rintro ⟨ha, rfl⟩
    have hsome : (artifactAt artifacts a.path).isSome :=
      List.find?_isSome.mpr ⟨a, ha, decide_eq_true rfl⟩
    obtain ⟨b, hb⟩ := Option.isSome_iff_exists.mp hsome
    have hpath : b.path = a.path := by simpa using List.find?_some hb
    rw [hb, List.inj_on_of_nodup_map h (List.mem_of_find?_eq_some hb) ha hpath]

section Intent

variable {intent : CommitIntent} {observed : Dict Path IndexArtifact}

/-- The group of a path is the only one. -/
theorem DisjointPaths.group_eq (h : DisjointPaths intent) {group other : IntentGroup} {path : Path}
    (hgroup : group ∈ intent.groups) (hother : other ∈ intent.groups) (hpath : path ∈ group.paths)
    (hpath' : path ∈ other.paths) : group = other := by
  by_contra hne
  have hsymm : Std.Symm fun group other : IntentGroup => group.paths.Disjoint other.paths :=
    ⟨fun _ _ hdisjoint => hdisjoint.symm⟩
  exact List.Pairwise.forall h hgroup hother hne hpath hpath'

/-- The manifests of all groups together name no path twice. -/
theorem nodup_flatMap_paths (h : DisjointPaths intent)
    {manifest : IntentGroup → List IndexArtifact}
    (hof : ∀ group ∈ intent.groups, ManifestOf group (manifest group)) :
    ((intent.groups.flatMap manifest).map IndexArtifact.path).Nodup := by
  rw [List.map_flatMap, List.nodup_flatMap]
  have hsubset : ∀ group ∈ intent.groups,
      ∀ path ∈ (manifest group).map IndexArtifact.path, path ∈ group.paths := by
    intro group hgroup path hpath
    obtain ⟨a, ha, rfl⟩ := List.mem_map.mp hpath
    exact (hof group hgroup).subset a ha
  refine ⟨fun group hgroup => nodup_of_accepted (hof group hgroup).accepted, ?_⟩
  refine List.Pairwise.imp_of_mem ?_ h
  intro group other hgroup hother hdisjoint path hpath hpath'
  exact hdisjoint (hsubset group hgroup path hpath) (hsubset other hother path hpath')

/-- The groups were observed to have their manifests when every path was. -/
theorem findsAll_iff (h : DisjointPaths intent)
    (hkeyed : ∀ p a, observed.get? p = some a → a.path = p)
    {manifest : IntentGroup → List IndexArtifact}
    (hof : ∀ group ∈ intent.groups, ManifestOf group (manifest group)) :
    FindsAll intent observed manifest ↔ ∀ path ∈ intent.paths,
      observed.get? path = artifactAt (intent.groups.flatMap manifest) path := by
  have hnodup := nodup_flatMap_paths h hof
  constructor
  · intro hall path hpath
    obtain ⟨group, hgroup, hin⟩ := List.mem_flatMap.mp hpath
    refine Option.ext fun a => ?_
    rw [artifactAt_eq_some_iff hnodup, List.mem_flatMap]
    constructor
    · intro hget
      obtain rfl := hkeyed path a hget
      exact ⟨⟨group, hgroup, (hall group hgroup a).mpr ⟨hin, hget⟩⟩, rfl⟩
    · rintro ⟨⟨other, hother, ha⟩, rfl⟩
      exact ((hall other hother a).mp ha).2
  · intro hall group hgroup a
    constructor
    · intro ha
      have hin := (hof group hgroup).subset a ha
      refine ⟨hin, ?_⟩
      rw [hall a.path (mem_paths_of_group hgroup hin), artifactAt_eq_some_iff hnodup]
      exact ⟨List.mem_flatMap.mpr ⟨group, hgroup, ha⟩, rfl⟩
    · rintro ⟨hin, hget⟩
      rw [hall a.path (mem_paths_of_group hgroup hin), artifactAt_eq_some_iff hnodup] at hget
      obtain ⟨other, hother, ha⟩ := List.mem_flatMap.mp hget.1
      rwa [h.group_eq hgroup hother hin ((hof other hother).subset a ha)]

end Intent

/-! ### What a device sees -/

/-- Whether the scan for an intent looks at a path: it lies in one of the intent's layouts, as far
    as the registry of this device goes and its layouts are enabled. -/
def Service.sees (service : Service) (intent : CommitIntent) (path : Path) : Bool :=
  service.pathCovered (fun layoutId =>
    layoutId ∈ intent.groups.map IntentGroup.layoutId && service.layoutEnabled layoutId) path

/-- What the device has to see: every changed path, or else, of the other paths, one that the
    intent expects before and one that it expects afterwards.  A commit that changes one path has
    no half. -/
def Discerns (service : Service) (intent : CommitIntent) : Prop :=
  (∀ path, intent.Changes path → Service.sees service intent path = true) ∨
  ((∃ path ∈ intent.paths, Service.sees service intent path = false ∧
      (intent.beforeAt path).isSome) ∧
    ∃ path ∈ intent.paths, Service.sees service intent path = false ∧
      (intent.desiredAt path).isSome) ∨
  ∀ path other, intent.Changes path → intent.Changes other → path = other

section Device

variable {service : Service} {intent : CommitIntent} {payload : Manifest} {path : Path}

theorem observed_get? : (observeIntentPayload service intent.groups payload).get? path
    = if path ∈ intent.paths ∧ Service.sees service intent path = true
      then storedAt payload path else none := by
  have hscan : (intentScan service intent.groups payload).get? path
      = if path ∈ intent.paths ∧ Service.sees service intent path = true
        then payload.get? path else none := by
    rw [intentScan, Service.scanLayouts, Manifest.get?_restrict]
    by_cases hin : path ∈ intent.paths
    · have hmem : path ∈ (intent.groups.flatMap IntentGroup.paths).toFinset :=
        List.mem_toFinset.mpr hin
      simp only [Option.all_some, hmem, decide_true, Bool.and_true, hin, true_and]
      rfl
    · have hmem : path ∉ (intent.groups.flatMap IntentGroup.paths).toFinset :=
        fun h => hin (List.mem_toFinset.mp h)
      simp only [Option.all_some, hmem, decide_false, Bool.and_false, hin, false_and, if_false,
        Bool.false_eq_true]
  rw [observeIntentPayload, Dict.get?_ofKeys]
  by_cases hpath : path ∈ (intentScan service intent.groups payload).paths
  · rw [if_pos hpath, hscan]
    split
    · rfl
    · rfl
  · rw [if_neg hpath]
    have hnone := (Manifest.get?_eq_none_iff _ _).mpr hpath
    rw [hscan] at hnone
    split
    · next h =>
      rw [if_pos h] at hnone
      rw [storedAt, hnone, Option.map_none]
    · rfl

theorem path_of_storedAt {a : IndexArtifact} (h : storedAt payload path = some a) :
    a.path = path := by
  obtain ⟨artifact, hget, rfl⟩ := Option.map_eq_some_iff.mp h
  exact Manifest.relativePath_of_get? hget

/-- A scan of a half promoted payload sees artifacts of the intent only. -/
theorem observation_of_partlyPromoted (haccepted : intent.accepted = true)
    (h : PartlyPromoted intent payload) :
    Observation intent (observeIntentPayload service intent.groups payload) := by
  have hget : ∀ p a, (observeIntentPayload service intent.groups payload).get? p = some a →
      p ∈ intent.paths ∧ storedAt payload p = some a := by
    intro p a hp
    rw [observed_get?] at hp
    split at hp
    · next hseen => exact ⟨hseen.1, hp⟩
    · cases hp
  refine ⟨fun p a hp => path_of_storedAt (hget p a hp).2, fun p a hp => (hget p a hp).1, ?_⟩
  intro p a hp
  obtain ⟨hin, hstored⟩ := hget p a hp
  have hmem : a ∈ intent.groups.flatMap IntentGroup.before
      ∨ a ∈ intent.groups.flatMap IntentGroup.desired := by
    rcases h.either p hin with heq | heq
    · exact Or.inl (List.mem_of_find?_eq_some (heq.symm.trans hstored))
    · exact Or.inr (List.mem_of_find?_eq_some (heq.symm.trans hstored))
  rcases hmem with hmem | hmem
  · obtain ⟨group, hgroup, ha⟩ := List.mem_flatMap.mp hmem
    exact length_of_accepted (accepted_group haccepted hgroup).1 ha
  · obtain ⟨group, hgroup, ha⟩ := List.mem_flatMap.mp hmem
    exact length_of_accepted (accepted_group haccepted hgroup).2 ha

/-- The scan finds all groups as in a manifest when it would find every path so. -/
theorem findsAll_scan_iff (hdisjoint : DisjointPaths intent)
    {manifest : IntentGroup → List IndexArtifact}
    (hof : ∀ group ∈ intent.groups, ManifestOf group (manifest group)) :
    FindsAll intent (observeIntentPayload service intent.groups payload) manifest ↔
      ∀ p ∈ intent.paths,
        (if Service.sees service intent p = true then storedAt payload p else none)
          = artifactAt (intent.groups.flatMap manifest) p := by
  rw [findsAll_iff hdisjoint ?_ hof]
  · refine forall₂_congr fun p hp => ?_
    rw [observed_get?]
    simp only [hp, true_and]
  · intro p a hp
    rw [observed_get?] at hp
    split at hp
    · exact path_of_storedAt hp
    · cases hp

/-- A device that discerns the halves of an intent finds neither of its manifests. -/
theorem not_findsAll_of_discerns (haccepted : intent.accepted = true)
    (hdisjoint : DisjointPaths intent) (hdiscerns : Discerns service intent)
    (h : PartlyPromoted intent payload) :
    ¬ FindsAll intent (observeIntentPayload service intent.groups payload) IntentGroup.desired ∧
    ¬ FindsAll intent (observeIntentPayload service intent.groups payload) IntentGroup.before := by
  rw [findsAll_scan_iff hdisjoint fun _ => manifestOf_desired haccepted,
    findsAll_scan_iff hdisjoint fun _ => manifestOf_before haccepted]
  obtain ⟨promoted, hpromoted, hdesired⟩ := h.promoted
  obtain ⟨waiting, hwaiting, hbefore⟩ := h.waiting
  rcases hdiscerns with hall | ⟨⟨old, hold, hblind, hsome⟩, new, hnew, hblind', hsome'⟩ | hone
  · -- both paths are seen, and each tells against one of the manifests
    constructor
    · intro hfinds
      have heq := hfinds waiting hwaiting.1
      rw [if_pos (hall waiting hwaiting), hbefore] at heq
      exact hwaiting.2 heq
    · intro hfinds
      have heq := hfinds promoted hpromoted.1
      rw [if_pos (hall promoted hpromoted), hdesired] at heq
      exact hpromoted.2 heq.symm
  · -- what is not seen is taken to be absent, which neither manifest says
    constructor
    · intro hfinds
      have heq := hfinds new hnew
      rw [if_neg (by rw [hblind']; exact Bool.false_ne_true)] at heq
      rw [CommitIntent.desiredAt, ← heq] at hsome'
      exact absurd hsome' (by simp)
    · intro hfinds
      have heq := hfinds old hold
      rw [if_neg (by rw [hblind]; exact Bool.false_ne_true)] at heq
      rw [CommitIntent.beforeAt, ← heq] at hsome
      exact absurd hsome (by simp)
  · obtain rfl := hone promoted waiting hpromoted hwaiting
    exact absurd (hbefore.symm.trans hdesired) hpromoted.2

/-! ### Payloads that are misread -/

/-- The payload that holds `held` at the paths of an intent. -/
def payloadWith (intent : CommitIntent) (held : Path → Option IndexArtifact) : Manifest where
  files := .ofKeys intent.paths fun path =>
    (held path).map fun artifact => ⟨path, artifact.sizeBytes, artifact.sha256⟩
  keyed := by
    intro path artifact h
    rw [Dict.get?_ofKeys] at h
    split at h
    · obtain ⟨a, -, rfl⟩ := Option.map_eq_some_iff.mp h
      rfl
    · cases h

theorem storedAt_payloadWith {held : Path → Option IndexArtifact}
    (hheld : ∀ p a, held p = some a → a.path = p) (hpath : path ∈ intent.paths) :
    storedAt (payloadWith intent held) path = held path := by
  show ((Dict.ofKeys intent.paths _).get? path).map indexArtifact = held path
  rw [Dict.get?_ofKeys, if_pos hpath, Option.map_map]
  cases h : held path with
  | none => rfl
  | some a =>
    obtain rfl := hheld path a h
    rfl

theorem path_of_artifactAt {artifacts : List IndexArtifact} {p : Path} {a : IndexArtifact}
    (h : artifactAt artifacts p = some a) : a.path = p := by
  simpa using List.find?_some h

theorem partlyPromoted_payloadWith {held : Path → Option IndexArtifact}
    (hheld : ∀ p a, held p = some a → a.path = p)
    (heither : ∀ p, held p = intent.beforeAt p ∨ held p = intent.desiredAt p)
    {promoted waiting : Path} (hpromoted : intent.Changes promoted)
    (hdesired : held promoted = intent.desiredAt promoted) (hwaiting : intent.Changes waiting)
    (hbefore : held waiting = intent.beforeAt waiting) :
    PartlyPromoted intent (payloadWith intent held) where
  either := fun p hp => by
    rw [storedAt_payloadWith hheld hp]
    exact heither p
  promoted := ⟨promoted, hpromoted, (storedAt_payloadWith hheld hpromoted.1).trans hdesired⟩
  waiting := ⟨waiting, hwaiting, (storedAt_payloadWith hheld hwaiting.1).trans hbefore⟩

/-- What a manifest says, but at `odd` what another one says. -/
def heldBut (intent : CommitIntent) (mostly otherwise : IntentGroup → List IndexArtifact)
    (odd path : Path) : Option IndexArtifact :=
  artifactAt (intent.groups.flatMap (if path = odd then otherwise else mostly)) path

theorem heldBut_odd (mostly otherwise : IntentGroup → List IndexArtifact) (odd : Path) :
    heldBut intent mostly otherwise odd odd
      = artifactAt (intent.groups.flatMap otherwise) odd := by
  rw [heldBut, if_pos rfl]

theorem heldBut_of_ne (mostly otherwise : IntentGroup → List IndexArtifact) {odd p : Path}
    (h : p ≠ odd) : heldBut intent mostly otherwise odd p
      = artifactAt (intent.groups.flatMap mostly) p := by
  rw [heldBut, if_neg h]

/-- A device that does not see `odd` finds the manifest that all other paths are at. -/
theorem findsAll_heldBut (hdisjoint : DisjointPaths intent)
    (mostly otherwise : IntentGroup → List IndexArtifact)
    (hof : ∀ group ∈ intent.groups, ManifestOf group (mostly group)) {odd : Path}
    (hodd : Service.sees service intent odd = false)
    (hblind : ∀ p ∈ intent.paths, Service.sees service intent p = false →
      artifactAt (intent.groups.flatMap mostly) p = none) :
    FindsAll intent (observeIntentPayload service intent.groups
      (payloadWith intent (heldBut intent mostly otherwise odd))) mostly := by
  rw [findsAll_scan_iff hdisjoint hof]
  intro p hp
  cases hsees : Service.sees service intent p with
  | false => rw [if_neg Bool.false_ne_true, hblind p hp hsees]
  | true =>
    have hne : p ≠ odd := by
      rintro rfl
      rw [hodd] at hsees
      cases hsees
    have hheld : ∀ p a, heldBut intent mostly otherwise odd p = some a → a.path = p :=
      fun _ _ => path_of_artifactAt
    rw [if_pos rfl, storedAt_payloadWith hheld hp, heldBut_of_ne _ _ hne]

/-- A device that does not discern the halves of an intent reads some of them as a whole. -/
theorem exists_misread (haccepted : intent.accepted = true) (hdisjoint : DisjointPaths intent)
    (h : ¬ Discerns service intent) : ∃ payload, PartlyPromoted intent payload ∧
      (FindsAll intent (observeIntentPayload service intent.groups payload) IntentGroup.desired ∨
        FindsAll intent (observeIntentPayload service intent.groups payload)
          IntentGroup.before) := by
  rw [Discerns, not_or, not_or] at h
  obtain ⟨hseen, hblind, hmany⟩ := h
  push Not at hseen hmany
  obtain ⟨odd, hodd, hunseen⟩ := hseen
  have hunseen : Service.sees service intent odd = false := Bool.eq_false_of_not_eq_true hunseen
  obtain ⟨other, hother, hne⟩ : ∃ other, intent.Changes other ∧ other ≠ odd := by
    obtain ⟨p, q, hp, hq, hpq⟩ := hmany
    by_cases hpodd : p = odd
    · exact ⟨q, hq, fun hqodd => hpq (hpodd.trans hqodd.symm)⟩
    · exact ⟨p, hp, hpodd⟩
  -- a path that is not seen is absent from a manifest that expects nothing there
  have hnone : ∀ manifest : IntentGroup → List IndexArtifact,
      (¬ ∃ p ∈ intent.paths, Service.sees service intent p = false ∧
        (artifactAt (intent.groups.flatMap manifest) p).isSome) →
      ∀ p ∈ intent.paths, Service.sees service intent p = false →
        artifactAt (intent.groups.flatMap manifest) p = none := by
    intro manifest hnot p hp hsees
    by_contra hsome
    exact hnot ⟨p, hp, hsees, Option.isSome_iff_ne_none.mpr hsome⟩
  have heither : ∀ (mostly otherwise : IntentGroup → List IndexArtifact) (p : Path),
      heldBut intent mostly otherwise odd p = artifactAt (intent.groups.flatMap mostly) p ∨
      heldBut intent mostly otherwise odd p = artifactAt (intent.groups.flatMap otherwise) p := by
    intro mostly otherwise p
    by_cases hp : p = odd
    · rw [hp]
      exact Or.inr (heldBut_odd mostly otherwise odd)
    · exact Or.inl (heldBut_of_ne mostly otherwise hp)
  rcases not_and_or.mp hblind with hold | hnew
  · -- the device expects nothing of what it does not see before: only `odd` was promoted
    refine ⟨_, ?_, Or.inr (findsAll_heldBut hdisjoint IntentGroup.before IntentGroup.desired
      (fun _ => manifestOf_before haccepted) hunseen (hnone _ hold))⟩
    exact partlyPromoted_payloadWith (fun _ _ => path_of_artifactAt) (heither _ _)
      hodd (heldBut_odd _ _ odd) hother (heldBut_of_ne _ _ hne)
  · -- it expects nothing of what it does not see afterwards: all but `odd` was promoted
    refine ⟨_, ?_, Or.inl (findsAll_heldBut hdisjoint IntentGroup.desired IntentGroup.before
      (fun _ => manifestOf_desired haccepted) hunseen (hnone _ hnew))⟩
    exact partlyPromoted_payloadWith (fun _ _ => path_of_artifactAt)
      (fun p => (heither _ _ p).symm) hother (heldBut_of_ne _ _ hne) hodd (heldBut_odd _ _ odd)

end Device

/-! ### Recovery -/

section Recovery

variable {sha256 : Bytes → String} {service : Service} {intent : CommitIntent}

/-- Recovery neither publishes a half promoted intent nor treats it as one that never started: it
    does not return, and the index is left as it was. -/
def Refuses (sha256 : Bytes → String) (service : Service) (intent : CommitIntent) : Prop :=
  ∀ (owned repairing : Bool) (env : Env CommitSite Interruption) (s : CommitState),
    s.remote.intent = .valid intent → PartlyPromoted intent s.remote.payload →
      let result := (resolveSharedIntentBy (manifestDigest sha256) service owned repairing).run env s
      result.1 ≠ .done () ∧ result.2.remote.index = s.remote.index

theorem loadIntent_valid (haccepted : intent.accepted = true) :
    loadIntent (.valid intent) = .ok (some intent) := by
  rw [loadIntent, if_pos haccepted]

/-- An intent that is found to be at neither manifest is set aside, and the operation fails. -/
theorem resolve_of_unknown {δ : Type} [DecidableEq δ] {manifestHash : List IndexArtifact → δ}
    {env : Env CommitSite Interruption} {s₀ : CommitState} {owned repairing : Bool}
    (haccepted : intent.accepted = true) (hintent : s₀.remote.intent = .valid intent)
    (hunknown : classifyBy manifestHash intent
      (observeIntentPayload service intent.groups s₀.remote.payload) = .unknown) :
    Triple env (fun s => s = s₀) (resolveSharedIntentBy manifestHash service owned repairing)
      (fun _ _ => False) (fun _ s => s.remote.index = s₀.remote.index)
      (fun s => s.remote.index = s₀.remote.index) := by
  refine Triple.lookAt (fun _ => rfl) ?_
  rw [hintent, loadIntent_valid haccepted]
  refine Triple.cut (fun observed s => observed
    = observeIntentPayload service intent.groups s₀.remote.payload ∧ s = s₀) ?_ fun observed => ?_
  · refine Triple.step (fun s hs _ => by rw [hs]) (fun s _ hs _ => by rw [hs]) ?_
    rintro s rfl
    exact ⟨rfl, rfl⟩
  · refine Triple.assume fun hobserved => ?_
    rw [hobserved, hunknown]
    refine Triple.cut (fun _ s => s.remote.index = s₀.remote.index) ?_ fun _ =>
      Triple.throw _ fun _ hs => hs
    have hkeeps : Keeps env (fun s : CommitState => s.remote.index = s₀.remote.index)
        preserveUnresolvedIntent := by
      refine Keeps.tryCatch (Keeps.act fun s hs => hs) fun error => ?_
      split
      · exact Keeps.throw _
      · exact Keeps.pure ()
    exact hkeeps.pre fun s hs => by rw [hs]

/-- An intent that is found to be at one of its manifests is retired, at the latest by a Full Sync
    of a device that does not own the dataset. -/
theorem resolve_of_found {δ : Type} [DecidableEq δ] {manifestHash : List IndexArtifact → δ}
    {env : Env CommitSite Interruption} (hquiet : ¬ env.Disturbs) {s₀ : CommitState}
    (haccepted : intent.accepted = true) (hintent : s₀.remote.intent = .valid intent)
    (hfound : classifyBy manifestHash intent
      (observeIntentPayload service intent.groups s₀.remote.payload) ≠ .unknown) :
    Triple env (fun s => s = s₀) (resolveSharedIntentBy manifestHash service false true)
      (fun _ _ => True) (fun _ _ => False) (fun _ => False) := by
  have hclear : Triple env (fun s => s = s₀) clearIntent (fun _ _ => True) (fun _ _ => False)
      (fun _ => False) := by
    refine Triple.tryCatchWith (fun _ _ => False) ?_ fun error => ?_
    · exact Triple.stepQuiet hquiet fun _ _ => trivial
    · exact fun _ _ hfalse => hfalse.elim
  refine Triple.lookAt (fun _ => rfl) ?_
  rw [hintent, loadIntent_valid haccepted]
  refine Triple.cut (fun observed s => observed
    = observeIntentPayload service intent.groups s₀.remote.payload ∧ s = s₀) ?_ fun observed => ?_
  · refine Triple.stepQuiet hquiet ?_
    rintro s rfl
    exact ⟨rfl, rfl⟩
  · refine Triple.assume fun hobserved => ?_
    rw [hobserved]
    unfold resolveClassified
    split
    · next hunknown => exact absurd hunknown hfound
    · split
      · exact hclear
      · rw [if_neg (fun h => Bool.false_ne_true h.1)]
        exact hclear
    · exact hclear

/-- The payload of a commit state, and the intent found there. -/
def leftBehind (intent : CommitIntent) (payload : Manifest) : CommitState where
  remote := ⟨payload, .empty, .valid intent, .absent⟩
  ownershipRecorded := false
  commit := ⟨intent.operationId, "", [], none, false, false, none, 0, false⟩

/-- An intent that is found never to have started is cleared. -/
theorem resolve_of_before {δ : Type} [DecidableEq δ] {manifestHash : List IndexArtifact → δ}
    {env : Env CommitSite Interruption} (hquiet : ¬ env.Disturbs) {s₀ : CommitState}
    {owned repairing : Bool} (haccepted : intent.accepted = true)
    (hintent : s₀.remote.intent = .valid intent)
    (hbefore : classifyBy manifestHash intent
      (observeIntentPayload service intent.groups s₀.remote.payload) = .before) :
    Triple env (fun s => s = s₀) (resolveSharedIntentBy manifestHash service owned repairing)
      (fun _ s => s = setIntent .absent s₀) (fun _ _ => False) (fun _ => False) := by
  refine Triple.lookAt (fun _ => rfl) ?_
  rw [hintent, loadIntent_valid haccepted]
  refine Triple.cut (fun observed s => observed
    = observeIntentPayload service intent.groups s₀.remote.payload ∧ s = s₀) ?_ fun observed => ?_
  · refine Triple.stepQuiet hquiet ?_
    rintro s rfl
    exact ⟨rfl, rfl⟩
  · refine Triple.assume fun hobserved => ?_
    rw [hobserved, hbefore]
    refine Triple.tryCatchWith (fun _ _ => False) ?_ fun error => ?_
    · refine Triple.stepQuiet hquiet ?_
      rintro s rfl
      rfl
    · exact fun _ _ hfalse => hfalse.elim

/-- Recovery refuses whatever was half promoted exactly when the device discerns the halves. -/
theorem refuses_iff (hsha256 : Function.Injective sha256) (haccepted : intent.accepted = true)
    (hnames : FileNames intent) (hdisjoint : DisjointPaths intent) :
    Refuses sha256 service intent ↔ Discerns service intent := by
  constructor
  · intro hrefuses
    by_contra hnot
    obtain ⟨payload, hpartly, hfinds⟩ := exists_misread haccepted hdisjoint hnot
    have hobserved : Observation intent (observeIntentPayload service intent.groups payload) :=
      observation_of_partlyPromoted haccepted hpartly
    have hclassified := classifyDigest_spec hsha256 haccepted hnames hobserved
    have hfound : classifyBy (manifestDigest sha256) intent
        (observeIntentPayload service intent.groups payload) ≠ .unknown := by
      intro hunknown
      obtain ⟨hdesired, hbefore⟩ := hclassified.unknown.mp hunknown
      exact hfinds.elim hdesired hbefore
    have htriple := @resolve_of_found service intent _ _ (manifestDigest sha256) .quiet
      Env.not_disturbs_quiet (leftBehind intent payload) haccepted rfl hfound
    obtain ⟨_, hdone, _⟩ := htriple.returns rfl
    exact (hrefuses false true .quiet (leftBehind intent payload) rfl hpartly).1 hdone
  · intro hdiscerns owned repairing env s hintent hpartly
    have hobserved : Observation intent
        (observeIntentPayload service intent.groups s.remote.payload) :=
      observation_of_partlyPromoted haccepted hpartly
    have hclassified := classifyDigest_spec hsha256 haccepted hnames hobserved
    have hunknown := hclassified.unknown.mpr
      (not_findsAll_of_discerns haccepted hdisjoint hdiscerns hpartly)
    have htriple := @resolve_of_unknown service intent _ _ (manifestDigest sha256) env s owned
      repairing haccepted hintent hunknown
    have hrun := htriple.run rfl
    intro result
    change result.1.Meets _ _ _ result.2 at hrun
    clear_value result
    obtain ⟨outcome, final⟩ := result
    cases outcome with
    | done a => exact hrun.elim
    | raised e => exact ⟨nofun, hrun⟩
    | crashed => exact ⟨nofun, hrun⟩

end Recovery

/-! ### A layout that only one device has opted into -/

/-- The save of a game, and a disk image that has to be opted into. -/
def hddRegistry : SaveRegistry where
  layouts := [⟨"snes", "snes", false, "root_stem", ""⟩, ⟨"xemu-hdd", "xbox", true, "layout", ""⟩]
  groupForPath := fun path =>
    if path = "snes/zelda.srm" then some ⟨"snes/zelda", "snes", "snes", "", "", ""⟩
    else if path = "xbox/xbox_hdd.qcow2" then
      some ⟨"xemu-hdd/dataset", "xemu-hdd", "xbox", "", "", ""⟩
    else none
  plain := by decide
  registered := by
    intro p d h
    split at h
    · cases h
      exact ⟨_, List.mem_cons_self, rfl⟩
    · split at h
      · cases h
        exact ⟨_, List.mem_cons_of_mem _ List.mem_cons_self, rfl⟩
      · cases h
  group_prefix := by
    intro p d h
    split at h
    · cases h
      exact ⟨"zelda", by decide⟩
    · split at h
      · cases h
        exact ⟨"dataset", by decide⟩
      · cases h
  container_closed := by
    intro p q d e h hcontained
    split at h
    · cases h
      exact absurd hcontained (by decide)
    · split at h
      · cases h
        exact absurd hcontained (by decide)
      · cases h
  container_group := by
    intro p q d e h _ hcontained
    split at h
    · cases h
      exact absurd hcontained (by decide)
    · split at h
      · cases h
        exact absurd hcontained (by decide)
      · cases h

/-- A device that has opted into the given systems. -/
def hddService (systems : Finset String) : Service := ⟨hddRegistry, systems, fun _ => none⟩

/-- A content hash of one digit, for short. -/
def hashOf (digit : Char) : String := String.ofList (List.replicate 64 digit)

theorem interrupted_dataset_filled : strip "dataset" ≠ "" := by decide

/-- A commit that replaces the save and uploads the disk image. -/
def hddIntent : CommitIntent where
  operationId := ⟨"op", by decide⟩
  originDevice := "den"
  datasetId := ⟨"dataset", interrupted_dataset_filled⟩
  baseIndexGeneration := 4
  baseJournalGeneration := 7
  phase := .promoting
  startedAt := "now"
  groups := [
    ⟨"snes/zelda", "snes", "snes", 3, [⟨"snes/zelda.srm", 8, hashOf '1'⟩],
      [⟨"snes/zelda.srm", 8, hashOf '2'⟩]⟩,
    ⟨"xemu-hdd/dataset", "xemu-hdd", "xbox", 0, [], [⟨"xbox/xbox_hdd.qcow2", 9, hashOf '3'⟩]⟩]
  publicationScope := .group

/-- The image was uploaded, the save was not yet replaced. -/
def hddPayload : Manifest :=
  .ofArtifacts [⟨"snes/zelda.srm", 8, hashOf '1'⟩, ⟨"xbox/xbox_hdd.qcow2", 9, hashOf '3'⟩]

theorem hddIntent_accepted : hddIntent.accepted = true := by decide +kernel

theorem hddIntent_fileNames : FileNames hddIntent := by
  unfold FileNames
  decide +kernel

theorem hddIntent_disjoint : DisjointPaths hddIntent := by
  unfold DisjointPaths List.Disjoint
  decide +kernel

end RomCloud.SaveSync.Commit
