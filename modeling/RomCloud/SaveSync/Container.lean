import RomCloud.Lib.Fault
import RomCloud.SaveSync.Reconcile

namespace RomCloud.SaveSync

open RomCloud.Lib

/-!
# Logical containers

A save container (a memory card) holds the saves of many games.  An adapter reads it as a list of
entries, each in a **merge domain**, and containers are merged domain by domain
(`core/save_containers.py`).

* `ContainerSnapshot`, `baselineFromSnapshot` — what an adapter reads, and the stored baseline;
* `planContainerReconcile`, `targetSnapshot` — the three-way plan and what it makes of a side;
* `ContainerFormat` — reading and rebuilding the files of a container, as parameters;
* `ContainerFormat.adapter` — the adapter a reconciliation calls (`SaveContainerAdapter`).

The fingerprint of a merge domain in a conflict path is represented by the domain itself, and an
entry has no locator: only `extract_entry` of an adapter would read it.
-/

/-! ### Snapshots -/

structure ContainerEntry where
  identity : String
  mergeDomainId : String
  canonicalHash : String
  sizeBytes : ℕ
deriving DecidableEq

structure ContainerSnapshot where
  containerId : ContainerId
  adapterId : String
  schemaVersion : ℕ
  formatVariant : String
  entries : List ContainerEntry
deriving DecidableEq

/-- `LogicalEntryState`: identity, canonical hash and size. -/
abbrev LogicalEntryState := String × String × ℕ

/-- The domains of a container with their entries. -/
abbrev LogicalDomains := Dict String (List LogicalEntryState)

def ContainerEntry.logical (entry : ContainerEntry) : LogicalEntryState :=
  (entry.identity, entry.canonicalHash, entry.sizeBytes)

/-- Entries in the order of their identities. -/
def sortedByIdentity (entries : List ContainerEntry) : List ContainerEntry :=
  entries.insertionSort (fun a b => a.identity ≤ b.identity)

/-- `snapshot_to_domains`. -/
def snapshotToDomains (snapshot : ContainerSnapshot) : LogicalDomains :=
  Dict.ofKeys (snapshot.entries.map ContainerEntry.mergeDomainId) (fun domain =>
    some ((sortedByIdentity (snapshot.entries.filter (fun entry =>
      entry.mergeDomainId = domain))).map ContainerEntry.logical))

/-- `baseline_from_snapshot`. -/
def baselineFromSnapshot (snapshot : ContainerSnapshot) : ContainerBaseline where
  containerId := snapshot.containerId
  adapterId := snapshot.adapterId
  schemaVersion := snapshot.schemaVersion
  formatVariant := snapshot.formatVariant
  domains := (snapshotToDomains snapshot).entries
  tombstones := []

/-! ### The plan -/

inductive DomainAction
  | converged
  | useLocal
  | useRemote
  | conflict
deriving DecidableEq

section Decision

variable (base localDomain remoteDomain : Option (List LogicalEntryState))

/-- The decision for a domain without a baseline: a domain on one side only is an addition. -/
def firstAction : DomainAction :=
  if localDomain = remoteDomain then .converged
  else if remoteDomain = none then .useLocal
  else if localDomain = none then .useRemote
  else .conflict

/-- The decision for a domain under a baseline. -/
def domainAction : DomainAction :=
  if localDomain = remoteDomain then .converged
  else if localDomain = base then .useRemote
  else if remoteDomain = base then .useLocal
  else .conflict

end Decision

structure ContainerReconcilePlan where
  /-- The domains with their decisions, in order. -/
  decisions : List (String × DomainAction)
  localDomains : LogicalDomains
  remoteDomains : LogicalDomains
  desiredLocal : LogicalDomains
  desiredRemote : LogicalDomains
  nextBaseline : ContainerBaseline

/-- `_domain_map`. -/
def domainMap (domains : List (String × List LogicalEntryState)) : LogicalDomains :=
  (∅ : LogicalDomains).insertAll domains some

/-- `_assert_compatible`. -/
def compatible (localSnapshot remoteSnapshot : ContainerSnapshot)
    (baseline : Option ContainerBaseline) : Bool :=
  let identity := fun (s : ContainerSnapshot) =>
    (s.containerId, s.adapterId, s.schemaVersion, s.formatVariant)
  identity localSnapshot = identity remoteSnapshot
    && baseline.all (fun b =>
      identity localSnapshot = (b.containerId, b.adapterId, b.schemaVersion, b.formatVariant))

/-- The plan for the domains `keys`, decided by `action`.  A domain in conflict keeps on each side
    what it has there, and in the baseline what it had. -/
def planDomains (localSnapshot : ContainerSnapshot)
    (base localDomains remoteDomains : LogicalDomains) (knownTombstones keys : List String)
    (action : String → DomainAction) : ContainerReconcilePlan :=
  let selected (domain : String) : Option (List LogicalEntryState) :=
    if action domain = .useRemote then remoteDomains.get? domain else localDomains.get? domain
  { decisions := (sortedSet keys).map (fun domain => (domain, action domain))
    localDomains := localDomains
    remoteDomains := remoteDomains
    desiredLocal := Dict.ofKeys keys (fun domain =>
      if action domain = .useRemote then remoteDomains.get? domain else localDomains.get? domain)
    desiredRemote := Dict.ofKeys keys (fun domain =>
      if action domain = .useLocal then localDomains.get? domain else remoteDomains.get? domain)
    nextBaseline :=
      { containerId := localSnapshot.containerId
        adapterId := localSnapshot.adapterId
        schemaVersion := localSnapshot.schemaVersion
        formatVariant := localSnapshot.formatVariant
        domains := (Dict.ofKeys keys (fun domain =>
          if action domain = .conflict then base.get? domain else selected domain)).entries
        tombstones := knownTombstones } }

/-- `plan_container_reconcile`.  The snapshots have the identity of the baseline, if there is
    one. -/
def planContainerReconcile (localSnapshot remoteSnapshot : ContainerSnapshot)
    (baseline : Option ContainerBaseline) : Except OpaqueReason ContainerReconcilePlan :=
  if !compatible localSnapshot remoteSnapshot baseline then .error .adapterVersionMismatch
  else
    let localDomains := snapshotToDomains localSnapshot
    let remoteDomains := snapshotToDomains remoteSnapshot
    match baseline with
    | none =>
      .ok (planDomains localSnapshot ∅ localDomains remoteDomains []
        (localDomains.keys ++ remoteDomains.keys) (fun domain =>
          firstAction (localDomains.get? domain) (remoteDomains.get? domain)))
    | some baseline =>
      let base := domainMap baseline.domains
      let keys := base.keys ++ baseline.tombstones ++ localDomains.keys ++ remoteDomains.keys
      let action := fun domain =>
        domainAction (base.get? domain) (localDomains.get? domain) (remoteDomains.get? domain)
      -- a tombstone is a domain known to be absent on both sides
      let tombstones := (sortedSet keys).filter (fun domain =>
        match action domain with
        | .conflict => domain ∈ baseline.tombstones
        | .useRemote => (remoteDomains.get? domain).isNone
        | _ => (localDomains.get? domain).isNone)
      .ok (planDomains localSnapshot base localDomains remoteDomains tombstones keys action)

/-- The entries of a target: those of the desired domains, as they were observed. -/
def targetEntries (observed : List ContainerEntry) :
    List (String × LogicalEntryState) → Except OpaqueReason (List ContainerEntry)
  | [] => .ok []
  | (domain, logical) :: rest =>
    match observed.find? (fun entry => entry.mergeDomainId = domain && entry.logical = logical) with
    | none => .error (.other "validation-failure")
    | some entry =>
      match targetEntries observed rest with
      | .error reason => .error reason
      | .ok others => .ok (entry :: others)

/-- `target_snapshot`, of the desired domains of a side. -/
def targetSnapshot (desired : LogicalDomains) (localSnapshot remoteSnapshot : ContainerSnapshot) :
    Except OpaqueReason ContainerSnapshot :=
  match targetEntries (localSnapshot.entries ++ remoteSnapshot.entries)
      (desired.entries.flatMap (fun domain => domain.2.map (fun entry => (domain.1, entry)))) with
  | .error reason => .error reason
  | .ok entries => .ok { localSnapshot with entries := sortedByIdentity entries }

/-! ### Adapters -/

/-- A container format: how the files of a container are read, and rebuilt as a target from the
    files of both sides.  What is read has distinct identities.  A rebuilt container has only files
    that one of the sides has, and reads back as its target. -/
structure ContainerFormat where
  adapterId : String
  schemaVersion : ℕ
  formatVariant : String
  readEntries : SaveGroupDescriptor → Manifest → Except OpaqueReason (List ContainerEntry)
  rebuild : SaveGroupDescriptor → (localPart remotePart destination : Manifest) →
    List ContainerEntry → Except OpaqueReason Manifest
  distinct : ∀ d m entries, readEntries d m = .ok entries →
    (entries.map ContainerEntry.identity).Nodup
  rebuild_inside : ∀ d l r m target files p a, rebuild d l r m target = .ok files →
    files.get? p = some a → d.contains p
  rebuild_known : ∀ d l r m target files p a, rebuild d l r m target = .ok files →
    files.get? p = some a → l.get? p ≠ none ∨ r.get? p ≠ none
  rebuild_reads : ∀ d l r m target files, rebuild d l r m target = .ok files →
    readEntries d files = .ok target

namespace ContainerFormat

variable (format : ContainerFormat) (descriptor : SaveGroupDescriptor)

/-- `adapter.snapshot`. -/
def snapshot (part : Manifest) : Except OpaqueReason ContainerSnapshot :=
  (format.readEntries descriptor part).map (fun entries =>
    ⟨descriptor.containerId, format.adapterId, format.schemaVersion, format.formatVariant,
      entries⟩)

/-- `_stage_container_target`: the rebuilt files, unless the side has its target already. -/
def stageContainerTarget (localPart remotePart destination : Manifest)
    (current target : ContainerSnapshot) : Except OpaqueReason (Option Manifest) :=
  if current.entries = target.entries then .ok none
  else (format.rebuild descriptor localPart remotePart destination target.entries).map some

/-- The size of a domain in a transfer. -/
def domainBytes (domain : Option (List LogicalEntryState)) : ℕ :=
  ((domain.getD []).map (fun entry => entry.2.2)).sum

/-- The domains a plan decides in one way. -/
def decided (plan : ContainerReconcilePlan) (action : DomainAction) : List String :=
  (plan.decisions.filter (fun decision => decision.2 = action)).map Prod.fst

/-- What the loop of `_prepare_container_reconciliation` gets from reading, planning and staging:
    the plan, and the rebuilt files of both sides. -/
def staged (localPart remotePart : Manifest) (baseline : Option ContainerBaseline) :
    Except OpaqueReason (ContainerReconcilePlan × Option Manifest × Option Manifest) := do
  let localSnapshot ← format.snapshot descriptor localPart
  let remoteSnapshot ← format.snapshot descriptor remotePart
  let plan ← planContainerReconcile localSnapshot remoteSnapshot baseline
  let localTarget ← targetSnapshot plan.desiredLocal localSnapshot remoteSnapshot
  let remoteTarget ← targetSnapshot plan.desiredRemote localSnapshot remoteSnapshot
  let localFiles ← format.stageContainerTarget descriptor localPart remotePart localPart
    localSnapshot localTarget
  let remoteFiles ← format.stageContainerTarget descriptor localPart remotePart remotePart
    remoteSnapshot remoteTarget
  return (plan, localFiles, remoteFiles)

variable {format descriptor} {localPart remotePart : Manifest}
variable {baseline : Option ContainerBaseline}

/-- What reading, planning and staging have gone through where they succeed. -/
theorem of_staged {plan : ContainerReconcilePlan} {localFiles remoteFiles : Option Manifest}
    (h : format.staged descriptor localPart remotePart baseline
      = .ok (plan, localFiles, remoteFiles)) :
    ∃ localSnapshot remoteSnapshot localTarget remoteTarget,
      format.snapshot descriptor localPart = .ok localSnapshot
        ∧ format.snapshot descriptor remotePart = .ok remoteSnapshot
        ∧ planContainerReconcile localSnapshot remoteSnapshot baseline = .ok plan
        ∧ targetSnapshot plan.desiredLocal localSnapshot remoteSnapshot = .ok localTarget
        ∧ targetSnapshot plan.desiredRemote localSnapshot remoteSnapshot = .ok remoteTarget
        ∧ format.stageContainerTarget descriptor localPart remotePart localPart localSnapshot
            localTarget = .ok localFiles
        ∧ format.stageContainerTarget descriptor localPart remotePart remotePart remoteSnapshot
            remoteTarget = .ok remoteFiles := by
  unfold staged at h
  obtain ⟨localSnapshot, hl, h⟩ := bind_eq_ok h
  obtain ⟨remoteSnapshot, hr, h⟩ := bind_eq_ok h
  obtain ⟨found, hplan, h⟩ := bind_eq_ok h
  obtain ⟨localTarget, hlt, h⟩ := bind_eq_ok h
  obtain ⟨remoteTarget, hrt, h⟩ := bind_eq_ok h
  obtain ⟨foundLocal, hlf, h⟩ := bind_eq_ok h
  obtain ⟨foundRemote, hrf, h⟩ := bind_eq_ok h
  cases h
  exact ⟨_, _, _, _, hl, hr, hplan, hlt, hrt, hlf, hrf⟩

theorem containerId_of_snapshot {snapshot : ContainerSnapshot}
    (h : format.snapshot descriptor localPart = .ok snapshot) :
    snapshot.containerId = descriptor.containerId := by
  obtain ⟨entries, -, rfl⟩ := map_eq_ok h
  rfl

/-- The next baseline has the identity of the snapshots. -/
theorem nextBaseline_identity {localSnapshot remoteSnapshot : ContainerSnapshot}
    {plan : ContainerReconcilePlan}
    (h : planContainerReconcile localSnapshot remoteSnapshot baseline = .ok plan) :
    plan.nextBaseline.containerId = localSnapshot.containerId
      ∧ plan.nextBaseline.adapterId = localSnapshot.adapterId
      ∧ plan.nextBaseline.schemaVersion = localSnapshot.schemaVersion
      ∧ plan.nextBaseline.formatVariant = localSnapshot.formatVariant := by
  unfold planContainerReconcile at h
  split at h
  · exact absurd h (by simp)
  · cases baseline with
    | none =>
      obtain rfl := Except.ok.inj h
      exact ⟨rfl, rfl, rfl, rfl⟩
    | some baseline =>
      obtain rfl := Except.ok.inj h
      exact ⟨rfl, rfl, rfl, rfl⟩

/-- A staged side lies inside the container. -/
theorem inside_of_stageContainerTarget {destination files : Manifest}
    {current target : ContainerSnapshot} {p : Path} {a : SaveArtifact}
    (h : format.stageContainerTarget descriptor localPart remotePart destination current target
      = .ok (some files)) (hp : files.get? p = some a) : descriptor.contains p = true := by
  unfold stageContainerTarget at h
  split at h
  · exact absurd h (by simp)
  · obtain ⟨built, hbuild, hfiles⟩ := map_eq_ok h
    obtain rfl := Option.some.inj hfiles
    exact format.rebuild_inside _ _ _ _ _ _ _ _ hbuild hp

variable (format)

/-- The adapter of a format, as a reconciliation calls it. -/
def adapter : SaveContainerAdapter := fun descriptor localPart remotePart baseline =>
  match h : format.staged descriptor localPart remotePart baseline with
  | .error reason => .error reason
  | .ok (plan, localFiles, remoteFiles) => .ok
    { localFiles := localFiles
      remoteFiles := remoteFiles
      nextBaseline := plan.nextBaseline
      conflictPaths := (decided plan .conflict).map (fun domain =>
        descriptor.containerId ++ "/logical-conflict-" ++ domain)
      uploaded := (decided plan .useLocal).length
      downloaded := (decided plan .useRemote).length
      unchanged := (decided plan .converged).length
      uploadBytes :=
        ((decided plan .useLocal).map (fun d => domainBytes (plan.localDomains.get? d))).sum
      downloadBytes :=
        ((decided plan .useRemote).map (fun d => domainBytes (plan.remoteDomains.get? d))).sum
      baseline_id := by
        obtain ⟨_, _, _, _, hl, -, hplan, -⟩ := of_staged h
        exact (nextBaseline_identity hplan).1.trans (containerId_of_snapshot hl)
      local_inside := by
        intro m p a hm hp
        obtain ⟨_, _, _, _, -, -, -, -, -, hstage, -⟩ := of_staged h
        exact inside_of_stageContainerTarget (hm ▸ hstage) hp
      remote_inside := by
        intro m p a hm hp
        obtain ⟨_, _, _, _, -, -, -, -, -, -, hstage⟩ := of_staged h
        exact inside_of_stageContainerTarget (hm ▸ hstage) hp }

end ContainerFormat

end RomCloud.SaveSync
