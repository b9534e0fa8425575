import RomCloud.SaveSync.IndexPublication
import RomCloud.SaveSync.RemoteCommit

namespace RomCloud.SaveSync.Commit

open RomCloud.Lib RomCloud.SaveSync.Index

/-!
# The publication of a Full Sync

A Full Sync ends with `_publish_authoritative_index`, the only way to an owned dataset.  It scans
the remote, makes a group set of every layout it finds files or tracked groups of, and publishes
these over the layouts of the old HEAD.

* `indexedGroup`, `collectIndexLayoutGroups` — the group sets;
* `publishFullIndex` — the publication, whose errors are logged and swallowed.

The groups a device tracks are those of its state.  A scan looks at the enabled layouts only.
-/

section Collect

variable (service : Service)

/-- `_scan_automatic_remote`. -/
def scanAutomaticRemote (payload : Manifest) : Manifest :=
  (service.scanLayouts service.layoutEnabled none payload).artifacts

variable (tracked : GroupTable)

/-- The layout, the system and the container adapter a group is published under: those of its
    files or, if there are none, of the layout the device tracks it under. -/
def publishedUnder (gid : GroupId) (files : List SaveArtifact) :
    Option (LayoutId × String × Option String) :=
  match files.head?.bind (fun first => service.registry.groupForPath first.relativePath) with
  | some descriptor => some (descriptor.layoutId, descriptor.system,
      if descriptor.containerAdapterId = "" then none else some descriptor.containerAdapterId)
  | none => (tracked.get? gid).bind (fun group =>
      (service.registry.layout group.layoutId).map (fun layout =>
        (group.layoutId, layout.system, none)))

variable (dir : IndexDir) (deviceId : Text) (scanned : Manifest)

/-- The body of the loop of `_collect_index_layout_groups`. -/
def indexedGroup (gid : GroupId) : Option IndexGroup :=
  if "unsupported:".toList.isPrefixOf gid.toList then none
  else
    let files := groupFiles service.registry.toSaveSelectionPolicy scanned gid
    match publishedUnder service tracked gid files with
    | none => none
    | some (layoutId, system, containerHead) =>
      let artifacts := files.map indexArtifact
      if artifacts = [] ∧ (tracked.get? gid).isNone then none
      else
        let previousGroup := committedGroup dir layoutId gid
        some
          { groupId := gid
            layoutId := layoutId
            system := system
            groupGeneration :=
              match previousGroup with
              | some previousGroup =>
                if previousGroup.artifacts = artifacts then previousGroup.groupGeneration
                else previousGroup.groupGeneration + 1
              | none => 1
            artifacts := artifacts
            tombstoned := artifacts.isEmpty
            originDevice := deviceId.val
            completedTransactionId := none
            containerHead := containerHead.or (previousGroup.bind IndexGroup.containerHead) }

/-- The groups a Full Sync publishes: of the ids with scanned files and of the tracked ids. -/
def indexedGroups : List IndexGroup :=
  (sortedSet (scanned.paths.map service.groupId ++ tracked.keys)).filterMap
    (indexedGroup service tracked dir deviceId scanned)

end Collect

/-- Groups filed under their layouts, these in the order in which they first appear. -/
def groupedByLayout (groups : List IndexGroup) : LayoutGroups where
  val := (layoutsOf groups).map (fun layoutId =>
    (layoutId, (∅ : IndexGroups).putAll (groups.filter (fun group => group.layoutId = layoutId))))
  property := by
    rw [List.map_map]
    exact (List.map_id _).symm ▸ (layoutsOf_spec groups).1

/-- `_collect_index_layout_groups`, of what a scan found. -/
def collectIndexLayoutGroups (service : Service) (tracked : GroupTable) (dir : IndexDir)
    (deviceId : Text) (scanned : Manifest) : LayoutGroups :=
  groupedByLayout (indexedGroups service tracked dir deviceId scanned)

/-- `_publish_authoritative_index`: the HEAD that was published, if the publication went well. -/
def publishFullIndex (service : Service) (tracked : GroupTable) (deviceId freshId : Text)
    (journalGeneration : ℕ) (establishedAt : Text) : CommitProg (Option IndexHead) :=
  Prog.tryCatch
    (scanning (scanAutomaticRemote service) >>= fun scanned =>
     look >>= fun s =>
     onIndex (publishAuthoritativeIndex none freshId journalGeneration
      (collectIndexLayoutGroups service tracked s.remote.index deviceId scanned) deviceId
      establishedAt) >>= fun head => pure (some head))
    (fun error =>
      match error with
      | .external .interrupt => Prog.throw error
      | _ => pure none) >>= fun published =>
  match published with
  | none => pure none
  | some head =>
    clearIntent >>= fun _ =>
    rememberDatasetOwnership >>= fun _ => pure (some head)

end RomCloud.SaveSync.Commit
