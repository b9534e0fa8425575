import Mathlib.Data.Finset.Sort
import Mathlib.Data.String.Basic
import RomCloud.SaveSync.Journal
import RomCloud.SaveSync.NarrowScan

namespace RomCloud.SaveSync

open RomCloud.Lib

/-!
# Legacy Quick Sync

Quick Sync on a dataset that the commit protocol does not own: discovery from the shared journal,
one scoped reconciliation, and a new journal cursor (`SaveSyncService._quick_sync`).

* `quickSyncScope` — the groups and layouts the unseen entries name;
* `quickSyncSelectors` — that scope merged with pending groups and obsolete conflicts;
* `quickSync` — the whole pass.
-/

/-- The arguments of `_quick_sync`, without a forced current-state scan. -/
structure QuickSyncCall where
  isGroupActive : GroupId → Bool
  isLayoutActive : LayoutId → Bool
  excludedLayouts : Finset LayoutId

inductive QuickSyncStatus
  | unchanged
  | reconciled
  | deferred
  | requiresFullSync
deriving DecidableEq

structure SaveQuickSyncResult where
  status : QuickSyncStatus
  remoteGeneration : ℕ
  cursorBefore : Option ℕ
  cursorAfter : Option ℕ
  processedEntries : ℕ
  processedGroups : List GroupId
  report : Option SaveReconcileReport
  reason : String

/-- The layout an entry names. -/
def entryLayout (entry : Journal.Entry) : LayoutId := strip entry.layoutId.val

/-- The group an entry names, `""` when it names none. -/
def entryGroup (entry : Journal.Entry) : GroupId := strip (entry.groupId.getD "")

section Scope

variable (service : Service) (state : SaveSyncState) (excluded : Finset LayoutId)

/-- Whether `_quick_sync_scope` takes an entry up. -/
def eligibleEntry (entry : Journal.Entry) : Bool :=
  entryLayout entry ∉ excluded && service.layoutEnabled (entryLayout entry)

/-- Whether an entry names a group the device tracks. -/
def namesKnownGroup (entry : Journal.Entry) : Bool :=
  entryGroup entry ≠ "" && (state.groups.get? (entryGroup entry)).isSome

/-- The loop of `_quick_sync_scope`. -/
def scopeOfEntries : List Journal.Entry → Except String (Finset GroupId × Finset LayoutId)
  | [] => .ok (∅, ∅)
  | entry :: rest =>
    if entryLayout entry = "" then .error "journal-entry-missing-layout"
    else match scopeOfEntries rest with
    | .error reason => .error reason
    | .ok (groups, layouts) =>
      if !eligibleEntry service excluded entry then .ok (groups, layouts)
      else if namesKnownGroup state entry then .ok (insert (entryGroup entry) groups, layouts)
      else .ok (groups, insert (entryLayout entry) layouts)

/-- `_quick_sync_scope`. -/
def quickSyncScope (entries : List Journal.Entry) :
    Except String (Option (Finset GroupId) × Option (Finset LayoutId)) :=
  match scopeOfEntries service state excluded entries with
  | .error reason => .error reason
  | .ok (groups, layouts) =>
    if groups ≠ ∅ then .ok (some groups, if layouts ≠ ∅ then some layouts else none)
    else if layouts ≠ ∅ then .ok (none, some layouts)
    else .ok (some ∅, none)

/-- A stored group with local work: dirty, or with a dirty hint. -/
def SaveGroupState.dirty (group : SaveGroupState) : Bool :=
  group.condition = .localDirty || group.condition = .remoteDirty || !group.dirtyPathHints.isEmpty

/-- `pending_groups`: the groups with local work, and those of which local files are missing. -/
def pendingGroups (localSide : Manifest) : Finset GroupId :=
  ((state.groups.toList.filter (fun group =>
      group.layoutId ∉ excluded && service.layoutEnabled group.layoutId && group.dirty)).map
        SaveGroupState.groupId).toFinset
    ∪ ((service.localMaterializationGaps state localSide excluded).map
        SaveGroupState.groupId).toFinset

/-- The layouts of the stored groups among `groups`. -/
def storedLayouts (groups : Finset GroupId) : Finset LayoutId :=
  groups.biUnion (fun gid =>
    match state.groups.get? gid with
    | none => ∅
    | some group => {group.layoutId})

/-- The selectors of the reconciliation: the scope of the unseen entries, with the pending groups
    and the layouts of obsolete conflicts merged in. -/
def quickSyncSelectors (scope : Option (Finset GroupId) × Option (Finset LayoutId))
    (pending : Finset GroupId) (obsoleteLayouts : Finset LayoutId) :
    Option (Finset GroupId) × Option (Finset LayoutId) :=
  let merged :=
    if pending = ∅ then scope
    else match scope.2 with
    | none => (some (scope.1.getD ∅ ∪ pending), none)
    | some layouts => (none, some (layouts ∪ storedLayouts state (scope.1.getD ∅ ∪ pending)))
  if obsoleteLayouts = ∅ then merged
  else (none, some (merged.2.getD ∅ ∪ obsoleteLayouts
    ∪ storedLayouts state (merged.1.getD ∅ ∪ pending)))

end Scope

/-- The reconciliation a Quick Sync asks for. -/
def quickSyncCall (quick : QuickSyncCall) (obsolete : List SaveConflictRecord)
    (selectors : Option (Finset GroupId) × Option (Finset LayoutId)) : ReconcileCall where
  selectedGroupIds := selectors.1
  selectedLayoutIds := selectors.2
  uploadOnly := false
  bootstrap := false
  isGroupActive := quick.isGroupActive
  isLayoutActive := quick.isLayoutActive
  obsoleteConflictIds := obsolete.map SaveConflictRecord.conflictId
  trustedGroupScope := true
  groupLayoutHints := ∅
  indexedRemotePaths := ∅

/-- The reconciliation that the unseen entries and the device's own work call for; `none` when
    nothing is left to look at. -/
def plannedCall (service : Service) (quick : QuickSyncCall) (sides : Sides)
    (obsolete : List SaveConflictRecord) (unseen : List Journal.Entry) : Option ReconcileCall :=
  match quickSyncScope service sides.state quick.excludedLayouts unseen with
  | .error _ => none
  | .ok scope =>
    let selectors := quickSyncSelectors sides.state scope
      (pendingGroups service sides.state quick.excludedLayouts sides.localSide)
      (obsolete.map SaveConflictRecord.layoutId).toFinset
    if selectors.1 = some ∅ ∧ selectors.2 = none then none
    else some (quickSyncCall quick obsolete selectors)

/-- The half of `_quick_sync` after discovery: reconcile what the unseen entries and the device's
    own work select, and move the cursor. -/
def quickSyncEntries (service : Service) (quick : QuickSyncCall) (env : ReconcileEnv)
    (sides : Sides) (obsolete : List SaveConflictRecord) (cursor remoteGeneration : ℕ)
    (unseen : List Journal.Entry) : Except SaveSyncError (SaveQuickSyncResult × Sides) :=
  let pending := pendingGroups service sides.state quick.excludedLayouts sides.localSide
  match quickSyncScope service sides.state quick.excludedLayouts unseen with
  | .error reason =>
    .ok (⟨.requiresFullSync, remoteGeneration, some cursor, some cursor, 0, [], none, reason⟩,
      sides)
  | .ok scope =>
    let selectors := quickSyncSelectors sides.state scope pending
      (obsolete.map SaveConflictRecord.layoutId).toFinset
    if selectors.1 = some ∅ ∧ selectors.2 = none then
      .ok (⟨.unchanged, remoteGeneration, some cursor, some remoteGeneration, unseen.length, [],
          none, "journal-no-eligible-changes"⟩,
        { sides with state :=
          { sides.state with
            quickSyncReady := true
            quickSyncCursorGeneration := some remoteGeneration } })
    else match reconcileOnce service (quickSyncCall quick obsolete selectors) env sides with
    | .error error => .error error
    | .ok none =>
      .ok (⟨.deferred, remoteGeneration, some cursor, some cursor, unseen.length,
        (selectors.1.getD ∅).sort (· ≤ ·), none, "active-session"⟩, sides)
    | .ok (some (report, after)) =>
      let cursorAfter :=
        max remoteGeneration (after.state.quickSyncCursorGeneration.getD remoteGeneration)
      .ok (⟨.reconciled, remoteGeneration, some cursor, some cursorAfter, unseen.length,
          (selectors.1.getD ∅).sort (· ≤ ·), some report, ""⟩,
        { after with state :=
          { after.state with
            quickSyncReady := true
            quickSyncCursorGeneration := some cursorAfter } })

/-- The generation of a journal file, 0 when it cannot be read. -/
def journalGeneration (journal : Journal.File) : ℕ :=
  match Journal.load journal with
  | .error _ => 0
  | .ok document => document.generation

/-- `_quick_sync` on a dataset without owner. -/
def quickSync (service : Service) (quick : QuickSyncCall) (env : ReconcileEnv)
    (journal : Journal.File) (sides : Sides) : Except SaveSyncError (SaveQuickSyncResult × Sides) :=
  if !env.reachable then
    .error (.connectivity "Remote save location is not reachable")
  else match service.obsoleteWholeLayoutConflicts sides.state quick.excludedLayouts
      (fun _ => true) with
  | .error error => .error error
  | .ok obsolete =>
    let cursor? := sides.state.quickSyncCursorGeneration
    match cursor?, sides.state.quickSyncReady with
    | some cursor, true =>
      let remoteGeneration := journalGeneration journal
      match Journal.discover cursor journal with
      | .requiresFullSync reason =>
        .ok (⟨.requiresFullSync,
          if reason = "journal-untrustworthy" then cursor else remoteGeneration,
          some cursor, some cursor, 0, [], none, reason⟩, sides)
      | .unchanged =>
        let pending := pendingGroups service sides.state quick.excludedLayouts sides.localSide
        if pending = ∅ ∧ obsolete = [] then
          .ok (⟨.unchanged, remoteGeneration, some cursor, some cursor, 0, [], none,
            "journal-current-local-materialized"⟩, sides)
        else quickSyncEntries service quick env sides obsolete cursor remoteGeneration []
      | .unseen entries =>
        quickSyncEntries service quick env sides obsolete cursor remoteGeneration entries
    | _, _ =>
      .ok (⟨.requiresFullSync, cursor?.getD 0, cursor?, cursor?, 0, [], none,
        "quick-sync-baseline-missing"⟩, sides)

end RomCloud.SaveSync
