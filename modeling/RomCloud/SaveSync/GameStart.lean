import RomCloud.Lib.Dict
import RomCloud.Lib.Json
import RomCloud.Lib.PyJson

namespace RomCloud.SaveSync.GameStart

open RomCloud.Lib

/-!
# The hook before a game starts

`game_start` writes a marker for the session, tries to synchronize the saves of the game, and notes
in the marker what came of it.  A failure must not keep the game from starting: target resolution,
the service, the conflict lookup and the prompt queue have handlers.  The two marker operations
have none.

* `readMarker`, `start`, `recordSyncOutcome` — `ActiveSessionStore`;
* `gameStart` — the hook;
* `Launches` — it returns, with conflicts of the game's own save groups;
* `Startable`, `Recordable` — what the two marker operations need;
* `gameStart_launches_iff` — that nothing else is needed.
-/

structure GameSession where
  system : PyText
  emulator : PyText
  core : PyText
  rom : PyText
  startedAt : PyFloat
  bootId : PyText
  syncOutcome : PyText
  syncGroupIds : List PyText

/-- The answers of the file system to a marker that is written. -/
structure WriteAnswers where
  mkdir : Except PyError Unit
  writeText : Except PyError Unit
  replace : Except PyError Unit

structure ActiveConflict where
  conflictId : String
  groupId : String

structure SyncResult where
  status : String
  reason : String

/-- What the hook finds: the policy, the service and the files answer as they like, and raise what
they like. -/
structure Env where
  bootId : PyText
  now : PyFloat
  parseFloat : PyText → Option PyFloat
  repr : PyJson → String
  startAnswers : WriteAnswers
  recordAnswers : WriteAnswers
  /-- `json.loads(path.read_text())` of the marker, when the outcome is noted. -/
  marker : Except PyError PyJson
  layoutIds : PyText → PyText → PyText → List String
  /-- Whether the layout is shared or a container. -/
  layout : String → Except PyError Bool
  sharedContainerGroupId : String → Except PyError (Option String)
  groupIdForRom : String → PyText → Except PyError (Option String)
  targetedGameStartSync : Dict String String → Except PyError SyncResult
  activeConflicts : Except PyError (List ActiveConflict)
  enqueue : List String → Except PyError Unit

section Markers

variable (env : Env)

/-- `_path`: the digest needs the text as UTF-8. -/
def markerPath (system rom : PyText) : Except PyError (PyText × PyText) :=
  if system.encodable && rom.encodable then .ok (system, rom) else .error .valueError

def write (answers : WriteAnswers) (session : GameSession) : Except PyError Unit := do
  answers.mkdir
  let _ ← markerPath session.system session.rom
  answers.writeText
  answers.replace

def start (system emulator core rom : PyText) : Except PyError GameSession := do
  let session : GameSession :=
    ⟨system, emulator, core, rom, env.now, env.bootId, .ofString "not_attempted", []⟩
  write env.startAnswers session
  .ok session

/-- The session that the fields of a marker describe. -/
def sessionOf (fields : List (PyText × PyJson)) : Except PyError GameSession := do
  let rawGroupIds := PyJson.getOr fields "sync_group_ids" (.list [])
  let system ← PyJson.item fields "system"
  let emulator := PyJson.getOr fields "emulator" (.str [])
  let core := PyJson.getOr fields "core" (.str [])
  let rom ← PyJson.item fields "rom"
  let startedAt ← PyJson.item fields "started_at"
  let startedAt ← PyJson.toFloat env.parseFloat startedAt
  let bootId ← PyJson.item fields "boot_id"
  let syncOutcome := PyJson.getOr fields "sync_outcome" (.str (.ofString "not_attempted"))
  let groupIds ← PyJson.iterate rawGroupIds
  let text := PyJson.toText env.repr
  .ok ⟨text system, text emulator, text core, text rom, startedAt, text bootId, text syncOutcome,
    groupIds.map text⟩

/-- The exceptions that `_read` takes for a marker that is not there. -/
def readErrors : PyError → Bool
  | .osError | .keyError | .typeError | .valueError => true
  | _ => false

/-- `_read`: only a dictionary has a `get`. -/
def readMarker : Except PyError (Option GameSession) := do
  let session ← handled readErrors none (do
    let payload ← env.marker
    match payload with
    | .dict fields => (sessionOf env fields).map some
    | _ => .error .attributeError)
  .ok (session.filter (fun session => session.bootId = env.bootId))

def recordSyncOutcome (system rom : PyText) (outcome : String) (groupIds : List String) :
    Except PyError Unit := do
  let _ ← markerPath system rom
  match ← readMarker env with
  | none => .ok ()
  | some session =>
    write env.recordAnswers
      { session with syncOutcome := .ofString outcome, syncGroupIds := groupIds.map .ofString }

end Markers

section Hook

variable (env : Env)

/-- The save group of a layout, if it is sure. -/
def targetOf (layoutId : String) (rom : PyText) : Except PyError (Option String) := do
  let shared ← env.layout layoutId
  if shared then env.sharedContainerGroupId layoutId else env.groupIdForRom layoutId rom

def resolveGameStartTargets (layoutIds : List String) (rom : PyText) :
    Except PyError (Dict String String) :=
  (sortedSet layoutIds).foldlM (fun targets layoutId => do
    match ← targetOf env layoutId rom with
    | none => .ok targets
    | some groupId => .ok (targets.assign groupId (some layoutId))) ∅

def queuePrompts (conflictIds : List String) : Except PyError Unit :=
  if conflictIds.isEmpty then .ok () else env.enqueue conflictIds

/-- The conflicts of the groups. They are returned, whether or not the prompt queue takes them. -/
def conflictIdsOf (targets : List String) (result : SyncResult) : Except PyError (List String) :=
  if result.status = "unresolved" && result.reason = "conflict" then do
    let conflicts ← handled (fun _ => true) [] env.activeConflicts
    let conflictIds := sortOn id ((conflicts.filter (fun c => targets.contains c.groupId)).map
      ActiveConflict.conflictId)
    handled (fun _ => true) () (queuePrompts env conflictIds)
    .ok conflictIds
  else .ok []

def gameStartSync (system emulator core rom : PyText) : Except PyError (List String) :=
  let layoutIds := env.layoutIds system emulator core
  if layoutIds.isEmpty then do
    recordSyncOutcome env system rom "unsupported" []
    .ok []
  else
    match resolveGameStartTargets env layoutIds rom with
    | .error _ => do
      recordSyncOutcome env system rom "unresolved" []
      .ok []
    | .ok groupLayoutMap =>
      if groupLayoutMap.keys.isEmpty then do
        recordSyncOutcome env system rom "skipped" []
        .ok []
      else
        match env.targetedGameStartSync groupLayoutMap with
        | .error _ => do
          recordSyncOutcome env system rom "unresolved" groupLayoutMap.keys
          .ok []
        | .ok result => do
          let conflictIds ← conflictIdsOf env groupLayoutMap.keys result
          recordSyncOutcome env system rom result.status groupLayoutMap.keys
          .ok conflictIds

def gameStart (enabled : Bool) (system emulator core rom : PyText) :
    Except PyError (List String) :=
  if enabled then do
    let _ ← start env system emulator core rom
    gameStartSync env system emulator core rom
  else .ok []

end Hook

/-! ### What the hook promises, and what it needs -/

section Launch

variable {env : Env} {system emulator core rom : PyText}

/-- The hook returns, and the conflicts it returns are active ones of the game's save groups. -/
def Launches (env : Env) (enabled : Bool) (system emulator core rom : PyText) : Prop :=
  ∃ conflictIds, gameStart env enabled system emulator core rom = .ok conflictIds ∧
    ∀ conflictId ∈ conflictIds, ∃ conflicts groupLayoutMap,
      env.activeConflicts = .ok conflicts ∧
      resolveGameStartTargets env (env.layoutIds system emulator core) rom = .ok groupLayoutMap ∧
      ∃ c ∈ conflicts, c.conflictId = conflictId ∧ c.groupId ∈ groupLayoutMap.keys

/-- A marker can be written. -/
def Writable (answers : WriteAnswers) (system rom : PyText) : Prop :=
  answers.mkdir = .ok () ∧ (system.encodable = true ∧ rom.encodable = true) ∧
    answers.writeText = .ok () ∧ answers.replace = .ok ()

/-- The contents of a marker that its reader does not survive: they are nested too deep, or no
dictionary, or the time in them is an integer that no float can hold. -/
def Traps (marker : Except PyError PyJson) : Prop :=
  match marker with
  | .error e => readErrors e = false
  | .ok (.dict fields) =>
    (PyJson.find? fields "system").isSome = true ∧ (PyJson.find? fields "rom").isSome = true ∧
      ∃ n : ℤ, PyJson.find? fields "started_at" = some (.int n) ∧ PyJson.floatBound ≤ n.natAbs
  | .ok _ => True

/-- The marker says that a session of this boot runs. -/
def Describes (env : Env) (session : GameSession) : Prop :=
  ∃ fields, env.marker = .ok (.dict fields) ∧ sessionOf env fields = .ok session ∧
    session.bootId = env.bootId

/-- The outcome can be noted. -/
def Recordable (env : Env) : Prop :=
  ¬ Traps env.marker ∧
    ∀ session, Describes env session → Writable env.recordAnswers session.system session.rom

theorem markerPath_eq_ok_iff {path : PyText × PyText} : markerPath system rom = .ok path ↔
    (system.encodable = true ∧ rom.encodable = true) ∧ path = (system, rom) := by
  rw [markerPath, ← Bool.and_eq_true_iff]
  by_cases h : (system.encodable && rom.encodable) = true
  · rw [if_pos h]
    constructor
    · intro hok
      exact ⟨h, (Except.ok.inj hok).symm⟩
    · rintro ⟨-, rfl⟩
      rfl
  · rw [if_neg h]
    exact iff_of_false nofun fun hboth => h hboth.1

theorem write_eq_ok_iff {answers : WriteAnswers} {session : GameSession} :
    write answers session = .ok () ↔ Writable answers session.system session.rom := by
  rw [write, Writable, bind_eq_ok_iff]
  constructor
  · rintro ⟨_, hmkdir, hrest⟩
    obtain ⟨path, hpath, hrest⟩ := bind_eq_ok hrest
    obtain ⟨_, hwrite, hreplace⟩ := bind_eq_ok hrest
    exact ⟨hmkdir, (markerPath_eq_ok_iff.mp hpath).1, hwrite, hreplace⟩
  · rintro ⟨hmkdir, hencodable, hwrite, hreplace⟩
    refine ⟨(), hmkdir, ?_⟩
    rw [markerPath_eq_ok_iff.mpr ⟨hencodable, rfl⟩, ok_bind, hwrite, ok_bind, hreplace]

theorem start_eq_ok_iff : (∃ session, start env system emulator core rom = .ok session) ↔
    Writable env.startAnswers system rom := by
  rw [start]
  constructor
  · rintro ⟨session, h⟩
    obtain ⟨_, hwrite, -⟩ := bind_eq_ok h
    exact write_eq_ok_iff.mp hwrite
  · intro h
    refine ⟨⟨system, emulator, core, rom, env.now, env.bootId, .ofString "not_attempted", []⟩, ?_⟩
    rw [write_eq_ok_iff.mpr h]
    rfl

/-- The exceptions of a reading that the handler of the reader does not take. -/
theorem sessionOf_error {fields : List (PyText × PyJson)} {e : PyError}
    (h : sessionOf env fields = .error e) (hraised : readErrors e = false) :
    Traps (.ok (.dict fields)) := by
  rw [sessionOf] at h
  rcases bind_eq_error h with h | ⟨system, hsystem, h⟩
  · rw [PyJson.item_error h] at hraised
    cases hraised
  rcases bind_eq_error h with h | ⟨rom, hrom, h⟩
  · rw [PyJson.item_error h] at hraised
    cases hraised
  rcases bind_eq_error h with h | ⟨started, hstarted, h⟩
  · rw [PyJson.item_error h] at hraised
    cases hraised
  rcases bind_eq_error h with h | ⟨time, -, h⟩
  · rcases PyJson.toFloat_error h with he | he | ⟨-, n, rfl, hbound⟩
    · rw [he] at hraised
      cases hraised
    · rw [he] at hraised
      cases hraised
    · refine ⟨?_, ?_, n, PyJson.item_eq_ok_iff.mp hstarted, hbound⟩
      · rw [PyJson.item_eq_ok_iff.mp hsystem]
        rfl
      · rw [PyJson.item_eq_ok_iff.mp hrom]
        rfl
  rcases bind_eq_error h with h | ⟨boot, -, h⟩
  · rw [PyJson.item_error h] at hraised
    cases hraised
  rcases bind_eq_error h with h | ⟨groups, -, h⟩
  · rw [PyJson.iterate_error h] at hraised
    cases hraised
  · cases h

/-- A time that no float can hold is reached once the fields before it are there. -/
theorem sessionOf_overflow {fields : List (PyText × PyJson)} (h : Traps (.ok (.dict fields))) :
    sessionOf env fields = .error .overflowError := by
  obtain ⟨hsystem, hrom, n, hstarted, hbound⟩ := h
  obtain ⟨system, hsystem⟩ := Option.isSome_iff_exists.mp hsystem
  obtain ⟨rom, hrom⟩ := Option.isSome_iff_exists.mp hrom
  rw [sessionOf, PyJson.item_eq_ok_iff.mpr hsystem, ok_bind, PyJson.item_eq_ok_iff.mpr hrom,
    ok_bind, PyJson.item_eq_ok_iff.mpr hstarted, ok_bind, PyJson.toFloat, if_pos hbound]
  rfl

/-- The reader raises exactly on the contents of `Traps`. -/
theorem readMarker_error_iff : (∃ e, readMarker env = .error e) ↔ Traps env.marker := by
  rw [readMarker]
  cases hmarker : env.marker with
  | error e =>
    show (∃ d, (handled readErrors none (.error e) >>= _) = .error d) ↔ readErrors e = false
    rw [handled]
    by_cases hcaught : readErrors e = true
    · rw [if_pos hcaught, hcaught]
      exact iff_of_false (by rintro ⟨d, hd⟩; cases hd) (fun h => Bool.noConfusion h)
    · rw [if_neg hcaught]
      exact iff_of_true ⟨e, rfl⟩ (Bool.eq_false_iff.mpr hcaught)
  | ok payload =>
    cases payload with
    | dict fields =>
      show (∃ d, (handled readErrors none ((sessionOf env fields).map some) >>= _) = .error d) ↔ _
      constructor
      · rintro ⟨d, hd⟩
        rcases bind_eq_error hd with hd | ⟨session, -, hd⟩
        · obtain ⟨hraised, hnot⟩ := handled_eq_error_iff.mp hd
          cases hsession : sessionOf env fields with
          | ok session => rw [hsession] at hraised; cases hraised
          | error e =>
            rw [hsession] at hraised
            obtain rfl : e = d := Except.error.inj hraised
            exact sessionOf_error hsession hnot
        · cases hd
      · intro htraps
        rw [sessionOf_overflow htraps]
        exact ⟨.overflowError, rfl⟩
    | null => exact iff_of_true ⟨.attributeError, rfl⟩ trivial
    | bool b => exact iff_of_true ⟨.attributeError, rfl⟩ trivial
    | int n => exact iff_of_true ⟨.attributeError, rfl⟩ trivial
    | float x => exact iff_of_true ⟨.attributeError, rfl⟩ trivial
    | str text => exact iff_of_true ⟨.attributeError, rfl⟩ trivial
    | list items => exact iff_of_true ⟨.attributeError, rfl⟩ trivial

/-- The reader finds the session that the marker describes. -/
theorem readMarker_eq_some_iff {session : GameSession} :
    readMarker env = .ok (some session) ↔ Describes env session := by
  rw [readMarker, bind_eq_ok_iff]
  constructor
  · rintro ⟨found, hread, hfound⟩
    obtain ⟨rfl, hboot⟩ := Option.filter_eq_some_iff.mp (Except.ok.inj hfound)
    cases hmarker : env.marker with
    | error e =>
      rw [hmarker] at hread
      change handled readErrors none (.error e) = _ at hread
      rw [handled] at hread
      split at hread
      · cases Except.ok.inj hread
      · cases hread
    | ok payload =>
      rw [hmarker] at hread
      cases payload with
      | dict fields =>
        change handled readErrors none ((sessionOf env fields).map some) = _ at hread
        cases hsession : sessionOf env fields with
        | ok found =>
          rw [hsession] at hread
          obtain rfl : found = session := Option.some.inj (Except.ok.inj hread)
          exact ⟨fields, hmarker, hsession, of_decide_eq_true hboot⟩
        | error e =>
          rw [hsession] at hread
          change handled readErrors none (.error e) = _ at hread
          rw [handled] at hread
          split at hread
          · cases Except.ok.inj hread
          · cases hread
      | null => cases hread
      | bool b => cases hread
      | int n => cases hread
      | float x => cases hread
      | str text => cases hread
      | list items => cases hread
  · rintro ⟨fields, hmarker, hsession, hboot⟩
    refine ⟨some session, ?_, ?_⟩
    · rw [hmarker]
      change handled readErrors none ((sessionOf env fields).map some) = _
      rw [hsession]
      rfl
    · rw [Option.filter_some, if_pos (decide_eq_true hboot)]

/-- The outcome is noted exactly if the marker has a path and the outcome can be noted. -/
theorem recordSyncOutcome_eq_ok_iff {outcome : String} {groupIds : List String} :
    recordSyncOutcome env system rom outcome groupIds = .ok () ↔
      (system.encodable = true ∧ rom.encodable = true) ∧ Recordable env := by
  rw [recordSyncOutcome, bind_eq_ok_iff]
  have hpath : ∀ p : Prop, (∃ path, markerPath system rom = .ok path ∧ p) ↔
      (system.encodable = true ∧ rom.encodable = true) ∧ p := by
    intro p
    constructor
    · rintro ⟨path, hpath, hp⟩
      exact ⟨(markerPath_eq_ok_iff.mp hpath).1, hp⟩
    · rintro ⟨hboth, hp⟩
      exact ⟨_, markerPath_eq_ok_iff.mpr ⟨hboth, rfl⟩, hp⟩
  rw [hpath, Recordable, ← readMarker_error_iff]
  refine and_congr_right fun _ => ?_
  cases hread : readMarker env with
  | error e =>
    exact iff_of_false nofun fun h => h.1 ⟨e, rfl⟩
  | ok found =>
    rw [ok_bind]
    cases found with
    | none =>
      refine iff_of_true rfl ⟨?_, ?_⟩
      · rintro ⟨e, he⟩
        cases he
      · intro session hsession
        rw [readMarker_eq_some_iff.mpr hsession] at hread
        cases hread
    | some session =>
      constructor
      · intro h
        refine ⟨?_, ?_⟩
        · rintro ⟨e, he⟩
          cases he
        · intro described hdescribed
          rw [readMarker_eq_some_iff.mpr hdescribed] at hread
          obtain rfl : described = session := Option.some.inj (Except.ok.inj hread)
          exact write_eq_ok_iff.mp h
      · intro h
        exact write_eq_ok_iff.mpr (h.2 session (readMarker_eq_some_iff.mp hread))

/-- The handlers of the conflict lookup and of the prompt queue let nothing through. -/
theorem conflictIdsOf_spec (targets : List String) (result : SyncResult) :
    ∃ conflictIds, conflictIdsOf env targets result = .ok conflictIds ∧
      ∀ conflictId ∈ conflictIds, ∃ conflicts, env.activeConflicts = .ok conflicts ∧
        ∃ c ∈ conflicts, c.conflictId = conflictId ∧ c.groupId ∈ targets := by
  rw [conflictIdsOf]
  by_cases hconflict : (result.status = "unresolved" && result.reason = "conflict") = true
  · rw [if_pos hconflict]
    have hqueue : ∀ conflictIds, (handled (fun _ => true) () (queuePrompts env conflictIds) >>=
        fun _ => .ok conflictIds) = .ok conflictIds := by
      intro conflictIds
      rcases handled_all () (queuePrompts env conflictIds) with h | ⟨_, -, h⟩
      · rw [h]
        rfl
      · rw [h]
        rfl
    rcases handled_all [] env.activeConflicts with h | ⟨conflicts, hconflicts, h⟩
    · rw [h, ok_bind]
      exact ⟨[], hqueue _, nofun⟩
    · rw [h, ok_bind]
      refine ⟨_, hqueue _, fun conflictId hid => ⟨conflicts, hconflicts, ?_⟩⟩
      obtain ⟨c, hc, rfl⟩ := List.mem_map.mp ((mem_sortOn id _ conflictId).mp hid)
      rw [List.mem_filter, List.contains_iff_mem] at hc
      exact ⟨c, hc.1, rfl, hc.2⟩
  · rw [if_neg hconflict]
    exact ⟨[], rfl, nofun⟩

/-- After the marker was written, the hook returns exactly if the outcome can be noted. -/
theorem gameStartSync_spec (hencodable : system.encodable = true ∧ rom.encodable = true) :
    (Recordable env → ∃ conflictIds, gameStartSync env system emulator core rom = .ok conflictIds ∧
      ∀ conflictId ∈ conflictIds, ∃ conflicts groupLayoutMap, env.activeConflicts = .ok conflicts ∧
        resolveGameStartTargets env (env.layoutIds system emulator core) rom = .ok groupLayoutMap ∧
        ∃ c ∈ conflicts, c.conflictId = conflictId ∧ c.groupId ∈ groupLayoutMap.keys) ∧
    ((∃ conflictIds, gameStartSync env system emulator core rom = .ok conflictIds) →
      Recordable env) := by
  have hrecord : ∀ outcome groupIds, recordSyncOutcome env system rom outcome groupIds = .ok () ↔
      Recordable env := by
    intro outcome groupIds
    rw [recordSyncOutcome_eq_ok_iff, and_iff_right hencodable]
  -- A path that notes the outcome and returns no conflicts.
  have hquiet : ∀ outcome groupIds, (recordSyncOutcome env system rom outcome groupIds >>=
      fun _ => (.ok [] : Except PyError (List String))) = .ok [] ↔ Recordable env := by
    intro outcome groupIds
    rw [bind_eq_ok_iff, ← hrecord outcome groupIds]
    exact ⟨fun ⟨_, h, _⟩ => h, fun h => ⟨(), h, rfl⟩⟩
  have hraised : ∀ {outcome groupIds conflictIds}, (recordSyncOutcome env system rom outcome groupIds
      >>= fun _ => (.ok [] : Except PyError (List String))) = .ok conflictIds → Recordable env := by
    intro outcome groupIds conflictIds h
    obtain ⟨_, hok, -⟩ := bind_eq_ok h
    exact (hrecord outcome groupIds).mp hok
  rw [gameStartSync]
  by_cases hlayouts : (env.layoutIds system emulator core).isEmpty = true
  · simp only [hlayouts, if_true]
    exact ⟨fun h => ⟨[], (hquiet _ _).mpr h, nofun⟩, fun ⟨_, h⟩ => hraised h⟩
  simp only [hlayouts]
  cases hresolve : resolveGameStartTargets env (env.layoutIds system emulator core) rom with
  | error e => exact ⟨fun h => ⟨[], (hquiet _ _).mpr h, nofun⟩, fun ⟨_, h⟩ => hraised h⟩
  | ok groupLayoutMap =>
    by_cases htargets : groupLayoutMap.keys.isEmpty = true
    · simp only [htargets, if_true]
      exact ⟨fun h => ⟨[], (hquiet _ _).mpr h, nofun⟩, fun ⟨_, h⟩ => hraised h⟩
    simp only [htargets]
    cases hsync : env.targetedGameStartSync groupLayoutMap with
    | error e => exact ⟨fun h => ⟨[], (hquiet _ _).mpr h, nofun⟩, fun ⟨_, h⟩ => hraised h⟩
    | ok result =>
      obtain ⟨conflictIds, hids, hactive⟩ := @conflictIdsOf_spec env groupLayoutMap.keys result
      refine ⟨fun h => ⟨conflictIds, ?_, fun conflictId hid => ?_⟩, fun ⟨found, h⟩ => ?_⟩
      · show (conflictIdsOf env groupLayoutMap.keys result >>= _) = _
        rw [hids, ok_bind, (hrecord _ _).mpr h]
        rfl
      · obtain ⟨conflicts, hconflicts, hc⟩ := hactive conflictId hid
        exact ⟨conflicts, groupLayoutMap, hconflicts, rfl, hc⟩
      · change (conflictIdsOf env groupLayoutMap.keys result >>= _) = _ at h
        rw [hids, ok_bind] at h
        obtain ⟨_, hok, -⟩ := bind_eq_ok h
        exact (hrecord _ _).mp hok

/-- **The hook lets the game start exactly if it is disabled, or its marker can be written and the
outcome be noted.** -/
theorem gameStart_launches_iff (env : Env) (enabled : Bool) (system emulator core rom : PyText) :
    Launches env enabled system emulator core rom ↔
      (enabled = true → Writable env.startAnswers system rom ∧ Recordable env) := by
  rw [Launches, gameStart]
  cases enabled with
  | false => exact iff_of_true ⟨[], rfl, nofun⟩ nofun
  | true =>
    simp only [if_true, forall_const]
    constructor
    · rintro ⟨conflictIds, h, -⟩
      obtain ⟨session, hstart, hsync⟩ := bind_eq_ok h
      have hwritable := start_eq_ok_iff.mp ⟨session, hstart⟩
      exact ⟨hwritable, (gameStartSync_spec hwritable.2.1).2 ⟨conflictIds, hsync⟩⟩
    · rintro ⟨hwritable, hrecordable⟩
      obtain ⟨session, hstart⟩ := (@start_eq_ok_iff env system emulator core rom).mpr hwritable
      obtain ⟨conflictIds, hsync, hactive⟩ := (@gameStartSync_spec env system emulator core rom
        hwritable.2.1).1 hrecordable
      refine ⟨conflictIds, ?_, hactive⟩
      rw [hstart, ok_bind, hsync]

end Launch

/-! ### A full disk, and a marker that is no dictionary -/

def noAnswers : WriteAnswers := ⟨.ok (), .ok (), .ok ()⟩

/-- A policy without layouts, and files that answer. -/
def idleEnv : Env where
  bootId := .ofString "boot"
  now := .finite 0
  parseFloat := fun _ => none
  repr := fun _ => ""
  startAnswers := noAnswers
  recordAnswers := noAnswers
  marker := .ok (.dict [])
  layoutIds := fun _ _ _ => []
  layout := fun _ => .error .keyError
  sharedContainerGroupId := fun _ => .ok none
  groupIdForRom := fun _ _ => .ok none
  targetedGameStartSync := fun _ => .error .other
  activeConflicts := .ok []
  enqueue := fun _ => .ok ()

/-- No space is left for the marker, and its error is raised to the caller; and so is that of a
marker which holds an empty array. -/
theorem fullDisk_raised :
    ¬ Launches { idleEnv with startAnswers := { noAnswers with writeText := .error .osError } } true
        (.ofString "psx") [] [] (.ofString "game.chd") ∧
    ¬ Launches { idleEnv with marker := .ok (.list []) } true
        (.ofString "psx") [] [] (.ofString "game.chd") := by
  constructor
  · rintro ⟨conflictIds, h, -⟩
    cases h
  · rintro ⟨conflictIds, h, -⟩
    cases h

end RomCloud.SaveSync.GameStart
