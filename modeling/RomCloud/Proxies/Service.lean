import RomCloud.Lib.Machine
import RomCloud.Proxies.Files

namespace RomCloud.Proxies

open Lib Catalog

/-!
# Who writes and removes proxy files

Every function of the catalog service, and of the presentation of a mode, that writes or removes a
proxy file, as the effects that it decides on.

* `writeEffects`, `rewriteEffects`, `canonicalEffects`, `removeEffects`, … — one function each;
* `Call` — their calls, with what the caller has read beforehand as arguments;
* `Action`, `machine` — the user puts and drops files, and calls are cut short at any effect;
* `touches` — what an action of the machine touches.

A refresh is a run of these calls: it saves and registers rows, and calls these functions between.
What the checks of a call find is not changed by its own earlier effects.
-/

namespace Site

variable (site : Site) (s : State)

/-- `_write_proxy`: the file before its record. -/
def writeEffects (writes : Bool) (id : ℕ) (game : Game) : List Effect :=
  let path := site.allocate s id game
  (if writes then [.write path id game] else []) ++ [.record id path]

/-- `_rewrite_owned_proxy`, with the record that the caller has read. -/
def rewriteEffects (writes : Bool) (id : ℕ) (game : Game) (record : Option String) :
    List Effect :=
  match record.or (s.rows.proxy id) with
  | none => site.writeEffects s writes id game
  | some path => if writes then [.write path id game] else []

/-- The file at the path is a payload of the game. -/
def verified (id : ℕ) (path : String) : Bool :=
  (site.at? s path).bind Content.payload == some id

/-- `_canonicalize_proxy_path`, with the records that the caller has read.  What the retirement of
    duplicates has verified are the files of other games. -/
def canonicalEffects (writes : Bool) (id : ℕ) (game : Game) (record : Option String)
    (desiredOwner : Option ℕ) : List Effect :=
  match record with
  | none => site.writeEffects s writes id game
  | some current =>
    let desired := site.names game.system game.title id 0
    if desiredOwner.any fun owner => decide (owner ≠ id) then []
    else if decide (current ≠ desired) && site.pathExists s desired then []
    else if site.pathExists s current && !(site.verified s id current && site.inside current) then
      []
    else
      (if writes then [.write desired id game] else []) ++
        if current = desired then []
        else .record id desired :: if site.pathExists s current then [.unlink current id] else []

/-- `remove_proxy`: the path of a record is owned by it. -/
def removeProxyEffects (id : ℕ) : List Effect :=
  match s.rows.proxy id with
  | none => []
  | some path =>
    (if site.pathExists s path then [.unlink path id] else []) ++ [.unregister id, .delete [id]]

/-- `remove_owned_proxy_files`, for the records selected. -/
def removeEffects (records : List (ℕ × String)) : List Effect :=
  (records.filter fun r => site.walked r.2 && site.verified s r.1 r.2 && site.inside r.2).map
    fun r => .unlink r.2 r.1

/-- `_suppress_games`, for one row: what follows the removal of the files. -/
def hideEffects (id : ℕ) : List Effect :=
  .unregister id ::
    match s.rows.row id with
    | some game => if game.isEligible then [.save id { game with isEligible := false }] else []
    | none => []

/-- `_suppress_games`. -/
def suppressEffects (ids : List ℕ) : List Effect :=
  site.removeEffects s (s.rows.proxies.entries.filter fun r => ids.contains r.1)
    ++ ids.flatMap (hideEffects s)

/-- `_retire_duplicate_games`, with the records that the caller has read. -/
def retireEffects (ids : List ℕ) (records : List (ℕ × String)) : List Effect :=
  site.removeEffects s (records.filter fun r => ids.contains r.1) ++ [.delete ids]

/-- `ensure_proxy`. -/
def ensureEffects (id : ℕ) (game : Game) : List Effect :=
  if (s.rows.proxy id).isSome then [] else site.writeEffects s true id game

/-- `restore_owned_proxies`, for one record: the games that it lists are the eligible ones. -/
def restoreEffects (id : ℕ) : List Effect :=
  match s.rows.proxy id, s.rows.row id with
  | some path, some game =>
    if !site.pathExists s path && site.inside path && game.isEligible then
      [.write path id game]
    else []
  | _, _ => []

end Site

/-- A call, with its arguments and what its caller has read. -/
inductive Call
  /-- the row of a scanned game -/
  | save (id : ℕ) (game : Game)
  /-- `_register_new_games`, a game of a batch -/
  | register (game : Game)
  /-- `_register_new_games`, the file of a game of the batch -/
  | publish (id : ℕ) (game : Game) (path : String)
  /-- the turn of a game that has not changed -/
  | publishMissing (id : ℕ) (game : Game) (record : Option String)
  | rewrite (writes : Bool) (id : ℕ) (game : Game) (record : Option String)
  | canonicalize (writes : Bool) (id : ℕ) (game : Game) (record : Option String)
      (desiredOwner : Option ℕ)
  | removeProxy (id : ℕ)
  /-- `remove_owned_proxies` -/
  | removeOwned (keep : Option (List ℕ))
  | suppress (ids : List ℕ)
  | retire (ids : List ℕ) (records : List (ℕ × String))
  | ensure (id : ℕ) (game : Game)
  | restore (id : ℕ)

/-- The effects that a call decides on. -/
def Call.effects (site : Site) (s : State) : Call → List Effect
  | .save id game => [.save id game]
  | .register game => [.register game (site.allocate s s.rows.nextId game)]
  | .publish id game path => [.replace path id game]
  | .publishMissing id game record =>
    match record with
    | some path => if site.pathExists s path then [] else [.replace path id game]
    | none => []
  | .rewrite writes id game record => site.rewriteEffects s writes id game record
  | .canonicalize writes id game record owner =>
      site.canonicalEffects s writes id game record owner
  | .removeProxy id => site.removeProxyEffects s id
  | .removeOwned keep => site.removeEffects s
      (s.rows.proxies.entries.filter fun r => keep.all fun ids => !ids.contains r.1)
  | .suppress ids => site.suppressEffects s ids
  | .retire ids records => site.retireEffects s ids records
  | .ensure id game => site.ensureEffects s id game
  | .restore id => site.restoreEffects s id

/-- What happens: the user puts a file or a link somewhere or drops one, or a call does the first
    `stop` of its effects and leaves the next one torn or untouched. -/
inductive Action
  | put (place : String) (content : Content)
  | drop (place : String)
  | call (call : Call) (stop : ℕ) (torn : Bool)

/-- The catalog and its proxy files, from an empty catalog on: what ROMCloud has made is not the
    user's to put. -/
def machine (site : Site) : Machine State Action where
  init s := s.rows = .empty ∧ ∀ place c, s.files.get? place = some c → c.made = false
  step s
    | .put place content =>
        if content.made then none else some { s with files := s.files.insert place content }
    | .drop place => some { s with files := s.files.erase place }
    | .call call stop torn => some (site.effects.exec (call.effects site s) stop torn s)

/-- What an action of ROMCloud writes over or unlinks. -/
def touches (site : Site) (s : State) : Action → List Touch
  | .put .. | .drop _ => []
  | .call call stop torn =>
      (site.effects.trace (call.effects site s) stop torn s).flatMap fun begun =>
        begun.1.touches site begun.2

end RomCloud.Proxies
