import Mathlib.Data.List.Perm.Subperm
import Mathlib.Data.String.Basic
import RomCloud.Lib.Effects
import RomCloud.Catalog.Refresh

namespace RomCloud.Proxies

open Lib

/-!
# Proxy files

The `.romcloud` files of the ROM directories beside the records of the database, and what the
catalog service does to them, one effect at a time.

* `Content` — what may stand at a place: a payload that was written in full, one that was cut short,
  a file of the user, a link;
* `Site` — the ROM directories: the names of a game's proxy, and where a path leads;
* `landing`, `pathExists` — links are followed, as `write_text` and `exists` follow them;
* `allocate` — the first name that no other game and no foreign file has;
* `Effect`, `Site.effects` — the effects of the service, done or torn;
* `Effect.touches` — what an effect writes over or unlinks.

A place is a path whose directory links are resolved.  Two paths may lead to one place.
-/

end RomCloud.Proxies

namespace RomCloud.Catalog.Rows

open Lib

/-- Erasing a record adds none. -/
theorem get?_of_erased {c : Rows} {id j : ℕ} {path : String}
    (h : (c.proxies.erase id).get? j = some path) : c.proxies.get? j = some path := by
  rw [Dict.get?_erase] at h
  split at h
  · exact absurd h (by simp)
  · exact h

/-- The records that are left belong to games. -/
theorem recorded_erase (c : Rows) (id j : ℕ) (path : String)
    (h : (c.proxies.erase id).get? j = some path) : ∃ game, c.games.get? j = some game :=
  c.recorded j path (get?_of_erased h)

theorem unique_erase (c : Rows) (id i j : ℕ) (path : String)
    (hi : (c.proxies.erase id).get? i = some path) (hj : (c.proxies.erase id).get? j = some path) :
    i = j :=
  c.unique i j path (get?_of_erased hi) (get?_of_erased hj)

/-- `proxy_repo.delete`. -/
def unregister (c : Rows) (id : ℕ) : Rows :=
  { c with
    proxies := c.proxies.erase id
    recorded := recorded_erase c id
    unique := unique_erase c id }

@[simp] theorem row_unregister (c : Rows) (id j : ℕ) : (c.unregister id).row j = c.row j := rfl

@[simp] theorem proxy_unregister (c : Rows) (id j : ℕ) :
    (c.unregister id).proxy j = if j = id then none else c.proxy j := Dict.get?_erase ..

/-- `get_by_path`. -/
def owner (c : Rows) (path : String) : Option ℕ :=
  (c.proxies.entries.find? fun r => r.2 = path).map Prod.fst

theorem owner_eq_some_iff (c : Rows) (path : String) (id : ℕ) :
    c.owner path = some id ↔ c.proxy id = some path := by
  rw [owner, Option.map_eq_some_iff, proxy, Dict.get?_eq_some_iff]
  constructor
  · rintro ⟨⟨j, other⟩, hfind, rfl⟩
    have hpath : other = path := by simpa using List.find?_some hfind
    exact hpath ▸ List.mem_of_find?_eq_some hfind
  · intro hmem
    cases hfind : c.proxies.entries.find? fun r => r.2 = path with
    | none =>
      exact absurd (List.find?_eq_none.mp hfind _ hmem) (by simp)
    | some r =>
      have hpath : r.2 = path := by simpa using List.find?_some hfind
      have hr := (c.proxies.get?_eq_some_iff _ _).mpr (List.mem_of_find?_eq_some hfind)
      have hid := (c.proxies.get?_eq_some_iff _ _).mpr hmem
      exact ⟨r, rfl, c.unique r.1 id path (hpath ▸ hr) hid⟩

theorem taken_eq_false_iff (c : Rows) (id : ℕ) (path : String) :
    c.taken id path = false ↔ ∀ j, c.proxy j = some path → j = id := by
  constructor
  · intro h j hj
    exact taken_eq_false h hj
  · intro h
    rw [taken, List.any_eq_false]
    rintro ⟨j, other⟩ hmem
    have hj := (c.proxies.get?_eq_some_iff _ _).mpr hmem
    simp only [Bool.and_eq_true, decide_eq_true_eq, not_and, not_not]
    rintro rfl
    exact h j hj

theorem proxy_record {c : Rows} {id : ℕ} {path : String} (hrow : (c.row id).isSome)
    (hfree : c.taken id path = false) (j : ℕ) :
    (c.record id path).proxy j = if j = id then some path else c.proxy j := by
  rw [record, dif_pos ⟨hrow, hfree⟩]
  exact Dict.get?_insert ..

end RomCloud.Catalog.Rows

namespace RomCloud.Proxies

open Lib Catalog

/-- What stands at a place of the ROM directories. -/
inductive Content
  /-- a payload that ROMCloud has written in full -/
  | proxy (id : ℕ) (game : Game)
  /-- what an interrupted write of ROMCloud has left -/
  | torn
  /-- a file of the user, with the game it names where it reads as a payload -/
  | foreign (payload : Option ℕ)
  | link (target : String)
deriving DecidableEq

/-- `proxy_payload`: the game that a valid payload names. -/
def Content.payload : Content → Option ℕ
  | .proxy id _ => some id
  | .foreign payload => payload
  | .torn | .link _ => none

/-- ROMCloud has written it. -/
def Content.made : Content → Bool
  | .proxy .. | .torn => true
  | .foreign _ | .link _ => false

/-- The ROM directories, as their links lead at the time. -/
structure Site where
  /-- the names of `_allocate_proxy_path`, in its order -/
  names : (system title : String) → (id attempt : ℕ) → String
  /-- the place that a path leads to -/
  place : String → String
  /-- the names of one game are names in one directory -/
  names_apart : ∀ system title id, Function.Injective fun attempt =>
    place (names system title id attempt)
  /-- `is_within`, for the local ROM root -/
  inside : String → Bool
  /-- the walk of `remove_owned_proxy_files` comes by this path -/
  walked : String → Bool
  /-- the name that `mkstemp` chooses beside a place -/
  staged : Dict String Content → String → String
  staged_free : ∀ (files : Dict String Content) (place : String),
    files.get? (staged files place) = none

structure State where
  rows : Rows
  files : Dict String Content

/-- The place where the links from a place end, after `n` links at most. -/
def follow (files : Dict String Content) : ℕ → String → Option String
  | 0, _ => none
  | n + 1, place =>
    match files.get? place with
    | some (.link target) => follow files n target
    | _ => some place

/-- The place that `open` comes to: the kernel follows forty links. -/
def landing (files : Dict String Content) (place : String) : Option String := follow files 41 place

theorem landing_of_not_link {files : Dict String Content} {place : String}
    (h : ∀ target, files.get? place ≠ some (.link target)) : landing files place = some place := by
  rw [landing, follow]
  split
  · next target heq => exact absurd heq (h target)
  · rfl

namespace Site

variable (site : Site)

/-- What stands at the place of a path. -/
def at? (s : State) (path : String) : Option Content := s.files.get? (site.place path)

/-- `Path.exists`. -/
def pathExists (s : State) (path : String) : Bool :=
  (landing s.files (site.place path)).any fun place => (s.files.get? place).isSome

variable {site} {s : State} {path : String}

theorem pathExists_of_file {c : Content} (h : site.at? s path = some c)
    (hlink : ∀ target, c ≠ .link target) : site.pathExists s path = true := by
  have hland : landing s.files (site.place path) = some (site.place path) :=
    landing_of_not_link fun target heq => hlink target (Option.some.inj (h.symm.trans heq))
  rw [pathExists, hland]
  show (s.files.get? (site.place path)).isSome = true
  rw [show s.files.get? (site.place path) = some c from h]
  rfl

/-- Where nothing exists, there is nothing but a link that leads nowhere. -/
theorem link_of_not_exists {c : Content} (h : site.at? s path = some c)
    (hexists : site.pathExists s path = false) : ∃ target, c = .link target := by
  by_contra hlink
  push Not at hlink
  exact absurd (hexists.symm.trans (pathExists_of_file h hlink)) (by simp)

theorem at?_of_exists (h : site.pathExists s path = true) : ∃ c, site.at? s path = some c := by
  cases hat : site.at? s path with
  | some c => exact ⟨c, rfl⟩
  | none =>
    have hland : landing s.files (site.place path) = some (site.place path) :=
      landing_of_not_link fun target heq => absurd (hat.symm.trans heq) (by simp)
    rw [pathExists, hland] at h
    have hnone : s.files.get? (site.place path) = none := hat
    exact absurd h (by simp [hnone])

variable (site s)

/-- `_proxy_path_conflicts`. -/
def conflicts (id : ℕ) (path : String) : Bool :=
  match s.rows.owner path with
  | some owner => decide (owner ≠ id)
  | none => site.pathExists s path

/-- `_allocate_proxy_path`: the first name without a conflict. -/
def allocate (id : ℕ) (game : Game) : String :=
  (((List.range (s.rows.proxies.entries.length + s.files.entries.length + 1)).map
    (site.names game.system game.title id)).find? fun path => !site.conflicts s id path).getD
      (site.names game.system game.title id 0)

variable {site s}

/-- What conflicts is registered, or something stands at its place. -/
theorem conflicts_spec {id : ℕ} (h : site.conflicts s id path = true) :
    (∃ owner, s.rows.proxy owner = some path) ∨ ∃ c, site.at? s path = some c := by
  rw [conflicts] at h
  split at h
  · next owner howner => exact .inl ⟨owner, (Rows.owner_eq_some_iff ..).mp howner⟩
  · exact .inr (at?_of_exists h)

/-- There are more names to try than records and places that they can conflict with. -/
theorem exists_free (site : Site) (s : State) (id : ℕ) (game : Game) :
    ∃ k < s.rows.proxies.entries.length + s.files.entries.length + 1,
      site.conflicts s id (site.names game.system game.title id k) = false := by
  classical
  by_contra hall
  push Not at hall
  set names := site.names game.system game.title id
  set tries := List.range (s.rows.proxies.entries.length + s.files.entries.length + 1)
  -- each name that is tried is charged to its record, or else to its place
  let charge (k : ℕ) : String ⊕ String :=
    if ∃ owner, s.rows.proxy owner = some (names k) then .inl (names k)
    else .inr (site.place (names k))
  have hapart : Function.Injective fun k => site.place (names k) :=
    site.names_apart game.system game.title id
  have hcharge : Function.Injective charge := by
    intro k l heq
    by_cases hk : ∃ owner, s.rows.proxy owner = some (names k) <;>
      by_cases hl : ∃ owner, s.rows.proxy owner = some (names l) <;>
      simp only [charge, hk, hl, if_true, if_false, Sum.inl.injEq, Sum.inr.injEq, reduceCtorEq]
        at heq
    · exact hapart (congrArg site.place heq)
    · exact hapart heq
  have hsubset : tries.map charge
      ⊆ s.rows.proxies.values.map Sum.inl ++ s.files.keys.map Sum.inr := by
    intro owed howed
    obtain ⟨k, hk, rfl⟩ := List.mem_map.mp howed
    have hconflict := conflicts_spec (by simpa using hall k (List.mem_range.mp hk))
    by_cases hreg : ∃ owner, s.rows.proxy owner = some (names k)
    · obtain ⟨owner, howner⟩ := hreg
      refine List.mem_append_left _ ?_
      rw [show charge k = .inl (names k) from if_pos ⟨owner, howner⟩]
      have hmem := (s.rows.proxies.get?_eq_some_iff _ _).mp howner
      exact List.mem_map_of_mem (List.mem_map_of_mem (f := Prod.snd) hmem)
    · refine List.mem_append_right _ ?_
      rw [show charge k = .inr (site.place (names k)) from if_neg hreg]
      obtain ⟨c, hc⟩ := hconflict.resolve_left hreg
      exact List.mem_map_of_mem ((s.files.mem_keys_iff _).mpr ⟨c, hc⟩)
  have hlength := (List.subperm_of_subset
    ((List.nodup_map_iff hcharge).mpr List.nodup_range) hsubset).length_le
  simp only [List.length_map, List.length_append, List.length_range, tries, Dict.values,
    Dict.keys] at hlength
  omega

/-- **Allocation.** The name that is allocated has no conflict. -/
theorem allocate_spec (site : Site) (s : State) (id : ℕ) (game : Game) :
    site.conflicts s id (site.allocate s id game) = false := by
  obtain ⟨k, hk, hfree⟩ := exists_free site s id game
  rw [allocate]
  cases hfind : (List.map _ (List.range _)).find? fun path => !site.conflicts s id path with
  | some path => simpa using List.find?_some hfind
  | none =>
    have hnone := List.find?_eq_none.mp hfind _
      (List.mem_map_of_mem (List.mem_range.mpr hk))
    exact absurd hnone (by simp [hfree])

/-- Without a record of its own, a game is allocated a path that no game has, where nothing
    exists. -/
theorem allocate_free {id : ℕ} (game : Game) (hnone : s.rows.proxy id = none) :
    (∀ j, s.rows.proxy j ≠ some (site.allocate s id game))
      ∧ site.pathExists s (site.allocate s id game) = false := by
  have hfree := allocate_spec site s id game
  rw [conflicts] at hfree
  split at hfree
  · next owner howner =>
    have hid : owner = id := by simpa using hfree
    have hproxy := (Rows.owner_eq_some_iff ..).mp howner
    exact absurd (hnone.symm.trans (hid ▸ hproxy)) (by simp)
  · next howner =>
    refine ⟨fun j hj => ?_, hfree⟩
    exact absurd (howner.symm.trans ((Rows.owner_eq_some_iff ..).mpr hj)) (by simp)

end Site

/-! ### Effects -/

/-- One effect of the service, on a file or on the rows. -/
inductive Effect
  /-- `write_text` of a payload -/
  | write (path : String) (id : ℕ) (game : Game)
  /-- a payload that is written beside the path, and then replaces what is there -/
  | replace (path : String) (id : ℕ) (game : Game)
  /-- `unlink`, for a game -/
  | unlink (path : String) (id : ℕ)
  /-- `proxy_repo.save` -/
  | record (id : ℕ) (path : String)
  /-- `register_many`, for one game: its identity is new -/
  | register (game : Game) (path : String)
  /-- `game_repo.save`, and `set_eligible` -/
  | save (id : ℕ) (game : Game)
  /-- `proxy_repo.delete` -/
  | unregister (id : ℕ)
  /-- `game_repo.delete_many` -/
  | delete (ids : List ℕ)

namespace Site

variable (site : Site)

/-- An effect that is done.  The foreign key and the unique path of a record raise. -/
def run : Effect → State → Option State
  | .write path id game, s => (landing s.files (site.place path)).map fun place =>
      { s with files := s.files.insert place (.proxy id game) }
  | .replace path id game, s =>
      some { s with files := s.files.insert (site.place path) (.proxy id game) }
  | .unlink path _, s => some { s with files := s.files.erase (site.place path) }
  | .record id path, s =>
      if (s.rows.row id).isSome && !s.rows.taken id path then
        some { s with rows := s.rows.record id path }
      else none
  | .register game path, s =>
      if s.rows.taken s.rows.nextId path then none
      else some { s with rows := (s.rows.save s.rows.nextId game).record s.rows.nextId path }
  | .save id game, s => some { s with rows := s.rows.save id game }
  | .unregister id, s => some { s with rows := s.rows.unregister id }
  | .delete ids, s => some { s with rows := s.rows.delete ids }

/-- An effect that is interrupted: a transaction and an `unlink` do nothing then. -/
def tear : Effect → State → State
  | .write path _ _, s =>
    match landing s.files (site.place path) with
    | some place => { s with files := s.files.insert place .torn }
    | none => s
  | .replace path _ _, s =>
      { s with files := s.files.insert (site.staged s.files (site.place path)) .torn }
  | _, s => s

def effects : Effects State Effect := ⟨site.run, site.tear⟩

@[simp] theorem effects_run (e : Effect) (s : State) : site.effects.run e s = site.run e s := rfl

end Site

/-- A place that an effect writes over or unlinks: the game it acts for, and what was there. -/
structure Touch where
  id : ℕ
  before : Option Content

/-- The place was free, or it had a payload with the game's identity. -/
def Touch.Owned (touch : Touch) : Prop := ∀ c, touch.before = some c → c.payload = some touch.id

/-- The places that an effect writes over or unlinks: a write goes to where the links end. -/
def Effect.touches (site : Site) (s : State) : Effect → List Touch
  | .write path id _ => ⟨id, site.at? s path⟩
      :: ((landing s.files (site.place path)).map fun place => ⟨id, s.files.get? place⟩).toList
  | .replace path id _ | .unlink path id => [⟨id, site.at? s path⟩]
  | _ => []

end RomCloud.Proxies
