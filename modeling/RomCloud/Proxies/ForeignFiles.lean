import RomCloud.Proxies.Service

namespace RomCloud.Proxies

open Lib Catalog

/-!
# Files that are not ROMCloud's

What the writers and removers of proxy files touch, in the runs of the service beside a user who
puts files and links at any place.

* `Call.Careful` — what a call must not meet; the calls that look at the payload first have no
  condition;
* `Guarded` — what an effect needs in order to touch a free place or a payload of its game only;
* `Kept` — the invariant: a whole file of ROMCloud at a registered path is its game's;
* `chain_effects` — each call guards its effects;
* `careful_runs_touch_own` — careful calls touch free places and payloads of their game only.
-/

variable (site : Site) (s : State)

/-- No other game's path leads to the place of this one. -/
def Alone (id : ℕ) (path : String) : Prop :=
  ∀ j other, s.rows.proxy j = some other → site.place other = site.place path → j = id

/-- No link that leads nowhere stands at the path. -/
def NoDangling (path : String) : Prop :=
  ∀ target, site.at? s path = some (.link target) → site.pathExists s path = true

/-- A path that a game may be given. -/
structure Open (id : ℕ) (path : String) : Prop where
  alone : Alone site s id path
  noDangling : NoDangling site s path

/-- The user has put nothing at the path but a payload of the game, and no write has been cut short
    there. -/
def Undisturbed (id : ℕ) (path : String) : Prop :=
  ∀ c, site.at? s path = some c → (∃ j game, c = .proxy j game) ∨ c.payload = some id

/-- What the caller has read is still the record of the game. -/
def Current (id : ℕ) (record : Option String) : Prop :=
  ∀ path, record = some path → s.rows.proxy id = some path

/-- What a call must not meet.  Those that write over or unlink what their record names need the
    path undisturbed; those that only look whether something exists need no link to nowhere; those
    that look at the payload need nothing. -/
def Call.Careful : Call → Prop
  | .save .. | .removeOwned _ | .suppress _ | .retire .. => True
  | .register game => Open site s s.rows.nextId (site.allocate s s.rows.nextId game)
  | .publish id _ path => Current s id (some path) ∧ Undisturbed site s id path
  | .publishMissing id _ record =>
      Current s id record ∧ ∀ path, record = some path → NoDangling site s path
  | .rewrite writes id game record => Current s id record
      ∧ (∀ path, s.rows.proxy id = some path → writes = true → Undisturbed site s id path)
      ∧ (s.rows.proxy id = none → Open site s id (site.allocate s id game))
  | .canonicalize _ id game record _ => record = s.rows.proxy id
      ∧ (s.rows.proxy id = none → Open site s id (site.allocate s id game))
      ∧ (s.rows.proxy id ≠ none →
          Open site s id (site.names game.system game.title id 0))
  | .removeProxy id => ∀ path, s.rows.proxy id = some path → site.pathExists s path = true →
      Undisturbed site s id path
  | .ensure id game =>
      s.rows.proxy id = none → Open site s id (site.allocate s id game)
  | .restore id => ∀ path, s.rows.proxy id = some path → NoDangling site s path

/-- The user does as they like, and so do crashes. -/
def Careful : Action → Prop
  | .put .. | .drop _ => True
  | .call call _ _ => call.Careful site s

/-- What an effect needs: a place that is free or holds a payload of its game, and a path that leads
    to no other game's place. -/
def Guarded (e : Effect) (s : State) : Prop :=
  match e with
  | .write path id _ | .replace path id _ =>
      (∀ c, site.at? s path = some c → c.payload = some id) ∧ Alone site s id path
  | .unlink path id => ∀ c, site.at? s path = some c → c.payload = some id
  | .record id path =>
      Alone site s id path ∧ ∀ j game, site.at? s path = some (.proxy j game) → j = id
  | .register _ path => Alone site s s.rows.nextId path
      ∧ ∀ j game, site.at? s path = some (.proxy j game) → j = s.rows.nextId
  | .save .. | .unregister _ | .delete _ => True

/-- **The invariant.** A whole file of ROMCloud at a registered path is its game's, and no two
    registered paths lead to one place. -/
structure Kept : Prop where
  owned : ∀ id path j game, s.rows.proxy id = some path →
    site.at? s path = some (.proxy j game) → j = id
  apart : ∀ id path, s.rows.proxy id = some path → Alone site s id path

variable {site s} {id : ℕ} {path : String} {game : Game}

/-! ### What is free -/

theorem NoDangling.at?_eq_none (h : NoDangling site s path)
    (hexists : site.pathExists s path = false) : site.at? s path = none := by
  by_contra hne
  obtain ⟨c, hc⟩ := Option.ne_none_iff_exists'.mp hne
  obtain ⟨target, rfl⟩ := Site.link_of_not_exists hc hexists
  exact absurd (hexists.symm.trans (h target hc)) (by simp)

theorem Open.allocated (h : Open site s id (site.allocate s id game))
    (hnone : s.rows.proxy id = none) : site.at? s (site.allocate s id game) = none :=
  h.noDangling.at?_eq_none (Site.allocate_free game hnone).2

/-- A place with a payload has no link. -/
theorem landing_of_payload (h : ∀ c, site.at? s path = some c → c.payload = some id) :
    landing s.files (site.place path) = some (site.place path) :=
  landing_of_not_link fun target heq => absurd (h _ heq) (by simp [Content.payload])

theorem run_write (h : ∀ c, site.at? s path = some c → c.payload = some id) :
    site.run (.write path id game) s
      = some { s with files := s.files.insert (site.place path) (.proxy id game) } := by
  rw [Site.run, landing_of_payload h]
  rfl

theorem Alone.congr {t : State} (h : Alone site s id path)
    (hrows : ∀ j, t.rows.proxy j = s.rows.proxy j) : Alone site t id path := by
  intro j other hj hplace
  exact h j other ((hrows j).symm.trans hj) hplace

/-! ### What one effect keeps -/

/-- A new record for a game. -/
theorem Kept.record {t : State} (h : Kept site s) (hfiles : t.files = s.files)
    (hproxy : ∀ j, t.rows.proxy j = if j = id then some path else s.rows.proxy j)
    (halone : Alone site s id path)
    (hfree : ∀ j game, site.at? s path = some (.proxy j game) → j = id) : Kept site t := by
  have hat : ∀ other, site.at? t other = site.at? s other := fun other => by
    rw [Site.at?, Site.at?, hfiles]
  constructor
  · intro j other k game hj hc
    rw [hproxy] at hj
    rw [hat] at hc
    split at hj
    · next heq =>
      cases hj
      exact (hfree k game hc).trans heq.symm
    · exact h.owned j other k game hj hc
  · intro j other hj k third hk hplace
    rw [hproxy] at hj hk
    split at hj
    · next hjd =>
      cases hj
      split at hk
      · next hkd => exact hkd.trans hjd.symm
      · exact (halone k third hk hplace).trans hjd.symm
    · split at hk
      · next hkd =>
        cases hk
        exact hkd.trans (halone j other hj hplace.symm).symm
      · exact h.apart j other hj k third hk hplace

/-- A payload written at the place of a path that is no other game's. -/
theorem Kept.insert (h : Kept site s) (halone : Alone site s id path) :
    Kept site { s with files := s.files.insert (site.place path) (.proxy id game) } := by
  constructor
  · intro j other k game' hj hc
    rw [Site.at?, Dict.get?_insert] at hc
    split at hc
    · next heq =>
      cases hc
      exact (halone j other hj heq).symm
    · exact h.owned j other k game' hj hc
  · exact h.apart

/-- Something that is no whole file of ROMCloud, put anywhere. -/
theorem Kept.put {place : String} {c : Content} (h : Kept site s)
    (hc : ∀ j game, c ≠ .proxy j game) :
    Kept site { s with files := s.files.insert place c } := by
  constructor
  · intro j other k game hj hat
    rw [Site.at?, Dict.get?_insert] at hat
    split at hat
    · exact absurd (Option.some.inj hat) (hc k game)
    · exact h.owned j other k game hj hat
  · exact h.apart

theorem Kept.erase {place : String} (h : Kept site s) :
    Kept site { s with files := s.files.erase place } := by
  constructor
  · intro j other k game hj hat
    rw [Site.at?, Dict.get?_erase] at hat
    split at hat
    · exact absurd hat (by simp)
    · exact h.owned j other k game hj hat
  · exact h.apart

/-- Records that go, or rows that change. -/
theorem Kept.fewer {t : State} (h : Kept site s) (hfiles : t.files = s.files)
    (hproxy : ∀ j other, t.rows.proxy j = some other → s.rows.proxy j = some other) :
    Kept site t := by
  constructor
  · intro j other k game hj hc
    rw [Site.at?, hfiles] at hc
    exact h.owned j other k game (hproxy j other hj) hc
  · intro j other hj k third hk hplace
    exact h.apart j other (hproxy j other hj) k third (hproxy k third hk) hplace

/-- **One effect.** A guarded effect keeps the invariant. -/
theorem Kept.run {e : Effect} {t : State} (hguard : Guarded site e s) (h : Kept site s)
    (ht : site.run e s = some t) : Kept site t := by
  cases e with
  | write path id game =>
    obtain rfl := Option.some.inj ((run_write hguard.1).symm.trans ht)
    exact h.insert hguard.2
  | replace path id game =>
    cases ht
    exact h.insert hguard.2
  | unlink path id =>
    cases ht
    exact h.erase
  | record id path =>
    rw [Site.run] at ht
    split at ht
    · next hok =>
      cases ht
      obtain ⟨hrow, hfree⟩ := Bool.and_eq_true_iff.mp hok
      exact h.record rfl (Rows.proxy_record hrow (by simpa using hfree)) hguard.1 hguard.2
    · exact absurd ht (by simp)
  | register game path =>
    rw [Site.run] at ht
    split at ht
    · exact absurd ht (by simp)
    · next hfree =>
      cases ht
      have hrow : ((s.rows.save s.rows.nextId game).row s.rows.nextId).isSome = true := by simp
      refine h.record rfl (fun j => ?_) hguard.1 hguard.2
      exact Rows.proxy_record hrow (Bool.eq_false_iff.mpr hfree) j
  | save id game =>
    cases ht
    exact h.fewer rfl fun _ _ hj => hj
  | unregister id =>
    cases ht
    refine h.fewer rfl fun j other hj => ?_
    rw [Rows.proxy_unregister] at hj
    split at hj
    · exact absurd hj (by simp)
    · exact hj
  | delete ids =>
    cases ht
    refine h.fewer rfl fun j other hj => ?_
    rw [Rows.proxy_delete] at hj
    split at hj
    · exact absurd hj (by simp)
    · exact hj

/-- A torn effect leaves no whole file. -/
theorem Kept.tear (e : Effect) (h : Kept site s) : Kept site (site.tear e s) := by
  cases e with
  | write path id game =>
    rw [Site.tear]
    split
    · exact h.put (by simp)
    · exact h
  | replace path id game => exact h.put (by simp)
  | _ => exact h

/-- A guarded effect touches a free place or a payload of its game. -/
theorem Guarded.touches_owned {e : Effect} (h : Guarded site e s) {touch : Touch}
    (htouch : touch ∈ e.touches site s) : touch.Owned := by
  cases e with
  | write path id game =>
    rw [Effect.touches, landing_of_payload h.1] at htouch
    rcases List.mem_cons.mp htouch with rfl | hlanding
    · exact h.1
    · cases List.mem_singleton.mp hlanding
      exact h.1
  | replace path id game =>
    cases List.mem_singleton.mp htouch
    exact h.1
  | unlink path id =>
    cases List.mem_singleton.mp htouch
    exact h
  | _ => exact absurd htouch (by simp [Effect.touches])

/-! ### What each call guards -/

/-- `_write_proxy`: what has just been written is the game's. -/
theorem chain_writeEffects (writes : Bool) (hopen : Open site s id (site.allocate s id game))
    (hnone : s.rows.proxy id = none) :
    site.effects.Chain (Guarded site) (site.writeEffects s writes id game) s := by
  have hfree := hopen.allocated hnone
  rw [Site.writeEffects]
  cases writes with
  | false =>
    refine ⟨⟨hopen.alone, fun j other hat => ?_⟩, fun _ _ => trivial⟩
    exact absurd (hfree.symm.trans hat) (by simp)
  | true =>
    have hclear : ∀ c, site.at? s (site.allocate s id game) = some c → c.payload = some id :=
      fun c hc => absurd (hfree.symm.trans hc) (by simp)
    refine ⟨⟨hclear, hopen.alone⟩, fun t ht => ⟨?_, fun _ _ => trivial⟩⟩
    obtain rfl := Option.some.inj ((run_write hclear).symm.trans ht)
    refine ⟨hopen.alone, fun j other hat => ?_⟩
    rw [Site.at?, Dict.get?_insert, if_pos rfl] at hat
    cases hat
    rfl

theorem verified_iff : site.verified s id path = true
    ↔ ∃ c, site.at? s path = some c ∧ c.payload = some id := by
  rw [Site.verified, beq_iff_eq, Option.bind_eq_some_iff]

/-- `_canonicalize_proxy_path`: the present file is a payload of the game, and the desired path is
    free or the present one. -/
theorem chain_canonicalEffects {writes : Bool} {current : String} {owner : Option ℕ}
    (hopen : Open site s id (site.names game.system game.title id 0)) :
    site.effects.Chain (Guarded site)
      (site.canonicalEffects s writes id game (some current) owner) s := by
  rw [Site.canonicalEffects]
  set desired := site.names game.system game.title id 0
  split
  · exact trivial
  split
  · exact trivial
  · next hdesired =>
    split
    · exact trivial
    · next hcurrent =>
      have hpayload : ∀ c, site.at? s current = some c → site.pathExists s current = true →
          c.payload = some id := by
        intro c hc hexists
        simp only [hexists, Bool.true_and, Bool.not_eq_true', Bool.not_eq_false,
          Bool.and_eq_true] at hcurrent
        obtain ⟨d, hd, hid⟩ := verified_iff.mp hcurrent.1
        cases hc.symm.trans hd
        exact hid
      have hclear : ∀ c, site.at? s desired = some c → c.payload = some id := by
        intro c hc
        by_cases hexists : site.pathExists s desired = true
        · have heq : current = desired := by simpa [hexists] using hdesired
          exact hpayload c (heq ▸ hc) (heq ▸ hexists)
        · have hnone := hopen.noDangling.at?_eq_none (Bool.eq_false_iff.mpr hexists)
          exact absurd (hnone.symm.trans hc) (by simp)
      -- what follows the write, in the states in which both paths are free or the game's
      have hrest : ∀ t, (∀ j, t.rows.proxy j = s.rows.proxy j) →
          (∀ c, site.at? t desired = some c → c.payload = some id) →
          (site.pathExists s current = true →
            ∀ c, site.at? t current = some c → c.payload = some id) →
          site.effects.Chain (Guarded site)
            (if current = desired then []
              else .record id desired
                :: if site.pathExists s current then [.unlink current id] else []) t := by
        intro t hrows ht hcurrent
        split
        · exact trivial
        · refine ⟨⟨hopen.alone.congr hrows, fun j other hat => ?_⟩, fun u hu => ?_⟩
          · simpa [Content.payload] using ht _ hat
          · have hfiles : u.files = t.files := by
              change (if _ then _ else _) = _ at hu
              split at hu
              · cases hu
                rfl
              · exact absurd hu (by simp)
            split
            · next hexists =>
              refine ⟨fun c hc => ?_, fun _ _ => trivial⟩
              rw [Site.at?, hfiles] at hc
              exact hcurrent hexists c hc
            · exact trivial
      cases writes with
      | false => exact hrest s (fun _ => rfl) hclear fun hexists c hc => hpayload c hc hexists
      | true =>
        refine ⟨⟨hclear, hopen.alone⟩, fun t ht => ?_⟩
        obtain rfl := Option.some.inj ((run_write hclear).symm.trans ht)
        have hwritten : ∀ other c, Site.at? site { s with
            files := s.files.insert (site.place desired) (.proxy id game) } other = some c →
            c.payload = some id ∨ site.at? s other = some c := by
          intro other c hc
          rw [Site.at?, Dict.get?_insert] at hc
          split at hc
          · cases hc
            exact .inl rfl
          · exact .inr hc
        refine hrest _ (fun _ => rfl) (fun c hc => ?_) fun hexists c hc => ?_
        · exact (hwritten desired c hc).elim (fun h => h) (hclear c)
        · exact (hwritten current c hc).elim (fun h => h) fun h => hpayload c h hexists

/-- The removal of files looks at their payload. -/
theorem chain_removeEffects (records : List (ℕ × String)) :
    site.effects.Chain (Guarded site) (site.removeEffects s records) s := by
  refine Effects.chain_of_forall (I := fun t => ∀ path c, site.at? t path = some c →
    site.at? s path = some c) (fun _ _ h => h) ?_ ?_
  · intro e he t u ht hu path c hc
    obtain ⟨r, -, rfl⟩ := List.mem_map.mp he
    cases hu
    rw [Site.at?, Dict.get?_erase] at hc
    split at hc
    · exact absurd hc (by simp)
    · exact ht path c hc
  · intro e he t ht
    obtain ⟨r, hr, rfl⟩ := List.mem_map.mp he
    have hverified := (List.mem_filter.mp hr).2
    simp only [Bool.and_eq_true] at hverified
    obtain ⟨d, hd, hid⟩ := verified_iff.mp hverified.1.2
    intro c hc
    cases (ht _ _ hc).symm.trans hd
    exact hid

/-- Effects on the rows need nothing. -/
theorem chain_of_rows {effects : List Effect} (h : ∀ e ∈ effects, ∀ t, Guarded site e t) :
    site.effects.Chain (Guarded site) effects s :=
  Effects.chain_of_forall (I := fun _ => True) trivial (fun _ _ _ _ _ _ => trivial)
    fun e he t _ => h e he t

theorem guarded_of_mem_hide {e : Effect} (h : e ∈ Site.hideEffects s id) (t : State) :
    Guarded site e t := by
  rcases List.mem_cons.mp h with rfl | hsave
  · trivial
  · split at hsave
    · split at hsave
      · cases List.mem_singleton.mp hsave
        trivial
      · exact absurd hsave (by simp)
    · exact absurd hsave (by simp)

/-- **Each call.** A careful call guards its effects. -/
theorem chain_effects (h : Kept site s) {call : Call} (hcareful : call.Careful site s) :
    site.effects.Chain (Guarded site) (call.effects site s) s := by
  -- a path of a record is alone, and undisturbed it is the game's
  have hregistered : ∀ {id path}, s.rows.proxy id = some path → Undisturbed site s id path →
      ∀ c, site.at? s path = some c → c.payload = some id := by
    intro id path hproxy hundisturbed c hc
    rcases hundisturbed c hc with ⟨j, game, rfl⟩ | hpayload
    · rw [h.owned id path j game hproxy hc]
      rfl
    · exact hpayload
  have hempty : ∀ {id path}, site.pathExists s path = false → NoDangling site s path →
      ∀ c, site.at? s path = some c → c.payload = some id := fun hexists hdangling c hc =>
    absurd ((hdangling.at?_eq_none hexists).symm.trans hc) (by simp)
  cases call with
  | save id game => exact ⟨trivial, fun _ _ => trivial⟩
  | register game =>
    have hnone : s.rows.proxy s.rows.nextId = none := by
      by_contra hne
      obtain ⟨path, hpath⟩ := Option.ne_none_iff_exists'.mp hne
      obtain ⟨old, hold⟩ := s.rows.recorded _ _ hpath
      exact absurd (s.rows.fresh _ _ hold) (lt_irrefl _)
    refine ⟨⟨hcareful.alone, fun j other hat => ?_⟩, fun _ _ => trivial⟩
    exact absurd ((hcareful.allocated hnone).symm.trans hat) (by simp)
  | publish id game path =>
    have hproxy := hcareful.1 path rfl
    exact ⟨⟨hregistered hproxy hcareful.2, h.apart id path hproxy⟩, fun _ _ => trivial⟩
  | publishMissing id game record =>
    cases record with
    | none => exact trivial
    | some path =>
      show site.effects.Chain _ (if site.pathExists s path then [] else _) s
      split
      · exact trivial
      · next hexists =>
        have hclear := @hempty id path (Bool.eq_false_iff.mpr hexists) (hcareful.2 path rfl)
        exact ⟨⟨hclear, h.apart id path (hcareful.1 path rfl)⟩, fun _ _ => trivial⟩
  | rewrite writes id game record =>
    obtain ⟨hcurrent, hundisturbed, hopen⟩ := hcareful
    rw [Call.effects, Site.rewriteEffects]
    cases hproxy : s.rows.proxy id with
    | none =>
      have hrecord : record = none := Option.eq_none_iff_forall_ne_some.mpr fun path heq =>
        absurd (hproxy.symm.trans (hcurrent path heq)) (by simp)
      subst hrecord
      exact chain_writeEffects writes (hopen hproxy) hproxy
    | some path =>
      have hrecord : record.or (some path) = some path := by
        cases record with
        | none => rfl
        | some read => exact (hcurrent read rfl).symm.trans hproxy
      rw [hrecord]
      dsimp only
      split
      · next hwrites =>
        exact ⟨⟨hregistered hproxy (hundisturbed path hproxy hwrites), h.apart id path hproxy⟩,
          fun _ _ => trivial⟩
      · exact trivial
  | canonicalize writes id game record owner =>
    obtain ⟨rfl, hnone, hsome⟩ := hcareful
    rw [Call.effects]
    cases hproxy : s.rows.proxy id with
    | none => exact chain_writeEffects writes (hnone hproxy) hproxy
    | some current => exact chain_canonicalEffects (hsome (by simp [hproxy]))
  | removeProxy id =>
    rw [Call.effects, Site.removeProxyEffects]
    split
    · exact trivial
    · next path hproxy =>
      refine Effects.chain_append.mpr ⟨?_, fun t _ => chain_of_rows fun e he t => ?_⟩
      · split
        · next hexists =>
          exact ⟨hregistered hproxy (hcareful path hproxy hexists), fun _ _ => trivial⟩
        · exact trivial
      · rcases List.mem_cons.mp he with rfl | hdelete
        · trivial
        · cases List.mem_singleton.mp hdelete
          trivial
  | removeOwned keep => exact chain_removeEffects _
  | suppress ids =>
    refine Effects.chain_append.mpr ⟨chain_removeEffects _, fun t _ => chain_of_rows ?_⟩
    intro e he u
    obtain ⟨id, -, hmem⟩ := List.mem_flatMap.mp he
    exact guarded_of_mem_hide hmem u
  | retire ids records =>
    refine Effects.chain_append.mpr ⟨chain_removeEffects _, fun t _ => chain_of_rows ?_⟩
    intro e he u
    cases List.mem_singleton.mp he
    trivial
  | ensure id game =>
    rw [Call.effects, Site.ensureEffects]
    split
    · exact trivial
    · next hproxy =>
      have hnone : s.rows.proxy id = none := by simpa using hproxy
      exact chain_writeEffects true (hcareful hnone) hnone
  | restore id =>
    rw [Call.effects, Site.restoreEffects]
    split
    · next path game hproxy _ =>
      split
      · next hmissing =>
        simp only [Bool.and_eq_true, Bool.not_eq_true'] at hmissing
        exact ⟨⟨hempty hmissing.1.1 (hcareful path hproxy), h.apart id path hproxy⟩,
          fun _ _ => trivial⟩
      · exact trivial
    · exact trivial

/-! ### Runs -/

theorem kept_of_init (h : (machine site).init s) : Kept site s := by
  obtain ⟨hrows, -⟩ := h
  have hproxy : ∀ id, s.rows.proxy id = none := fun id => by rw [hrows]; rfl
  exact ⟨fun id path _ _ hj => absurd ((hproxy id).symm.trans hj) (by simp),
    fun id path hj => absurd ((hproxy id).symm.trans hj) (by simp)⟩

/-- One action keeps the invariant. -/
theorem Kept.step {a : Action} {t : State} (h : Kept site s) (hcareful : Careful site s a)
    (ht : (machine site).step s a = some t) : Kept site t := by
  cases a with
  | put place content =>
    rw [machine] at ht
    dsimp only at ht
    split at ht
    · exact absurd ht (by simp)
    · next hmade =>
      cases ht
      refine h.put fun j game heq => ?_
      rw [heq] at hmade
      exact hmade rfl
  | drop place =>
    cases ht
    exact h.erase
  | call call stop torn =>
    cases ht
    exact Effects.exec_invariant (fun e s t hguard hs ht => Kept.run hguard hs ht)
      (fun _ e s _ hs => hs.tear e) (chain_effects h hcareful) h

theorem kept_of_reach (h : (machine site).Reach (Careful site) s) : Kept site s :=
  h.invariant (fun _ => kept_of_init) fun _ _ _ _ hs hcareful ht => hs.step hcareful ht

/-- **Files that are not ROMCloud's.** In every run of careful actions, whatever the user puts
    anywhere and wherever calls are cut short, nothing is written over or unlinked but a payload of
    the game that the call acts for. -/
theorem careful_runs_touch_own (h : (machine site).Reach (Careful site) s) {a : Action}
    (hcareful : Careful site s a) {touch : Touch} (htouch : touch ∈ touches site s a) :
    touch.Owned := by
  cases a with
  | put place content => exact absurd htouch (by simp [touches])
  | drop place => exact absurd htouch (by simp [touches])
  | call call stop torn =>
    obtain ⟨begun, hbegun, htouch⟩ := List.mem_flatMap.mp htouch
    exact (Effects.guard_of_mem_trace (chain_effects (kept_of_reach h) hcareful)
      hbegun).touches_owned htouch

/-! ### A catalog of one game -/

theorem lt_foldr_length {names : List String} {name : String} (h : name ∈ names) :
    name.length < names.foldr (fun other n => other.length + n) 1 := by
  induction names with
  | nil => exact absurd h (by simp)
  | cons first rest ih =>
    have hpos : ∀ more : List String, 0 < more.foldr (fun other n => other.length + n) 1 := by
      intro more
      induction more with
      | nil => decide
      | cons _ _ ih => exact Nat.add_pos_right _ ih
    rw [List.foldr_cons]
    rcases List.mem_cons.mp h with rfl | hrest
    · have := hpos rest
      omega
    · have := ih hrest
      omega

/-- ROM directories without links: further names of a proxy have more marks. -/
def shelf : Site where
  names system title _ attempt :=
    system ++ "/" ++ title ++ String.ofList (List.replicate attempt '+')
  place path := path
  names_apart system title id := by
    intro k l heq
    have hlength := congrArg String.length heq
    simpa using hlength
  inside _ := true
  walked _ := true
  staged files _ := String.ofList
    (List.replicate (files.keys.foldr (fun other n => other.length + n) 1) '.')
  staged_free files place := by
    rw [Dict.get?_eq_none_iff]
    intro hmem
    have hlt := lt_foldr_length hmem
    simp at hlt

def zelda : Game where
  system := "nes"
  title := "Zelda"
  sourceProvider := "local"
  sourceRoot := "/roms"
  assets := [⟨"zelda.nes", ["nes", "zelda.nes"], true⟩]
  addedAt := 0
  lastPlayed := none
  isEligible := true

/-- The ROM directories before the first refresh. -/
def bare : State := ⟨.empty, ∅⟩

/-- The game is registered, and its file is not there yet. -/
def registered : State :=
  shelf.effects.exec ((Call.register zelda).effects shelf bare) 1 false bare

/-- `_rewrite_owned_proxy` writes over what the user has put at the registered path. -/
theorem rewrite_overwrites : ∃ (s : State) (a : Action) (touch : Touch),
    (machine shelf).Reach Machine.anyStep s ∧ touch ∈ touches shelf s a ∧ ¬ touch.Owned := by
  have hput : (machine shelf).Reach Machine.anyStep
      { registered with files := registered.files.insert "nes/Zelda" (.foreign none) } :=
    .step (.step (.init ⟨rfl, fun _ _ h => absurd h (by simp [bare])⟩) trivial
      (a := .call (.register zelda) 1 false) rfl) trivial
      (a := .put "nes/Zelda" (.foreign none)) rfl
  refine ⟨_, .call (.rewrite true 0 { zelda with title := "Link" } none) 1 false,
    ⟨0, some (.foreign none)⟩, hput, ?_, fun howned => ?_⟩
  · have hmem : (touches shelf
        { registered with files := registered.files.insert "nes/Zelda" (.foreign none) }
        (.call (.rewrite true 0 { zelda with title := "Link" } none) 1 false)).head?.map
          (fun touch => (touch.id, touch.before)) = some (0, some (.foreign none)) := by
      decide +kernel
    obtain ⟨⟨id, before⟩, hhead, heq⟩ := Option.map_eq_some_iff.mp hmem
    cases heq
    exact List.mem_of_mem_head? hhead
  · exact absurd (howned _ rfl) (by simp [Content.payload])

/-- The first write of the file is at a free place. -/
theorem publish_touches_own : (⟨0, none⟩ : Touch).Owned := by
  have hopen : Open shelf bare 0 (shelf.allocate bare 0 zelda) :=
    ⟨fun _ _ hj => absurd hj (by simp [bare, Rows.proxy, Rows.empty]),
      fun _ hat => absurd hat (by simp [bare, Site.at?])⟩
  have hpath : registered.rows.proxy 0 = some "nes/Zelda" := by decide +kernel
  have hnothing : shelf.at? registered "nes/Zelda" = none := by decide +kernel
  have hreach : (machine shelf).Reach (Careful shelf) registered :=
    .step (.init ⟨rfl, fun _ _ h => absurd h (by simp [bare])⟩)
      (a := .call (.register zelda) 1 false) hopen rfl
  refine @careful_runs_touch_own shelf registered hreach
    (.call (.publish 0 zelda "nes/Zelda") 1 false) ⟨?_, ?_⟩ ⟨0, none⟩ ?_
  · rintro path heq
    cases heq
    exact hpath
  · intro c hc
    exact absurd (hnothing.symm.trans hc) (by simp)
  · have hmem : (touches shelf registered
        (.call (.publish 0 zelda "nes/Zelda") 1 false)).head?.map
          (fun touch => (touch.id, touch.before)) = some (0, none) := by decide +kernel
    obtain ⟨⟨id, before⟩, hhead, heq⟩ := Option.map_eq_some_iff.mp hmem
    cases heq
    exact List.mem_of_mem_head? hhead

end RomCloud.Proxies
