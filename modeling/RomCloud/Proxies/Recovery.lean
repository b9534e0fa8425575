import RomCloud.Proxies.ForeignFiles

namespace RomCloud.Proxies

open Lib Catalog

/-!
# Recovery of the proxies

What a crash or a write error leaves of the proxies, and what a refresh and
`restore_owned_proxies` make of it.

* `Call.Settled`, `Steady` — where a call may be cut short;
* `Accounted` — the invariant: a registered path is free or has its game's payload, and every file
  that ROMCloud has written is registered;
* `Quiet`, `Accounted.enroll` — the effects that keep it one by one, and the calls that keep it as a
  whole;
* `restoreActions`, `proxies_recover` — after the restoration of all records every eligible game has
  its proxy.
-/

variable (site : Site) (s : State)

/-- The removal of files comes by the path. -/
def Site.removable (site : Site) (path : String) : Prop :=
  site.walked path = true ∧ site.inside path = true

/-- Where a call may be cut short, and what it must find: a call that writes a file before its
    record does both or none; the files of the records that go are within reach of their removal. -/
def Call.Settled (stop : ℕ) : Call → Prop
  | .rewrite _ id _ _ | .ensure id _ => s.rows.proxy id = none →
      (s.rows.row id).isSome = true ∧ (stop = 0 ∨ 2 ≤ stop)
  | .canonicalize writes id game record owner => (s.rows.row id).isSome = true
      ∧ (stop = 0 ∨ (site.canonicalEffects s writes id game record owner).length ≤ stop)
  | .suppress ids => ∀ id ∈ ids, ∀ path, s.rows.proxy id = some path → site.removable path
  | .retire ids records => ∀ id ∈ ids, ∀ path, s.rows.proxy id = some path →
      site.removable path ∧ (id, path) ∈ records
  | .restore id => ∀ path, s.rows.proxy id = some path → site.inside path = true
  | _ => True

/-- What a step must not meet: nothing of the user's at a registered path but the payload itself, no
    torn write, and no call cut short where it may not be. -/
def Steady : Action → Prop
  | .put place content => ∀ id path, s.rows.proxy id = some path → site.place path = place →
      content.payload = some id
  | .drop _ => True
  | .call call stop torn => torn = false ∧ call.Careful site s ∧ call.Settled site s stop

/-- **The invariant.** A registered path is free or has its game's payload, no two lead to one
    place, and every file that ROMCloud has written is registered. -/
structure Accounted : Prop where
  clear : ∀ id path c, s.rows.proxy id = some path → site.at? s path = some c →
    c.payload = some id
  apart : ∀ id path, s.rows.proxy id = some path → Alone site s id path
  covered : ∀ place c, s.files.get? place = some c → c.made = true →
    ∃ id path, s.rows.proxy id = some path ∧ site.place path = place

/-- What an effect needs to keep the invariant by itself. -/
def Quiet (e : Effect) (s : State) : Prop :=
  match e with
  | .write path id _ | .replace path id _ => s.rows.proxy id = some path
  | .unregister id => ∀ path, s.rows.proxy id = some path → site.at? s path = none
  | .delete ids => ∀ id ∈ ids, ∀ path, s.rows.proxy id = some path → site.at? s path = none
  | .unlink .. | .save .. => True
  | .record .. | .register .. => False

variable {site s} {id : ℕ} {path : String} {game : Game}

theorem Accounted.kept (h : Accounted site s) : Kept site s :=
  ⟨fun id path _ _ hproxy hat => Option.some.inj (h.clear id path _ hproxy hat), h.apart⟩

/-- Nothing but a payload of its game exists at a registered path. -/
theorem Accounted.free (h : Accounted site s) (hproxy : s.rows.proxy id = some path)
    (hexists : site.pathExists s path = false) : site.at? s path = none := by
  by_contra hne
  obtain ⟨c, hc⟩ := Option.ne_none_iff_exists'.mp hne
  obtain ⟨target, rfl⟩ := Site.link_of_not_exists hc hexists
  exact absurd (h.clear id path _ hproxy hc) (by simp [Content.payload])

/-! ### Effects that keep the invariant one by one -/

/-- A payload written at the path of its record. -/
theorem Accounted.insert (h : Accounted site s) (hproxy : s.rows.proxy id = some path) :
    Accounted site { s with files := s.files.insert (site.place path) (.proxy id game) } := by
  constructor
  · intro j other c hj hc
    rw [Site.at?, Dict.get?_insert] at hc
    split at hc
    · next heq =>
      cases hc
      rw [h.apart id path hproxy j other hj heq]
      rfl
    · exact h.clear j other c hj hc
  · exact h.apart
  · intro place c hc hmade
    rw [Dict.get?_insert] at hc
    split at hc
    · next heq => exact ⟨id, path, hproxy, heq.symm⟩
    · exact h.covered place c hc hmade

theorem Accounted.erase {place : String} (h : Accounted site s) :
    Accounted site { s with files := s.files.erase place } := by
  constructor
  · intro j other c hj hc
    rw [Site.at?, Dict.get?_erase] at hc
    split at hc
    · exact absurd hc (by simp)
    · exact h.clear j other c hj hc
  · exact h.apart
  · intro q c hc hmade
    rw [Dict.get?_erase] at hc
    split at hc
    · exact absurd hc (by simp)
    · exact h.covered q c hc hmade

/-- What the user puts. -/
theorem Accounted.put {place : String} {c : Content} (h : Accounted site s)
    (hmade : c.made = false) (hpayload : ∀ id path, s.rows.proxy id = some path →
      site.place path = place → c.payload = some id) :
    Accounted site { s with files := s.files.insert place c } := by
  constructor
  · intro j other d hj hd
    rw [Site.at?, Dict.get?_insert] at hd
    split at hd
    · next heq =>
      cases hd
      exact hpayload j other hj heq
    · exact h.clear j other d hj hd
  · exact h.apart
  · intro q d hd hdmade
    rw [Dict.get?_insert] at hd
    split at hd
    · cases hd
      exact absurd (hmade.symm.trans hdmade) (by simp)
    · exact h.covered q d hd hdmade

/-- Records whose file is gone may go. -/
theorem Accounted.fewer {t : State} (h : Accounted site s) (hfiles : t.files = s.files)
    (hproxy : ∀ j path, t.rows.proxy j = some path → s.rows.proxy j = some path)
    (hgone : ∀ j path, s.rows.proxy j = some path → t.rows.proxy j = some path
      ∨ site.at? s path = none) : Accounted site t := by
  have hat : ∀ path, site.at? t path = site.at? s path := fun path => by
    rw [Site.at?, Site.at?, hfiles]
  constructor
  · intro j path c hj hc
    exact h.clear j path c (hproxy j path hj) ((hat path).symm.trans hc)
  · intro j path hj k other hk hplace
    exact h.apart j path (hproxy j path hj) k other (hproxy k other hk) hplace
  · intro place c hc hmade
    rw [hfiles] at hc
    obtain ⟨j, path, hj, rfl⟩ := h.covered place c hc hmade
    rcases hgone j path hj with hkept | hnone
    · exact ⟨j, path, hkept, rfl⟩
    · exact absurd (hnone.symm.trans hc) (by simp)

/-- **One effect.** -/
theorem Accounted.run {e : Effect} {t : State} (hquiet : Quiet site e s) (h : Accounted site s)
    (ht : site.run e s = some t) : Accounted site t := by
  cases e with
  | write path id game =>
    have hwrite := @run_write site s id path game fun c hc => h.clear id path c hquiet hc
    obtain rfl := Option.some.inj (hwrite.symm.trans ht)
    exact h.insert hquiet
  | replace path id game =>
    cases ht
    exact h.insert hquiet
  | unlink path id =>
    cases ht
    exact h.erase
  | record id path => exact absurd hquiet (fun h => h)
  | register game path => exact absurd hquiet (fun h => h)
  | save id game =>
    cases ht
    exact h.fewer rfl (fun _ _ hj => hj) fun _ _ hj => .inl hj
  | unregister id =>
    cases ht
    refine h.fewer rfl (fun j path hj => ?_) fun j path hj => ?_
    · rw [Rows.proxy_unregister] at hj
      split at hj
      · exact absurd hj (by simp)
      · exact hj
    · rw [Rows.proxy_unregister]
      split
      · next heq => exact .inr (hquiet path (heq ▸ hj))
      · exact .inl hj
  | delete ids =>
    cases ht
    refine h.fewer rfl (fun j path hj => ?_) fun j path hj => ?_
    · rw [Rows.proxy_delete] at hj
      split at hj
      · exact absurd hj (by simp)
      · exact hj
    · rw [Rows.proxy_delete]
      split
      · next hmem => exact .inr (hquiet j hmem path hj)
      · exact .inl hj

/-! ### Calls that keep the invariant as a whole -/

/-- **Enrolment.** A game gets a path: what is there afterwards is its payload or was there before,
    and of its former path nothing is left. -/
theorem Accounted.enroll {t : State} (h : Accounted site s)
    (hproxy : ∀ j, t.rows.proxy j = if j = id then some path else s.rows.proxy j)
    (halone : Alone site s id path)
    (hfree : ∀ c, site.at? s path = some c → c.payload = some id)
    (hfiles : ∀ place c, t.files.get? place = some c →
      (place = site.place path ∧ c.payload = some id) ∨ (s.files.get? place = some c
        ∧ ∀ old, s.rows.proxy id = some old → site.place old = place →
          place = site.place path)) : Accounted site t := by
  constructor
  · intro j other c hj hc
    rw [hproxy] at hj
    split at hj
    · next heq =>
      cases hj
      rw [heq]
      rcases hfiles _ c hc with ⟨-, hpayload⟩ | ⟨hs, -⟩
      · exact hpayload
      · exact hfree c hs
    · next hne =>
      rcases hfiles _ c hc with ⟨hplace, -⟩ | ⟨hs, -⟩
      · exact absurd (halone j other hj hplace) hne
      · exact h.clear j other c hj hs
  · intro j other hj k third hk hplace
    rw [hproxy] at hj hk
    split at hj
    · next hjd =>
      cases hj
      split at hk
      · next hkd => exact hkd.trans hjd.symm
      · exact (halone k third hk hplace).trans hjd.symm
    · split at hk
      · next hkd =>
        cases hk
        exact hkd.trans (halone j other hj hplace.symm).symm
      · exact h.apart j other hj k third hk hplace
  · intro place c hc hmade
    have hid : t.rows.proxy id = some path := (hproxy id).trans (if_pos rfl)
    rcases hfiles place c hc with ⟨rfl, -⟩ | ⟨hs, hformer⟩
    · exact ⟨id, path, hid, rfl⟩
    · obtain ⟨j, other, hj, hplace⟩ := h.covered place c hs hmade
      by_cases heq : j = id
      · subst heq
        exact ⟨j, path, hid, (hformer other hj hplace).symm⟩
      · exact ⟨j, other, (hproxy j).trans ((if_neg heq).trans hj), hplace⟩

theorem taken_allocate (site : Site) (game : Game) (hnone : s.rows.proxy id = none) :
    s.rows.taken id (site.allocate s id game) = false :=
  (Rows.taken_eq_false_iff ..).mpr fun j hj => absurd hj ((Site.allocate_free game hnone).1 j)

/-- What a whole `_write_proxy` leaves, for a game without a record. -/
theorem whole_writeEffects (writes : Bool) (hopen : Open site s id (site.allocate s id game))
    (hnone : s.rows.proxy id = none) (hrow : (s.rows.row id).isSome = true) :
    ∃ t, site.effects.whole (site.writeEffects s writes id game) s = some t
      ∧ t.rows = s.rows.record id (site.allocate s id game)
      ∧ t.files = if writes then s.files.insert (site.place (site.allocate s id game))
          (.proxy id game) else s.files := by
  have htaken := taken_allocate site game hnone
  have hclear : ∀ c, site.at? s (site.allocate s id game) = some c → c.payload = some id :=
    fun c hc => absurd ((hopen.allocated hnone).symm.trans hc) (by simp)
  have hrecord : ∀ t : State, t.rows = s.rows →
      site.run (.record id (site.allocate s id game)) t
        = some { t with rows := s.rows.record id (site.allocate s id game) } := by
    intro t ht
    rw [Site.run, ht, if_pos (by simp [hrow, htaken])]
  cases writes with
  | false =>
    refine ⟨{ s with rows := s.rows.record id (site.allocate s id game) }, ?_, rfl, rfl⟩
    simp [Site.writeEffects, hrecord s rfl]
  | true =>
    refine ⟨⟨s.rows.record id (site.allocate s id game), s.files.insert (site.place
      (site.allocate s id game)) (.proxy id game)⟩, ?_, rfl, rfl⟩
    simp [Site.writeEffects, run_write hclear, hrecord]

theorem length_writeEffects_le (writes : Bool) :
    (site.writeEffects s writes id game).length ≤ 2 := by
  cases writes <;> simp [Site.writeEffects]

/-- `_write_proxy`, done as a whole or not at all. -/
theorem Accounted.writeEffects {stop : ℕ} (h : Accounted site s) (writes : Bool)
    (hopen : Open site s id (site.allocate s id game)) (hnone : s.rows.proxy id = none)
    (hrow : (s.rows.row id).isSome = true)
    (hstop : stop = 0 ∨ (site.writeEffects s writes id game).length ≤ stop) :
    Accounted site (site.effects.exec (site.writeEffects s writes id game) stop false s) := by
  rcases hstop with rfl | hstop
  · rw [Effects.exec_zero]
    exact h
  obtain ⟨t, ht, hrows, hfiles⟩ := whole_writeEffects writes hopen hnone hrow
  rw [Effects.exec_of_whole ht hstop]
  have htaken := taken_allocate site game hnone
  refine h.enroll (fun j => ?_) hopen.alone ?_ ?_
  · rw [hrows]
    exact Rows.proxy_record hrow htaken j
  · exact fun c hc => absurd ((hopen.allocated hnone).symm.trans hc) (by simp)
  · intro place c hc
    have hold : ∀ old, s.rows.proxy id = some old → site.place old = place →
        place = site.place (site.allocate s id game) := fun old hold =>
      absurd (hnone.symm.trans hold) (by simp)
    rw [hfiles] at hc
    split at hc
    · rw [Dict.get?_insert] at hc
      split at hc
      · next heq =>
        cases hc
        exact .inl ⟨heq, rfl⟩
      · exact .inr ⟨hc, hold⟩
    · exact .inr ⟨hc, hold⟩

/-- What a whole move of a proxy to its plain name leaves. -/
theorem whole_move {writes : Bool} {current desired : String}
    (hclear : ∀ c, site.at? s desired = some c → c.payload = some id)
    (halone : Alone site s id desired) (hrow : (s.rows.row id).isSome = true) :
    ∃ t, site.effects.whole ((if writes then [.write desired id game] else [])
        ++ (.record id desired
          :: if site.pathExists s current then [.unlink current id] else [])) s = some t
      ∧ t.rows = s.rows.record id desired
      ∧ ∀ place, t.files.get? place
          = if site.pathExists s current = true ∧ place = site.place current then none
            else if writes = true ∧ place = site.place desired then some (.proxy id game)
            else s.files.get? place := by
  have htaken : s.rows.taken id desired = false :=
    (Rows.taken_eq_false_iff ..).mpr fun j hj => halone j desired hj rfl
  have hrest : ∀ t : State, t.rows = s.rows → ∃ u, site.effects.whole (.record id desired
      :: if site.pathExists s current then [.unlink current id] else []) t = some u
      ∧ u.rows = s.rows.record id desired
      ∧ ∀ place, u.files.get? place
          = if site.pathExists s current = true ∧ place = site.place current then none
            else t.files.get? place := by
    intro t ht
    have hrecord : site.run (.record id desired) t
        = some { t with rows := s.rows.record id desired } := by
      rw [Site.run, ht, if_pos (by simp [hrow, htaken])]
    by_cases hexists : site.pathExists s current = true
    · refine ⟨⟨s.rows.record id desired, t.files.erase (site.place current)⟩, ?_, rfl, ?_⟩
      · rw [if_pos hexists, Effects.whole_cons, Site.effects_run, hrecord]
        rfl
      · intro place
        simp only [hexists, true_and]
        exact Dict.get?_erase ..
    · refine ⟨⟨s.rows.record id desired, t.files⟩, ?_, rfl, ?_⟩
      · simp [hexists, hrecord]
      · intro place
        rw [if_neg fun h => hexists h.1]
  cases writes with
  | false =>
    obtain ⟨u, hwhole, hrows, hfiles⟩ := hrest s rfl
    exact ⟨u, hwhole, hrows, fun place => by simpa using hfiles place⟩
  | true =>
    obtain ⟨u, hwhole, hrows, hfiles⟩ :=
      hrest { s with files := s.files.insert (site.place desired) (.proxy id game) } rfl
    refine ⟨u, ?_, hrows, fun place => ?_⟩
    · rw [Effects.whole_append]
      rw [if_pos rfl, Effects.whole_cons, Site.effects_run, run_write hclear]
      exact hwhole
    · rw [hfiles]
      congr 1
      rw [Dict.get?_insert]
      simp only [true_and]

/-- `_canonicalize_proxy_path`, done as a whole or not at all, for a game with a record. -/
theorem Accounted.canonicalEffects {writes : Bool} {current : String} {owner : Option ℕ}
    {stop : ℕ} (h : Accounted site s) (hproxy : s.rows.proxy id = some current)
    (hopen : Open site s id (site.names game.system game.title id 0))
    (hrow : (s.rows.row id).isSome = true)
    (hstop : stop = 0 ∨
      (site.canonicalEffects s writes id game (some current) owner).length ≤ stop) :
    Accounted site
      (site.effects.exec (site.canonicalEffects s writes id game (some current) owner) stop false s)
    := by
  rcases hstop with rfl | hstop
  · rw [Effects.exec_zero]
    exact h
  rw [Site.canonicalEffects] at hstop ⊢
  set desired := site.names game.system game.title id 0
  split
  · exact h
  · next howner =>
    split
    · exact h
    · next hdesired =>
      split
      · exact h
      · next hcurrent =>
        rw [if_neg howner, if_neg hdesired, if_neg hcurrent] at hstop
        by_cases heq : current = desired
        · -- the plain name is the present one: the file is written again
          rw [if_pos heq, List.append_nil]
          have hchain : site.effects.Chain (Quiet site)
              (if writes then [.write desired id game] else []) s := by
            split
            · exact ⟨heq ▸ hproxy, fun _ _ => trivial⟩
            · exact trivial
          exact Effects.exec_invariant (fun e s t hquiet hs => hs.run hquiet)
            (fun htorn => absurd htorn (by simp)) hchain h
        · have hmissing : site.pathExists s desired = false := by simpa [heq] using hdesired
          have hnothing := hopen.noDangling.at?_eq_none hmissing
          have hclear : ∀ c, site.at? s desired = some c → c.payload = some id :=
            fun c hc => absurd (hnothing.symm.trans hc) (by simp)
          rw [if_neg heq] at hstop ⊢
          obtain ⟨t, ht, hrows, hfiles⟩ := @whole_move site s id game writes current desired hclear
            hopen.alone hrow
          rw [Effects.exec_of_whole ht hstop]
          have htaken : s.rows.taken id desired = false :=
            (Rows.taken_eq_false_iff ..).mpr fun j hj => hopen.alone j desired hj rfl
          refine h.enroll (fun j => ?_) hopen.alone hclear fun place c hc => ?_
          · rw [hrows]
            exact Rows.proxy_record hrow htaken j
          · rw [hfiles] at hc
            split at hc
            · exact absurd hc (by simp)
            · next hkept =>
              split at hc
              · next hwritten =>
                cases hc
                exact .inl ⟨hwritten.2, rfl⟩
              · refine .inr ⟨hc, fun old hold hplace => ?_⟩
                cases hproxy.symm.trans hold
                -- nothing is left at the former path: it was unlinked, or it was free
                have hmissing : site.pathExists s current = false :=
                  Bool.eq_false_iff.mpr fun hexists => hkept ⟨hexists, hplace.symm⟩
                have hfree := h.free hproxy hmissing
                rw [Site.at?, hplace] at hfree
                exact absurd (hfree.symm.trans hc) (by simp)

/-! ### The removal of files -/

/-- The files that a removal unlinks are gone, and no other file comes. -/
theorem whole_unlinks {records : List (ℕ × String)} {t : State}
    (h : site.effects.whole (records.map fun r => .unlink r.2 r.1) s = some t) :
    t.rows = s.rows ∧ (∀ place c, t.files.get? place = some c → s.files.get? place = some c)
      ∧ ∀ r ∈ records, site.at? t r.2 = none := by
  induction records generalizing s with
  | nil =>
    cases h
    exact ⟨rfl, fun _ _ hc => hc, fun _ hr => absurd hr (by simp)⟩
  | cons r rest ih =>
    obtain ⟨mid, hmid, h⟩ := Option.bind_eq_some_iff.mp h
    cases hmid
    obtain ⟨hrows, hfiles, hgone⟩ := ih h
    have hfewer : ∀ place c, t.files.get? place = some c →
        place ≠ site.place r.2 ∧ s.files.get? place = some c := by
      intro place c hc
      have hmid := hfiles place c hc
      rw [Dict.get?_erase] at hmid
      split at hmid
      · exact absurd hmid (by simp)
      · next hne => exact ⟨hne, hmid⟩
    refine ⟨hrows, fun place c hc => (hfewer place c hc).2, fun other hother => ?_⟩
    rcases List.mem_cons.mp hother with rfl | hrest
    · by_contra hne
      obtain ⟨c, hc⟩ := Option.ne_none_iff_exists'.mp hne
      exact (hfewer _ c hc).1 rfl
    · exact hgone other hrest

/-- What is registered within the reach of a removal is gone after it. -/
theorem Accounted.gone (h : Accounted site s) {records : List (ℕ × String)} {t : State}
    (ht : site.effects.whole (site.removeEffects s records) s = some t)
    (hproxy : s.rows.proxy id = some path) (hreach : site.removable path)
    (hmem : (id, path) ∈ records) : t.rows = s.rows ∧ site.at? t path = none := by
  obtain ⟨hrows, hfiles, hgone⟩ := whole_unlinks ht
  refine ⟨hrows, ?_⟩
  by_contra hne
  obtain ⟨c, hc⟩ := Option.ne_none_iff_exists'.mp hne
  have hat : site.at? s path = some c := hfiles _ c hc
  have hverified : site.verified s id path = true :=
    verified_iff.mpr ⟨c, hat, h.clear id path c hproxy hat⟩
  refine hne (hgone (id, path) (List.mem_filter.mpr ⟨hmem, ?_⟩))
  simp [hreach.1, hreach.2, hverified]

theorem quiet_removeEffects (records : List (ℕ × String)) :
    site.effects.Chain (Quiet site) (site.removeEffects s records) s := by
  refine Effects.chain_of_forall (I := fun _ => True) trivial (fun _ _ _ _ _ _ => trivial) ?_
  intro e he t _
  obtain ⟨r, -, rfl⟩ := List.mem_map.mp he
  exact trivial

/-- `_suppress_games`: the files of the records are gone when the records go. -/
theorem quiet_suppressEffects (h : Accounted site s) {ids : List ℕ}
    (hreach : ∀ id ∈ ids, ∀ path, s.rows.proxy id = some path → site.removable path) :
    site.effects.Chain (Quiet site) (site.suppressEffects s ids) s := by
  refine Effects.chain_append.mpr ⟨quiet_removeEffects _, fun t ht => ?_⟩
  have hrows := (whole_unlinks ht).1
  refine Effects.chain_of_forall (I := fun u => u.files = t.files
    ∧ ∀ j path, u.rows.proxy j = some path → s.rows.proxy j = some path)
    ⟨rfl, fun j path hj => hrows ▸ hj⟩ ?_ ?_
  · intro e he u v ⟨hfiles, hproxy⟩ hv
    obtain ⟨id, -, he⟩ := List.mem_flatMap.mp he
    rcases List.mem_cons.mp he with rfl | hsave
    · cases hv
      refine ⟨hfiles, fun j path hj => ?_⟩
      rw [Rows.proxy_unregister] at hj
      split at hj
      · exact absurd hj (by simp)
      · exact hproxy j path hj
    · split at hsave
      · split at hsave
        · cases List.mem_singleton.mp hsave
          cases hv
          exact ⟨hfiles, hproxy⟩
        · exact absurd hsave (by simp)
      · exact absurd hsave (by simp)
  · intro e he u ⟨hfiles, hproxy⟩
    obtain ⟨id, hid, he⟩ := List.mem_flatMap.mp he
    rcases List.mem_cons.mp he with rfl | hsave
    · intro path hj
      have hs := hproxy id path hj
      have hmem : (id, path) ∈ s.rows.proxies.entries.filter fun r => ids.contains r.1 :=
        List.mem_filter.mpr ⟨(s.rows.proxies.get?_eq_some_iff _ _).mp hs, by simpa using hid⟩
      rw [Site.at?, hfiles]
      exact (h.gone ht hs (hreach id hid path hs) hmem).2
    · split at hsave
      · split at hsave
        · cases List.mem_singleton.mp hsave
          exact trivial
        · exact absurd hsave (by simp)
      · exact absurd hsave (by simp)

/-- `_retire_duplicate_games`. -/
theorem quiet_retireEffects (h : Accounted site s) {ids : List ℕ} {records : List (ℕ × String)}
    (hreach : ∀ id ∈ ids, ∀ path, s.rows.proxy id = some path →
      site.removable path ∧ (id, path) ∈ records) :
    site.effects.Chain (Quiet site) (site.retireEffects s ids records) s := by
  refine Effects.chain_append.mpr ⟨quiet_removeEffects _, fun t ht => ⟨?_, fun _ _ => trivial⟩⟩
  intro id hid path hj
  have hs : s.rows.proxy id = some path := (whole_unlinks ht).1 ▸ hj
  obtain ⟨hremovable, hread⟩ := hreach id hid path hs
  have hmem : (id, path) ∈ records.filter fun r => ids.contains r.1 :=
    List.mem_filter.mpr ⟨hread, by simpa using hid⟩
  exact (h.gone ht hs hremovable hmem).2

/-- `remove_proxy`. -/
theorem quiet_removeProxyEffects (h : Accounted site s) (id : ℕ) :
    site.effects.Chain (Quiet site) (site.removeProxyEffects s id) s := by
  rw [Site.removeProxyEffects]
  split
  · exact trivial
  · next path hproxy =>
    have hrest : ∀ t : State, t.rows = s.rows → site.at? t path = none →
        site.effects.Chain (Quiet site) [.unregister id, .delete [id]] t := by
      intro t hrows hnothing
      refine ⟨fun other hj => ?_, fun u hu => ⟨fun j hj other hother => ?_, fun _ _ => trivial⟩⟩
      · rw [hrows, hproxy] at hj
        cases hj
        exact hnothing
      · cases hu
        rw [List.mem_singleton.mp hj, Rows.proxy_unregister, if_pos rfl] at hother
        exact absurd hother (by simp)
    refine Effects.chain_append.mpr ⟨?_, fun t ht => ?_⟩
    · split
      · exact ⟨trivial, fun _ _ => trivial⟩
      · exact trivial
    · split at ht
      · rw [Effects.whole_cons, Site.effects_run, Site.run] at ht
        cases ht
        exact hrest _ rfl (by rw [Site.at?, Dict.get?_erase, if_pos rfl])
      · next hexists =>
        cases ht
        exact hrest s rfl (h.free hproxy (Bool.eq_false_iff.mpr hexists))

/-! ### Runs -/

/-- A call whose effects keep the invariant one by one keeps it wherever it stops. -/
theorem Accounted.exec {effects : List Effect} {stop : ℕ} (h : Accounted site s)
    (hchain : site.effects.Chain (Quiet site) effects s) :
    Accounted site (site.effects.exec effects stop false s) :=
  Effects.exec_invariant (fun _ _ _ hquiet hs ht => hs.run hquiet ht)
    (fun htorn => absurd htorn (by simp)) hchain h

/-- **Each call.** A settled call keeps the invariant. -/
theorem Accounted.call {call : Call} {stop : ℕ} (h : Accounted site s)
    (hcareful : call.Careful site s) (hsettled : call.Settled site s stop) :
    Accounted site (site.effects.exec (call.effects site s) stop false s) := by
  cases call with
  | save id game => exact h.exec ⟨trivial, fun _ _ => trivial⟩
  | register game =>
    have hnone : s.rows.proxy s.rows.nextId = none := by
      by_contra hne
      obtain ⟨path, hpath⟩ := Option.ne_none_iff_exists'.mp hne
      obtain ⟨old, hold⟩ := s.rows.recorded _ _ hpath
      exact absurd (s.rows.fresh _ _ hold) (lt_irrefl _)
    match stop with
    | 0 => exact (Effects.exec_zero (E := site.effects) _ s).symm ▸ h
    | n + 1 =>
      have htaken := taken_allocate site game hnone
      have hrow : ((s.rows.save s.rows.nextId game).row s.rows.nextId).isSome = true := by simp
      have hwhole : site.effects.whole ((Call.register game).effects site s) s = some { s with
          rows := (s.rows.save s.rows.nextId game).record s.rows.nextId
            (site.allocate s s.rows.nextId game) } := by
        rw [Call.effects, Effects.whole_cons, Site.effects_run, Site.run, if_neg (by simp [htaken])]
        rfl
      rw [Effects.exec_of_whole hwhole (Nat.le_add_left 1 n)]
      refine h.enroll (Rows.proxy_record hrow htaken) hcareful.alone ?_ fun place c hc => ?_
      · exact fun c hc => absurd ((hcareful.allocated hnone).symm.trans hc) (by simp)
      · exact .inr ⟨hc, fun old hold => absurd (hnone.symm.trans hold) (by simp)⟩
  | publish id game path => exact h.exec ⟨hcareful.1 path rfl, fun _ _ => trivial⟩
  | publishMissing id game record =>
    refine h.exec ?_
    cases record with
    | none => exact trivial
    | some path =>
      show site.effects.Chain _ (if site.pathExists s path then [] else _) s
      split
      · exact trivial
      · exact ⟨hcareful.1 path rfl, fun _ _ => trivial⟩
  | rewrite writes id game record =>
    obtain ⟨hcurrent, -, hopen⟩ := hcareful
    rw [Call.effects, Site.rewriteEffects]
    cases hproxy : s.rows.proxy id with
    | none =>
      have hrecord : record = none := Option.eq_none_iff_forall_ne_some.mpr fun path heq =>
        absurd (hproxy.symm.trans (hcurrent path heq)) (by simp)
      subst hrecord
      obtain ⟨hrow, hstop⟩ := hsettled hproxy
      exact h.writeEffects writes (hopen hproxy) hproxy hrow
        (hstop.imp_right (le_trans (length_writeEffects_le writes)))
    | some path =>
      have hrecord : record.or (some path) = some path := by
        cases record with
        | none => rfl
        | some read => exact (hcurrent read rfl).symm.trans hproxy
      rw [hrecord]
      refine h.exec ?_
      show site.effects.Chain _ (if writes then _ else []) s
      split
      · exact ⟨hproxy, fun _ _ => trivial⟩
      · exact trivial
  | canonicalize writes id game record owner =>
    obtain ⟨rfl, hnone, hsome⟩ := hcareful
    obtain ⟨hrow, hstop⟩ := hsettled
    rw [Call.effects]
    cases hproxy : s.rows.proxy id with
    | none =>
      rw [hproxy] at hstop
      exact h.writeEffects writes (hnone hproxy) hproxy hrow hstop
    | some current =>
      rw [hproxy] at hstop
      exact h.canonicalEffects hproxy (hsome (by simp [hproxy])) hrow hstop
  | removeProxy id => exact h.exec (quiet_removeProxyEffects h id)
  | removeOwned keep => exact h.exec (quiet_removeEffects _)
  | suppress ids => exact h.exec (quiet_suppressEffects h hsettled)
  | retire ids records => exact h.exec (quiet_retireEffects h hsettled)
  | ensure id game =>
    rw [Call.effects, Site.ensureEffects]
    split
    · exact h
    · next hproxy =>
      have hnone : s.rows.proxy id = none := by simpa using hproxy
      obtain ⟨hrow, hstop⟩ := hsettled hnone
      exact h.writeEffects true (hcareful hnone) hnone hrow
        (hstop.imp_right (le_trans (length_writeEffects_le true)))
  | restore id =>
    refine h.exec ?_
    rw [Call.effects, Site.restoreEffects]
    split
    · next path game hproxy _ =>
      split
      · exact ⟨hproxy, fun _ _ => trivial⟩
      · exact trivial
    · exact trivial

theorem accounted_of_init (h : (machine site).init s) : Accounted site s := by
  obtain ⟨hrows, hfiles⟩ := h
  have hproxy : ∀ id, s.rows.proxy id = none := fun id => by rw [hrows]; rfl
  exact ⟨fun id path _ hj => absurd ((hproxy id).symm.trans hj) (by simp),
    fun id path hj => absurd ((hproxy id).symm.trans hj) (by simp),
    fun place c hc hmade => absurd ((hfiles place c hc).symm.trans hmade) (by simp)⟩

/-- One action keeps the invariant. -/
theorem Accounted.step {a : Action} {t : State} (h : Accounted site s) (hsteady : Steady site s a)
    (ht : (machine site).step s a = some t) : Accounted site t := by
  cases a with
  | put place content =>
    rw [machine] at ht
    dsimp only at ht
    split at ht
    · exact absurd ht (by simp)
    · next hmade =>
      cases ht
      exact h.put (Bool.eq_false_iff.mpr hmade) hsteady
  | drop place =>
    cases ht
    exact h.erase
  | call call stop torn =>
    obtain ⟨rfl, hcareful, hsettled⟩ := hsteady
    cases ht
    exact h.call hcareful hsettled

theorem accounted_of_reach (h : (machine site).Reach (Steady site) s) : Accounted site s :=
  h.invariant (fun _ => accounted_of_init) fun _ _ _ _ hs hsteady ht => hs.step hsteady ht

/-! ### The restoration -/

/-- `restore_owned_proxies`: the records that are there, and then the eligible games without one. -/
def restoreActions (s : State) : List Action :=
  s.rows.proxies.keys.map (fun id => .call (.restore id) 1 false)
    ++ (s.rows.games.entries.filter fun r => r.2.isEligible && (s.rows.proxy r.1).isNone).map
      fun r => .call (.ensure r.1 r.2) 2 false

/-- Every eligible game has its proxy, and ROMCloud has written no file without a record. -/
structure Recovered (site : Site) (s : State) : Prop where
  served : ∀ id game, s.rows.row id = some game → game.isEligible = true →
    ∃ path c, s.rows.proxy id = some path ∧ site.at? s path = some c ∧ c.payload = some id
  covered : ∀ place c, s.files.get? place = some c → c.made = true →
    ∃ id path, s.rows.proxy id = some path ∧ site.place path = place

/-- The game has a record, and there is something at its path. -/
def Served (site : Site) (s : State) (id : ℕ) : Prop :=
  ∃ path c, s.rows.proxy id = some path ∧ site.at? s path = some c

/-- The game has its proxy, or its turn is still to come. -/
def Awaits (site : Site) (s : State) (rest : List Action) (id : ℕ) (game : Game) : Prop :=
  Served site s id
    ∨ (.call (.restore id) 1 false ∈ rest ∧ ∃ path, s.rows.proxy id = some path)
    ∨ (.call (.ensure id game) 2 false ∈ rest ∧ s.rows.proxy id = none)

/-- The restoration of one record. -/
theorem restore_step {t : State} (h : Accounted site s)
    (hsteady : Steady site s (.call (.restore id) 1 false))
    (ht : (machine site).step s (.call (.restore id) 1 false) = some t) : t.rows = s.rows
      ∧ (∀ path c, site.at? s path = some c → ∃ d, site.at? t path = some d)
      ∧ ∀ path game, s.rows.proxy id = some path → s.rows.row id = some game →
        game.isEligible = true → ∃ c, site.at? t path = some c := by
  cases ht
  dsimp only [Call.effects]
  rw [Site.restoreEffects]
  split
  · next path game hproxy hrow =>
    by_cases hmissing : (!site.pathExists s path && site.inside path && game.isEligible) = true
    · rw [if_pos hmissing]
      have hwhole : site.effects.whole [.write path id game] s = some { s with
          files := s.files.insert (site.place path) (.proxy id game) } := by
        simp [run_write fun c hc => h.clear id path c hproxy hc]
      rw [Effects.exec_of_whole hwhole (show [Effect.write path id game].length ≤ 1 from le_rfl)]
      refine ⟨rfl, fun other c hc => ?_, fun other _ hother _ _ => ?_⟩
      · rw [Site.at?, Dict.get?_insert]
        split
        · exact ⟨_, rfl⟩
        · exact ⟨c, hc⟩
      · cases hproxy.symm.trans hother
        exact ⟨_, by rw [Site.at?, Dict.get?_insert, if_pos rfl]⟩
    · rw [if_neg hmissing]
      refine ⟨rfl, fun other c hc => ⟨c, hc⟩, fun other game' hother hrow' heligible => ?_⟩
      cases hproxy.symm.trans hother
      cases hrow.symm.trans hrow'
      have hinside : site.inside path = true := hsteady.2.2 path hproxy
      show ∃ c, site.at? s path = some c
      exact Site.at?_of_exists (by simpa [hinside, heligible] using hmissing)
  · next hnone =>
    exact ⟨rfl, fun other c hc => ⟨c, hc⟩, fun path game hproxy hrow _ =>
      absurd hrow (hnone path game hproxy)⟩

/-- The registration of a game that has no record. -/
theorem ensure_step {t : State} (hsteady : Steady site s (.call (.ensure id game) 2 false))
    (ht : (machine site).step s (.call (.ensure id game) 2 false) = some t) :
    (∀ j, t.rows.row j = s.rows.row j)
      ∧ (∀ j, j ≠ id → t.rows.proxy j = s.rows.proxy j)
      ∧ (∀ path, s.rows.proxy id = some path → t.rows.proxy id = some path)
      ∧ (∀ path c, site.at? s path = some c → ∃ d, site.at? t path = some d)
      ∧ (s.rows.proxy id = none → Served site t id) := by
  obtain ⟨-, hcareful, hsettled⟩ := hsteady
  cases ht
  dsimp only [Call.effects]
  rw [Site.ensureEffects]
  split
  · next hsome =>
    exact ⟨fun _ => rfl, fun _ _ => rfl, fun _ h => h, fun _ c hc => ⟨c, hc⟩,
      fun hnone => absurd hsome (by simp [hnone])⟩
  · next hproxy =>
    have hnone : s.rows.proxy id = none := by simpa using hproxy
    obtain ⟨hrow, -⟩ := hsettled hnone
    obtain ⟨t, ht, hrows, hfiles⟩ :=
      whole_writeEffects true (hcareful hnone) hnone hrow
    rw [if_pos rfl] at hfiles
    rw [Effects.exec_of_whole ht (length_writeEffects_le true)]
    have hrecorded := Rows.proxy_record hrow (taken_allocate site game hnone)
    have hat : ∀ path, site.at? t path = if site.place path
        = site.place (site.allocate s id game) then some (.proxy id game)
        else site.at? s path := fun path => by
      rw [Site.at?, hfiles, Dict.get?_insert]
      rfl
    refine ⟨fun j => ?_, fun j hne => ?_, fun path hpath => ?_, fun path c hc => ?_, fun _ => ?_⟩
    · rw [hrows, Rows.row_record]
    · rw [hrows, hrecorded, if_neg hne]
    · exact absurd (hnone.symm.trans hpath) (by simp)
    · rw [hat]
      split
      · exact ⟨_, rfl⟩
      · exact ⟨c, hc⟩
    · exact ⟨site.allocate s id game, _, by rw [hrows, hrecorded, if_pos rfl],
        (hat _).trans (if_pos rfl)⟩

/-- **The restoration.** At its end every eligible game has had its turn. -/
theorem served_of_awaits {rest : List Action} {t : State}
    (hrest : ∀ a ∈ rest, (∃ id, a = .call (.restore id) 1 false)
      ∨ ∃ id game, a = .call (.ensure id game) 2 false)
    (h : Accounted site s) (hafter : (machine site).After (Steady site) rest s t)
    (hawaits : ∀ id game, s.rows.row id = some game → game.isEligible = true →
      Awaits site s rest id game) :
    ∀ id game, t.rows.row id = some game → game.isEligible = true → Served site t id := by
  induction rest generalizing s with
  | nil =>
    cases hafter
    intro id game hrow heligible
    rcases hawaits id game hrow heligible with hserved | ⟨hmem, -⟩ | ⟨hmem, -⟩
    · exact hserved
    · exact absurd hmem (by simp)
    · exact absurd hmem (by simp)
  | cons a rest ih =>
    obtain ⟨hsteady, mid, hmid, hafter⟩ := hafter
    refine ih (fun b hb => hrest b (List.mem_cons_of_mem _ hb)) (h.step hsteady hmid) hafter ?_
    intro id game hrow heligible
    rcases hrest a List.mem_cons_self with ⟨j, rfl⟩ | ⟨j, other, rfl⟩
    · obtain ⟨hrows, hgrow, hserve⟩ := restore_step h hsteady hmid
      rw [hrows] at hrow
      rcases hawaits id game hrow heligible with ⟨path, c, hproxy, hc⟩ | ⟨hmem, path, hproxy⟩
        | ⟨hmem, hnone⟩
      · obtain ⟨d, hd⟩ := hgrow path c hc
        exact .inl ⟨path, d, hrows ▸ hproxy, hd⟩
      · rcases List.mem_cons.mp hmem with heq | hlater
        · cases heq
          obtain ⟨c, hc⟩ := hserve path game hproxy hrow heligible
          exact .inl ⟨path, c, hrows ▸ hproxy, hc⟩
        · exact .inr (.inl ⟨hlater, path, hrows ▸ hproxy⟩)
      · exact .inr (.inr ⟨(List.mem_cons.mp hmem).resolve_left (by simp), hrows ▸ hnone⟩)
    · obtain ⟨hrows, hothers, hkeeps, hgrow, hserve⟩ := ensure_step hsteady hmid
      rw [hrows] at hrow
      rcases hawaits id game hrow heligible with ⟨path, c, hproxy, hc⟩ | ⟨hmem, path, hproxy⟩
        | ⟨hmem, hnone⟩
      · obtain ⟨d, hd⟩ := hgrow path c hc
        refine .inl ⟨path, d, ?_, hd⟩
        by_cases heq : id = j
        · exact heq ▸ hkeeps path (heq ▸ hproxy)
        · exact (hothers id heq).trans hproxy
      · refine .inr (.inl ⟨(List.mem_cons.mp hmem).resolve_left (by simp), path, ?_⟩)
        by_cases heq : id = j
        · exact heq ▸ hkeeps path (heq ▸ hproxy)
        · exact (hothers id heq).trans hproxy
      · by_cases heq : id = j
        · exact .inl (heq ▸ hserve (heq ▸ hnone))
        · refine .inr (.inr ⟨(List.mem_cons.mp hmem).resolve_left ?_, (hothers id heq).trans hnone⟩)
          rintro heq'
          cases heq'
          exact heq rfl

/-- **Recovery.** After a run of steady actions, with crashes and write errors where they may be,
    the restoration gives every eligible game its proxy and leaves no file without a record. -/
theorem proxies_recover {t : State} (h : (machine site).Reach (Steady site) s)
    (hafter : (machine site).After (Steady site) (restoreActions s) s t) : Recovered site t := by
  have haccounted := accounted_of_reach (h.after hafter)
  refine ⟨fun id game hrow heligible => ?_, haccounted.covered⟩
  have hserved := served_of_awaits (fun a ha => ?_) (accounted_of_reach h) hafter
    (fun id game hrow heligible => ?_) id game hrow heligible
  · obtain ⟨path, c, hproxy, hc⟩ := hserved
    exact ⟨path, c, hproxy, hc, haccounted.clear id path c hproxy hc⟩
  · rcases List.mem_append.mp ha with hrestore | hensure
    · obtain ⟨id, -, rfl⟩ := List.mem_map.mp hrestore
      exact .inl ⟨id, rfl⟩
    · obtain ⟨r, -, rfl⟩ := List.mem_map.mp hensure
      exact .inr ⟨r.1, r.2, rfl⟩
  · cases hproxy : s.rows.proxy id with
    | some path =>
      have hkey : id ∈ s.rows.proxies.keys := (s.rows.proxies.mem_keys_iff _).mpr ⟨path, hproxy⟩
      exact .inr (.inl ⟨List.mem_append_left _ (List.mem_map_of_mem hkey), path, hproxy⟩)
    | none =>
      have hentry : (id, game) ∈ s.rows.games.entries := (s.rows.games.get?_eq_some_iff _ _).mp hrow
      refine .inr (.inr ⟨List.mem_append_right _ (List.mem_map.mpr ⟨(id, game), ?_, rfl⟩), hproxy⟩)
      exact List.mem_filter.mpr ⟨hentry, by simp [heligible, hproxy]⟩

/-! ### A catalog of one game -/

/-- A restoration of the registered game that is interrupted in its write. -/
def tornShelf : State :=
  shelf.effects.exec ((Call.restore 0).effects shelf registered) 0 true registered

/-- The refresh after it: the game has not changed. -/
def refreshedShelf : State := shelf.effects.exec
  ((Call.publishMissing 0 zelda (some "nes/Zelda")).effects shelf tornShelf) 1 false tornShelf

/-- The restoration after that. -/
def lastShelf : State :=
  shelf.effects.exec ((Call.restore 0).effects shelf refreshedShelf) 1 false refreshedShelf

/-- A restoration of the registered game that completes. -/
def restoredShelf : State :=
  shelf.effects.exec ((Call.restore 0).effects shelf registered) 1 false registered

theorem reach_registered {allowed : State → Action → Prop}
    (h : allowed bare (.call (.register zelda) 1 false)) :
    (machine shelf).Reach allowed registered :=
  .step (.init ⟨rfl, fun _ _ h => absurd h (by simp [bare])⟩) h rfl

/-- The restoration of a catalog with one record and no other game. -/
theorem restoreActions_of_one (hkeys : s.rows.proxies.keys = [0])
    (hothers : (s.rows.games.entries.filter fun r =>
      r.2.isEligible && (s.rows.proxy r.1).isNone) = []) :
    restoreActions s = [.call (.restore 0) 1 false] := by
  rw [restoreActions, hkeys, hothers]
  rfl

/-- An interrupted write leaves a torn file at the registered path.  A later refresh and a later
    restoration see that it exists. -/
theorem tornProxy_stays : ∃ s t u : State, (machine shelf).Reach Machine.anyStep s
    ∧ (machine shelf).After Machine.anyStep
        [.call (.publishMissing 0 zelda (some "nes/Zelda")) 1 false] s t
    ∧ (machine shelf).After Machine.anyStep (restoreActions t) t u ∧ ¬ Recovered shelf u := by
  have hreach : (machine shelf).Reach Machine.anyStep tornShelf :=
    (reach_registered trivial).step (a := .call (.restore 0) 0 true) trivial rfl
  refine ⟨tornShelf, refreshedShelf, lastShelf, hreach, ⟨trivial, _, rfl, rfl⟩, ?_, fun h => ?_⟩
  · rw [restoreActions_of_one (by decide +kernel) (by decide +kernel)]
    exact ⟨trivial, _, rfl, rfl⟩
  · obtain ⟨path, c, hproxy, hc, hpayload⟩ := h.served 0 zelda (by decide +kernel) rfl
    have hpath : path = "nes/Zelda" := Option.some.inj (hproxy.symm.trans (by decide +kernel))
    subst hpath
    have htorn : c = .torn := Option.some.inj (hc.symm.trans (by decide +kernel))
    subst htorn
    exact absurd hpayload (by simp [Content.payload])

/-- A crash between the registration and the file. -/
theorem registered_recovers : Recovered shelf restoredShelf := by
  have hopen : Open shelf bare 0 (shelf.allocate bare 0 zelda) :=
    ⟨fun _ _ hj => absurd hj (by simp [bare, Rows.proxy, Rows.empty]),
      fun _ hat => absurd hat (by simp [bare, Site.at?])⟩
  have hreach : (machine shelf).Reach (Steady shelf) registered :=
    reach_registered ⟨rfl, hopen, trivial⟩
  have hpath : registered.rows.proxy 0 = some "nes/Zelda" := by decide +kernel
  have hnothing : shelf.at? registered "nes/Zelda" = none := by decide +kernel
  have hcareful : (Call.restore 0).Careful shelf registered := by
    intro path hproxy target hat
    cases hpath.symm.trans hproxy
    exact absurd (hnothing.symm.trans hat) (by simp)
  refine proxies_recover hreach ?_
  rw [restoreActions_of_one (by decide +kernel) (by decide +kernel)]
  exact ⟨⟨rfl, hcareful, fun _ _ => rfl⟩, _, rfl, rfl⟩

end RomCloud.Proxies
