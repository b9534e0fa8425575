import RomCloud.Catalog.NewRows
import RomCloud.Catalog.HidingEvidence

namespace RomCloud.Catalog

open Lib

/-!
# A refresh converges to the scan

* `Run.report` — what a refresh without errors reports;
* `Run.Converges` — the rows are those of the scan, and the next refresh of the same source changes
  and reports nothing;
* `Run.Settled` — what holds after a refresh, and lets the next one do nothing;
* `converges_iff` — a refresh converges, if and only if no cue set lists a game that was found.
-/

structure Report where
  added : ℕ
  updated : ℕ
  removed : ℕ
deriving DecidableEq

def Report.add (r s : Report) : Report :=
  ⟨r.added + s.added, r.updated + s.updated, r.removed + s.removed⟩

namespace Run

/-- What a completed system counts, from the rows that it finds. -/
def systemReport (run : Run) (c : Rows) (system : String) : Report :=
  match run.scan system with
  | none => ⟨0, 0, 0⟩
  | some scan =>
    { added := (scan.games.filterMap (run.newGame c system scan)).length
      updated := (scan.games.filter fun found => found.path.any fun path =>
        (existing c (c.systemRows system) scan path).any fun r => run.changed found r.2).length
      removed := (pruneOps c system scan).length
        + (run.loop c system scan).duplicates.dedup.length }

/-- The eligible rows among those that satisfy a test. -/
def hidden (c : Rows) (test : Game → Bool) : ℕ :=
  (c.games.entries.filter fun r => r.2.isEligible && test r.2).length

/-- `CatalogRefreshResult`, of a refresh without errors. -/
def report (run : Run) (c : Rows) : Report :=
  let systems := (run.matched.map fun system =>
    run.systemReport (run.reached c system) system).foldr Report.add ⟨0, 0, 0⟩
  { systems with
    removed := hidden c (fun game => !run.selects game.system) + systems.removed
      + hidden (run.scanned c) run.stale }

/-- The refresh reports no errors. -/
structure Clean (run : Run) : Prop where
  scan : ∀ system ∈ run.matched, (run.scan system).isSome
  stop : ∀ system, run.stop system = none

/-- A refresh of the same source: the scans have found the same games, at another time. -/
structure Repeats (run run' : Run) : Prop where
  provider : run'.provider = run.provider
  sourceRoot : run'.sourceRoot = run.sourceRoot
  selectedSystems : run'.selectedSystems = run.selectedSystems
  registry : run'.registry = run.registry
  remoteSystems : run'.remoteSystems = run.remoteSystems
  scan : ∀ system scan, run.scan system = some scan → ∃ scan', run'.scan system = some scan'
    ∧ scan'.games.map (fun found => (found.title, found.assets))
      = scan.games.map (fun found => (found.title, found.assets))
    ∧ scan'.ineligible = scan.ineligible ∧ scan'.directories = scan.directories
  stop : ∀ system, run'.stop system = none

/-- The row of the game at a path, and no other row is at it. -/
def Only (c : Rows) (system : String) (path : SourcePath) (id : ℕ) (game : Game) : Prop :=
  c.row id = some game ∧ game.system = system ∧ game.path = some path
    ∧ ∀ j other, c.row j = some other → other.system = system → other.path = some path → j = id

/-- **What the refresh promises.** -/
structure Converges (run : Run) (c : Rows) : Prop where
  found : ∀ system scan, run.Scanned system scan → ∀ found ∈ scan.games, ∀ path,
    found.path = some path →
    ∃ id game, Only (run.refresh c) system path id game ∧ game.isEligible = true
  companions : ∀ system scan, run.Scanned system scan → ∀ path ∈ scan.consumed,
    (∀ found ∈ scan.games, found.path ≠ some path) →
    ∀ id game, (run.refresh c).row id = some game → game.system = system →
      game.path = some path → game.isEligible = false
  proxies : ∀ i j path, (run.refresh c).proxy i = some path → (run.refresh c).proxy j = some path →
    i = j
  again : ∀ run', Repeats run run' →
    run'.report (run.refresh c) = ⟨0, 0, 0⟩ ∧ run'.refresh (run.refresh c) = run.refresh c

/-! ### Rows that are hidden already -/

theorem rows_ext {c d : Rows} (hrow : ∀ id, d.row id = c.row id)
    (hentry : ∀ id, d.entry id = c.entry id) (hproxy : ∀ id, d.proxy id = c.proxy id)
    (hnext : d.nextId = c.nextId) : d = c := by
  obtain ⟨games, cache, proxies, nextId, _, _, _, _⟩ := c
  obtain ⟨games', cache', proxies', nextId', _, _, _, _⟩ := d
  obtain rfl : games' = games := Dict.ext_get? hrow
  obtain rfl : cache' = cache := Dict.ext_get? hentry
  obtain rfl : proxies' = proxies := Dict.ext_get? hproxy
  obtain rfl : nextId' = nextId := hnext
  rfl

variable {run run' : Run} {c d : Rows} {system : String} {scan : Scan} {id : ℕ} {game : Game}
  {found : Found} {path : SourcePath}

/-- Nothing is left to hide of the row. -/
def Concealed (c : Rows) (id : ℕ) (game : Game) : Prop :=
  game.isEligible = false ∧ c.proxy id = none

theorem applyAll_hide_eq_self {ids : List ℕ}
    (h : ∀ id ∈ ids, ∀ game, c.row id = some game → Concealed c id game) :
    c.applyAll (ids.map .hide) = c := by
  have hproxy : ∀ id ∈ ids, c.proxy id = none := by
    intro id hid
    cases hrow : c.row id with
    | some game => exact (h id hid game hrow).2
    | none =>
      cases hproxy : c.proxy id with
      | none => rfl
      | some path =>
        obtain ⟨game, hgame⟩ := c.recorded id path hproxy
        exact absurd (hrow.symm.trans hgame) (by simp)
  refine rows_ext (fun id => ?_) (fun id => ?_) (fun id => ?_) ?_
  · rw [Rows.row_applyAll_hide]
    split
    · next hid =>
      cases hrow : c.row id with
      | none => rfl
      | some game =>
        obtain ⟨heligible, -⟩ := h id hid game hrow
        rw [Option.map_some, ← heligible]
    · rfl
  · refine Rows.entry_applyAll_of_kept fun op hop => ?_
    obtain ⟨j, -, rfl⟩ := List.mem_map.mp hop
    exact not_false
  · rw [Rows.proxy_applyAll_hide]
    split
    · next hid => exact (hproxy id hid).symm
    · rfl
  · refine Rows.applyAll_induction (P := fun e => e.nextId = c.nextId) rfl fun e he op hop => ?_
    obtain ⟨j, -, rfl⟩ := List.mem_map.mp hop
    exact he

theorem suppress_eq_self {test : Game → Bool}
    (h : ∀ id game, c.row id = some game → test game = true → Concealed c id game) :
    suppress c test = c := by
  have hmap : (c.games.entries.filter fun r => test r.2).map (RowOp.hide ·.1)
      = ((c.games.entries.filter fun r => test r.2).map Prod.fst).map RowOp.hide := by
    rw [List.map_map]
    rfl
  rw [suppress, hmap]
  refine applyAll_hide_eq_self fun id hid game hrow => ?_
  obtain ⟨r, hr, rfl⟩ := List.mem_map.mp hid
  obtain ⟨hmem, htest⟩ := List.mem_filter.mp hr
  have hr : c.row r.1 = some r.2 := (c.games.get?_eq_some_iff r.1 r.2).mpr hmem
  obtain rfl : game = r.2 := Option.some.inj (hrow.symm.trans hr)
  exact h r.1 r.2 hr htest

theorem hidden_eq_zero {test : Game → Bool}
    (h : ∀ id game, c.row id = some game → test game = true → game.isEligible = false) :
    hidden c test = 0 := by
  rw [hidden, List.length_eq_zero_iff, List.filter_eq_nil_iff]
  intro r hr hboth
  obtain ⟨heligible, htest⟩ := Bool.and_eq_true_iff.mp hboth
  have := h r.1 r.2 ((c.games.get?_eq_some_iff r.1 r.2).mpr hr) htest
  exact absurd (heligible.symm.trans this) (by simp)

theorem systemRows_nodup (c : Rows) (system : String) : (c.systemRows system).Nodup := by
  rw [Rows.systemRows]
  refine (List.perm_insertionSort _ _).nodup_iff.mpr (List.Nodup.filter _ ?_)
  exact List.Nodup.of_map Prod.fst c.games.keys_nodup

/-! ### A settled catalog -/

/-- What holds after a refresh. -/
structure Settled (run : Run) (c : Rows) : Prop where
  found : ∀ system scan, run.Scanned system scan → ∀ found ∈ scan.games, ∀ path,
    found.path = some path → ∃ id game, Only c system path id game ∧ Fits run system found game
  companions : ∀ system scan, run.Scanned system scan → ∀ path ∈ scan.consumed, ∀ id game,
    c.row id = some game → game.system = system → game.path = some path → game.isEligible = false
  rejected : run.live = true → ∀ system scan, run.Scanned system scan → ∀ path ∈ scan.ineligible,
    ∀ id game, c.row id = some game → game.system = system → game.path = some path →
      Concealed c id game
  deselected : ∀ id game, c.row id = some game → run.selects game.system = false →
    game.isEligible = false
  unmatched : run.live = true → ∀ id game, c.row id = some game → game.system ∈ run.unmatched →
    Concealed c id game
  stale : ∀ id game, c.row id = some game → run.stale game = true → Concealed c id game

namespace Settled

variable (h : run.Settled c)

include h

theorem start : run.start c = c := by
  have hdeselected : run.suppressDeselected c = c := by
    refine suppress_eq_self fun id game hrow htest => ?_
    obtain ⟨hselects, hlists⟩ := Bool.and_eq_true_iff.mp htest
    -- no system that is not selected is listed any more
    obtain ⟨r, hr, hboth⟩ := List.any_eq_true.mp hlists
    obtain ⟨heligible, hsystem⟩ := Bool.and_eq_true_iff.mp hboth
    have hfalse := h.deselected r.1 r.2 ((c.games.get?_eq_some_iff r.1 r.2).mpr hr)
      (by simpa [of_decide_eq_true hsystem] using hselects)
    exact absurd (heligible.symm.trans hfalse) (by simp)
  rw [Run.start, hdeselected, suppressUnmatched]
  split
  · next hlive =>
    refine suppress_eq_self fun id game hrow htest => ?_
    exact h.unmatched hlive id game hrow (of_decide_eq_true htest)
  · rfl

/-- The row of a found game is the only candidate for it. -/
theorem existing (hscan : run.Scanned system scan) (hfound : found ∈ scan.games)
    (hpath : found.path = some path) : ∃ r, candidates (c.systemRows system) path = [r]
      ∧ Catalog.existing c (c.systemRows system) scan path = some r
      ∧ run.changed found r.2 = false := by
  obtain ⟨id, game, ⟨hrow, hsystem, hat, honly⟩, hfits⟩ :=
    h.found system scan hscan found hfound path hpath
  have hmem : (id, game) ∈ candidates (c.systemRows system) path :=
    mem_candidates.mpr ⟨(Rows.mem_systemRows ..).mpr ⟨hrow, hsystem⟩, hat⟩
  have hall : ∀ r ∈ candidates (c.systemRows system) path, r = (id, game) := by
    intro r hr
    obtain ⟨hin, hrpath⟩ := mem_candidates.mp hr
    obtain ⟨hrrow, hrsystem⟩ := (Rows.mem_systemRows ..).mp hin
    have hid : r.1 = id := honly r.1 r.2 hrrow hrsystem hrpath
    rw [hid] at hrrow
    exact Prod.ext hid (Option.some.inj (hrrow.symm.trans hrow))
  have hsingle : candidates (c.systemRows system) path = [(id, game)] := by
    have hnodup : (candidates (c.systemRows system) path).Nodup :=
      (systemRows_nodup c system).filter _
    generalize candidates (c.systemRows system) path = rows at hmem hall hnodup
    match rows with
    | [] => exact absurd hmem List.not_mem_nil
    | [r] => rw [hall r List.mem_cons_self]
    | r :: r' :: rest =>
      have heq : r = r' := (hall r List.mem_cons_self).trans (hall r' (by simp)).symm
      exact absurd (heq ▸ List.mem_cons_self) (List.nodup_cons.mp hnodup).1
  refine ⟨(id, game), hsingle, ?_, hfits.unchanged⟩
  rw [Catalog.existing, hsingle]
  rfl

theorem pruneOps (hscan : run.Scanned system scan) : Catalog.Run.pruneOps c system scan = [] := by
  rw [Run.pruneOps, List.map_eq_nil_iff, List.filter_eq_nil_iff]
  rintro r hr hboth
  obtain ⟨heligible, hany⟩ := Bool.and_eq_true_iff.mp hboth
  obtain ⟨path, hpath, hconsumed⟩ := (Option.any_eq_true _ _).mp hany
  obtain ⟨hrow, hsystem⟩ := (Rows.mem_systemRows ..).mp hr
  have hfalse := h.companions system scan hscan path (of_decide_eq_true hconsumed) r.1 r.2 hrow
    hsystem hpath
  exact absurd (heligible.symm.trans hfalse) (by simp)

/-- A turn of the loop does nothing. -/
theorem turn (hscan : run.Scanned system scan) (hfound : found ∈ scan.games) (pass : Pass) :
    run.turn c system scan pass found = pass := by
  rw [Run.turn]
  split
  · rfl
  · next path hpath =>
    obtain ⟨r, hsingle, hrow, hunchanged⟩ := h.existing hscan hfound hpath
    rw [hrow, hsingle]
    simp [hunchanged]

theorem loop (hscan : run.Scanned system scan) :
    run.loop c system scan = ⟨[], [], [], [], [], []⟩ :=
  List.foldlRecOn (motive := fun pass : Pass => pass = ⟨[], [], [], [], [], []⟩) scan.games _ rfl
    fun pass hpass found hfound => by rw [h.turn hscan hfound, hpass]

theorem bodyOps (hscan : run.Scanned system scan) : run.bodyOps c system scan = [] := by
  rw [bodyOps_eq, h.pruneOps hscan, passOps, h.loop hscan]
  rfl

theorem systemPass (hmatched : system ∈ run.matched) (hstop : run.stop system = none) :
    run.systemPass c system = c := by
  cases hscan : run.scan system with
  | none => rw [Run.systemPass, hscan]
  | some scan =>
    have hscanned : run.Scanned system scan := ⟨hmatched, hscan⟩
    rw [systemPass_eq hscan hstop, h.bodyOps hscanned]
    show c.applyAll (run.rejectOps c system scan) = c
    rw [rejectOps]
    refine applyAll_hide_eq_self fun id hid game hrow => ?_
    obtain ⟨hlive, old, path, hold, hsystem, hpath, hin⟩ := mem_rejectedIds.mp hid
    obtain rfl : game = old := Option.some.inj (hrow.symm.trans hold)
    exact h.rejected hlive system scan hscanned path hin id game hrow hsystem hpath

theorem foldl_systemPass {systems : List String} (hsub : ∀ system ∈ systems, system ∈ run.matched)
    (hstop : ∀ system, run.stop system = none) : systems.foldl run.systemPass c = c :=
  List.foldlRecOn (motive := fun d : Rows => d = c) systems _ rfl
    fun d hd system hsystem => by rw [hd, h.systemPass (hsub system hsystem) (hstop system)]

theorem scanned (hstop : ∀ system, run.stop system = none) : run.scanned c = c := by
  rw [Run.scanned, h.start]
  exact h.foldl_systemPass (fun _ hsystem => hsystem) hstop

theorem reached (hstop : ∀ system, run.stop system = none) : run.reached c system = c := by
  rw [Run.reached, h.start]
  exact h.foldl_systemPass (fun _ hsystem => (List.takeWhile_sublist _).subset hsystem) hstop

/-- **The refresh of a settled catalog does nothing.** -/
theorem refresh (hstop : ∀ system, run.stop system = none) : run.refresh c = c := by
  rw [refresh_eq, h.scanned hstop]
  exact suppress_eq_self h.stale

theorem systemReport (hmatched : system ∈ run.matched) :
    run.systemReport c system = ⟨0, 0, 0⟩ := by
  rw [Run.systemReport]
  split
  · rfl
  · next scan hscan =>
    have hscanned : run.Scanned system scan := ⟨hmatched, hscan⟩
    have hadded : scan.games.filterMap (run.newGame c system scan) = [] := by
      refine List.filterMap_eq_nil_iff.mpr fun found hfound => ?_
      rw [Option.eq_none_iff_forall_ne_some]
      intro game hgame
      obtain ⟨path, hpath, hnone, -⟩ := newGame_eq_some.mp hgame
      obtain ⟨r, -, hrow, -⟩ := h.existing hscanned hfound hpath
      exact absurd (hrow.symm.trans hnone) (by simp)
    have hupdated : (scan.games.filter fun found => found.path.any fun path =>
        (Catalog.existing c (c.systemRows system) scan path).any
          fun r => run.changed found r.2) = [] := by
      refine List.filter_eq_nil_iff.mpr fun found hfound hany => ?_
      obtain ⟨path, hpath, hchanged⟩ := (Option.any_eq_true _ _).mp hany
      obtain ⟨r, -, hrow, hunchanged⟩ := h.existing hscanned hfound hpath
      rw [hrow, Option.any_some, hunchanged] at hchanged
      exact absurd hchanged (by simp)
    rw [hadded, hupdated, h.pruneOps hscanned, h.loop hscanned]
    rfl

/-- **And reports nothing.** -/
theorem report (hstop : ∀ system, run.stop system = none) : run.report c = ⟨0, 0, 0⟩ := by
  have hsystems : (run.matched.map fun system =>
      run.systemReport (run.reached c system) system).foldr Report.add ⟨0, 0, 0⟩ = ⟨0, 0, 0⟩ := by
    refine List.foldrRecOn (motive := fun r : Report => r = ⟨0, 0, 0⟩) _ _ rfl ?_
    rintro r rfl s hs
    obtain ⟨system, hmatched, rfl⟩ := List.mem_map.mp hs
    rw [h.reached hstop, h.systemReport hmatched]
    rfl
  have hdeselected : hidden c (fun game => !run.selects game.system) = 0 :=
    hidden_eq_zero fun id game hrow htest => h.deselected id game hrow (by simpa using htest)
  have hstale : hidden c run.stale = 0 :=
    hidden_eq_zero fun id game hrow htest => (h.stale id game hrow htest).1
  rw [Run.report, hsystems, h.scanned hstop, hdeselected, hstale]
  rfl

end Settled

/-! ### A refresh settles the catalog -/

/-- A row after some rows were hidden. -/
theorem row_of_suppress {test : Game → Bool} (h : (suppress c test).row id = some game) :
    ∃ g, c.row id = some g
      ∧ (test g = false ∧ game = g ∨ test g = true ∧ game = { g with isEligible := false }) := by
  rw [row_suppress] at h
  obtain ⟨g, hg, rfl⟩ := Option.map_eq_some_iff.mp h
  refine ⟨g, hg, ?_⟩
  split
  · next htest => exact .inr ⟨htest, rfl⟩
  · next htest => exact .inl ⟨by simpa using htest, rfl⟩

theorem suppress_row {test : Game → Bool} (h : c.row id = some game) (htest : test game = false) :
    (suppress c test).row id = some game := by
  rw [row_suppress, h, Option.map_some, if_neg (by simp [htest])]

theorem proxy_suppress_none {test : Game → Bool} (h : c.proxy id = none) :
    (suppress c test).proxy id = none := by
  rw [proxy_suppress, h]
  split <;> rfl

/-- The rows of a system after its transactions, the rejected paths left out. -/
def body (run : Run) (c : Rows) (system : String) (scan : Scan) : Rows :=
  (run.reached c system).applyAll (run.bodyOps (run.reached c system) system scan)

/-- **A row after the refresh**, and the one it was after the transactions of its system. -/
theorem row_of_refresh (hscan : run.Scanned system scan) (hstop : run.stop system = none)
    (h : (run.refresh c).row id = some game) (hsystem : game.system = system) :
    ∃ g, (run.body c system scan).row id = some g ∧ g.system = system ∧ g.path = game.path
      ∧ (game.isEligible = true → game = g)
      ∧ (id ∈ run.rejectedIds (run.body c system scan) system scan →
          Concealed (run.refresh c) id game) := by
  obtain ⟨-, -, hagree, hsame⟩ := @reached_spec run c system hscan.1
  obtain ⟨g₁, hscanned, hstale⟩ := row_of_suppress h
  have hsystem₁ : g₁.system = system := by
    rcases hstale with ⟨-, rfl⟩ | ⟨-, rfl⟩
    · exact hsystem
    · exact hsystem
  have hpass : (run.systemPass (run.reached c system) system).row id = some g₁ :=
    (hagree.row id g₁ hsystem₁).mp hscanned
  have hbelongs : Belongs (run.systemPass (run.reached c system) system) g₁.system id :=
    belongs_of_row hpass
  have hproxy := (hsame id (hsystem₁ ▸ hbelongs)).proxy
  rw [systemPass_eq hscan.2 hstop, rejectOps] at hpass hproxy
  rw [Rows.row_applyAll_hide] at hpass
  rw [Rows.proxy_applyAll_hide] at hproxy
  change (if id ∈ run.rejectedIds (run.body c system scan) system scan then _
    else (run.body c system scan).row id) = _ at hpass
  by_cases hrejected : id ∈ run.rejectedIds (run.body c system scan) system scan
  · rw [if_pos hrejected] at hpass
    obtain ⟨g, hg, rfl⟩ := Option.map_eq_some_iff.mp hpass
    have hineligible : game.isEligible = false := by
      rcases hstale with ⟨-, rfl⟩ | ⟨-, rfl⟩ <;> rfl
    refine ⟨g, hg, hsystem₁, ?_, fun heligible => ?_, fun _ => ⟨hineligible, ?_⟩⟩
    · rcases hstale with ⟨-, rfl⟩ | ⟨-, rfl⟩ <;> rfl
    · exact absurd (heligible.symm.trans hineligible) (by simp)
    · refine proxy_suppress_none (hproxy.trans ?_)
      exact if_pos hrejected
  · rw [if_neg hrejected] at hpass
    refine ⟨g₁, hpass, hsystem₁, ?_, fun heligible => ?_, fun h => absurd h hrejected⟩
    · rcases hstale with ⟨-, rfl⟩ | ⟨-, rfl⟩ <;> rfl
    · rcases hstale with ⟨-, rfl⟩ | ⟨-, rfl⟩
      · rfl
      · exact absurd heligible (by simp)

/-- A row that nothing hides is there after the refresh. -/
theorem refresh_row (hscan : run.Scanned system scan) (hstop : run.stop system = none)
    (h : (run.body c system scan).row id = some game) (hsystem : game.system = system)
    (hrejected : id ∉ run.rejectedIds (run.body c system scan) system scan)
    (hstale : run.stale game = false) : (run.refresh c).row id = some game := by
  obtain ⟨-, -, hagree, -⟩ := @reached_spec run c system hscan.1
  refine suppress_row ((hagree.row id game hsystem).mpr ?_) hstale
  rw [systemPass_eq hscan.2 hstop, rejectOps, Rows.row_applyAll_hide]
  exact (if_neg hrejected).trans h

/-- A row of a system that is not scanned was there before the first scan. -/
theorem start_of_refresh (h : (run.refresh c).row id = some game)
    (hout : game.system ∉ run.matched) :
    ∃ g, (run.start c).row id = some g ∧ g.system = game.system
      ∧ (g.isEligible = false → game.isEligible = false)
      ∧ ((run.start c).proxy id = none → (run.refresh c).proxy id = none) := by
  obtain ⟨g, hscanned, hstale⟩ := row_of_suppress h
  have hsystem : g.system = game.system := by
    rcases hstale with ⟨-, rfl⟩ | ⟨-, rfl⟩ <;> rfl
  have hstart : (run.start c).row id = some g :=
    (foldl_systemPass_other (hsystem ▸ hout) rfl).mp hscanned
  have hsame : Same (run.start c) (run.scanned c) id :=
    (@Belongs.foldl run _ _ _ (belongs_of_row hstart) _ (hsystem ▸ hout)).1
  refine ⟨g, hstart, hsystem, fun hineligible => ?_, fun hproxy => ?_⟩
  · rcases hstale with ⟨-, rfl⟩ | ⟨-, rfl⟩
    · exact hineligible
    · rfl
  · exact proxy_suppress_none (hsame.proxy.trans hproxy)

theorem current_of_unchanged (h : run.changed found game = false) : run.current game = true := by
  simp only [changed, Bool.or_eq_false_iff, Bool.not_eq_false'] at h
  exact h.1.2

theorem eligible_of_unchanged (h : run.changed found game = false) : game.isEligible = true := by
  simp only [changed, Bool.or_eq_false_iff, Bool.not_eq_false'] at h
  exact h.1.1.2

/-- **A refresh settles the catalog**, if no cue set lists a game that was found. -/
theorem settled_refresh (hclean : run.Clean)
    (hapart : ∀ system scan, run.Scanned system scan → Apart scan) :
    run.Settled (run.refresh c) where
  found system scan hscan found hfound path hpath := by
    have hstop := hclean.stop system
    obtain ⟨id, game, hrow, hfits⟩ :=
      @exists_row run (run.reached c system) system scan found path (hapart _ _ hscan) hfound hpath
    have hat : game.path = some path := hfits.path_eq.trans hpath
    have hrejected : id ∉ run.rejectedIds (run.body c system scan) system scan := by
      intro hid
      obtain ⟨-, old, path', hold, -, hpath', hin⟩ := mem_rejectedIds.mp hid
      obtain rfl : old = game := Option.some.inj (hold.symm.trans hrow)
      obtain rfl : path' = path := Option.some.inj (hpath'.symm.trans hat)
      exact scan.accepted found hfound path' hpath hin
    have hstale : run.stale game = false := by
      simp [stale, current_of_unchanged hfits.unchanged]
    refine ⟨id, game, ⟨refresh_row hscan hstop hrow hfits.system_eq hrejected hstale,
      hfits.system_eq, hat, ?_⟩, hfits⟩
    intro j other hother hsystem hpath'
    obtain ⟨g, hg, hgsystem, hgpath, -, -⟩ := row_of_refresh hscan hstop hother hsystem
    exact row_unique (hapart _ _ hscan) hfound hpath hg hrow hgsystem hfits.system_eq
      (hgpath.trans hpath') hat
  companions system scan hscan path hconsumed id game hrow hsystem hpath := by
    obtain ⟨g, hg, -, -, heq, -⟩ := row_of_refresh hscan (hclean.stop system) hrow hsystem
    by_contra heligible
    have heligible : game.isEligible = true := by simpa using heligible
    obtain rfl := heq heligible
    rcases row_body_cases (hapart _ _ hscan) hg with ⟨found, hfound, hfits, -⟩ | ⟨hold, hgone, -⟩
    · exact hapart _ _ hscan found hfound path (hfits.path_eq.symm.trans hpath) hconsumed
    · refine hgone (.inl ⟨game, (Rows.mem_systemRows ..).mpr ⟨hold, hsystem⟩, heligible, path,
        hconsumed, hpath⟩)
  rejected hlive system scan hscan path hin id game hrow hsystem hpath := by
    obtain ⟨g, hg, hgsystem, hgpath, -, hconcealed⟩ :=
      row_of_refresh hscan (hclean.stop system) hrow hsystem
    exact hconcealed (mem_rejectedIds.mpr ⟨hlive, g, path, hg, hgsystem, hgpath.trans hpath, hin⟩)
  deselected id game hrow hselects := by
    have hout : game.system ∉ run.matched := by
      intro hmatched
      exact absurd ((mem_matched.mp hmatched).2.2.symm.trans hselects) (by simp)
    obtain ⟨g, hstart, hsystem, hineligible, -⟩ := start_of_refresh hrow hout
    refine hineligible ?_
    have hfirst : ∀ g, (run.suppressDeselected c).row id = some g → run.selects g.system = false →
        g.isEligible = false := by
      intro g hg hgselects
      obtain ⟨old, hold, ⟨htest, rfl⟩ | ⟨-, rfl⟩⟩ := row_of_suppress hg
      · -- a system that is not listed has no eligible row
        simp only [hgselects, Bool.not_false, Bool.true_and] at htest
        by_contra heligible
        have hlists : lists c g.system = true := by
          refine List.any_eq_true.mpr ⟨(id, g), (c.games.get?_eq_some_iff id g).mp hold, ?_⟩
          simpa using heligible
        exact absurd (htest.symm.trans hlists) (by simp)
      · rfl
    rw [Run.start, suppressUnmatched] at hstart
    split at hstart
    · obtain ⟨old, hold, ⟨-, rfl⟩ | ⟨-, rfl⟩⟩ := row_of_suppress hstart
      · exact hfirst g hold (hsystem ▸ hselects)
      · rfl
    · exact hfirst g hstart (hsystem ▸ hselects)
  unmatched hlive id game hrow hunmatched := by
    have hout : game.system ∉ run.matched := by
      intro hmatched
      have hname := (mem_matched.mp hmatched).2.1
      simp [Run.unmatched, hname] at hunmatched
    obtain ⟨g, hstart, hsystem, hineligible, hproxy⟩ := start_of_refresh hrow hout
    rw [Run.start, suppressUnmatched, if_pos hlive] at hstart hproxy
    obtain ⟨old, hold, ⟨htest, rfl⟩ | ⟨htest, rfl⟩⟩ := row_of_suppress hstart
    · rw [hsystem] at htest
      exact absurd hunmatched (by simpa using htest)
    · refine ⟨hineligible rfl, hproxy ?_⟩
      rw [proxy_suppress, if_pos]
      rw [hold, Option.any_some]
      exact htest
  stale id game hrow hstale := by
    obtain ⟨g, hg, ⟨htest, rfl⟩ | ⟨htest, rfl⟩⟩ := row_of_suppress hrow
    · exact absurd (htest.symm.trans hstale) (by simp)
    · have hscanned : (run.scanned c).row id = some g := hg
      refine ⟨rfl, ?_⟩
      rw [refresh_eq, proxy_suppress, if_pos]
      rw [hscanned, Option.any_some]
      exact htest

/-! ### The next refresh -/

namespace Repeats

variable (hr : Repeats run run')

include hr

theorem selects : run'.selects system = run.selects system := by
  rw [Run.selects, Run.selects, hr.selectedSystems]

theorem matched : run'.matched = run.matched := by
  simp only [Run.matched, hr.remoteSystems, hr.registry, hr.selects]

theorem unmatched : run'.unmatched = run.unmatched := by
  simp only [Run.unmatched, hr.remoteSystems, hr.registry]

theorem live : run'.live = run.live := by rw [Run.live, Run.live, hr.registry]

theorem current : run'.current game = run.current game := by
  rw [Run.current, Run.current, hr.provider, hr.sourceRoot]

theorem changed {found' : Found} (htitle : found'.title = found.title)
    (hassets : found'.assets = found.assets) :
    run'.changed found' game = run.changed found game := by
  rw [Run.changed, Run.changed, hr.current, htitle, hassets]

/-- What was found is what had been found. -/
theorem scanned (hclean : run.Clean) {scan' : Scan} (h : run'.Scanned system scan') :
    ∃ scan, run.Scanned system scan
      ∧ scan'.games.map (fun found => (found.title, found.assets))
        = scan.games.map (fun found => (found.title, found.assets))
      ∧ scan'.ineligible = scan.ineligible := by
  have hmatched : system ∈ run.matched := hr.matched ▸ h.1
  obtain ⟨scan, hscan⟩ := Option.isSome_iff_exists.mp (hclean.scan system hmatched)
  obtain ⟨scan'', hscan'', hgames, hineligible, -⟩ := hr.scan system scan hscan
  obtain rfl : scan' = scan'' := Option.some.inj (h.2.symm.trans hscan'')
  exact ⟨scan, ⟨hmatched, hscan⟩, hgames, hineligible⟩

theorem stale (hclean : run.Clean) : run'.stale game = run.stale game := by
  have hcompleted : ∀ system, run'.completed system = run.completed system := by
    intro system
    rw [Run.completed, Run.completed, hr.stop, hclean.stop, hr.matched]
    by_cases hmatched : system ∈ run.matched
    · obtain ⟨scan, hscan⟩ := Option.isSome_iff_exists.mp (hclean.scan system hmatched)
      obtain ⟨scan', hscan', -⟩ := hr.scan system scan hscan
      rw [hscan, hscan']
      rfl
    · simp [hmatched]
  rw [Run.stale, Run.stale, hr.current, hr.selects, hcompleted, hr.remoteSystems]

/-- **What is settled stays so for the next refresh.** -/
theorem settled (hclean : run.Clean) (h : run.Settled c) : run'.Settled c where
  found system scan' hscan' found' hfound' path hpath := by
    obtain ⟨scan, hscan, hgames, -⟩ := hr.scanned hclean hscan'
    have hmem : (found'.title, found'.assets)
        ∈ scan.games.map (fun found => (found.title, found.assets)) :=
      hgames ▸ List.mem_map.mpr ⟨found', hfound', rfl⟩
    obtain ⟨found, hfound, heq⟩ := List.mem_map.mp hmem
    obtain ⟨htitle, hassets⟩ := Prod.mk.inj heq
    have hsame : found.path = found'.path := congrArg primaryPath hassets
    obtain ⟨id, game, honly, hfits⟩ :=
      h.found system scan hscan found hfound path (hsame.trans hpath)
    refine ⟨id, game, honly, hfits.system_eq, hfits.path_eq.trans hsame, ?_⟩
    rw [hr.changed htitle.symm hassets.symm]
    exact hfits.unchanged
  companions system scan' hscan' path hconsumed := by
    obtain ⟨scan, hscan, hgames, -⟩ := hr.scanned hclean hscan'
    refine h.companions system scan hscan path ?_
    have hflat : ∀ games : List Found, (games.flatMap fun found =>
        (found.assets.filter (!·.isPrimary)).map (·.relativePath))
        = (games.map fun found => (found.title, found.assets)).flatMap fun p =>
          (p.2.filter (!·.isPrimary)).map (·.relativePath) := by
      intro games
      rw [List.flatMap_map]
    rw [Scan.consumed, hflat, hgames, ← hflat] at hconsumed
    exact hconsumed
  rejected hlive system scan' hscan' path hin := by
    obtain ⟨scan, hscan, -, hineligible⟩ := hr.scanned hclean hscan'
    exact h.rejected (hr.live ▸ hlive) system scan hscan path (hineligible ▸ hin)
  deselected id game hrow hselects := h.deselected id game hrow (hr.selects ▸ hselects)
  unmatched hlive id game hrow hin :=
    h.unmatched (hr.live ▸ hlive) id game hrow (hr.unmatched ▸ hin)
  stale id game hrow hstale := h.stale id game hrow (hr.stale hclean ▸ hstale)

end Repeats

theorem repeats_self (hclean : run.Clean) : Repeats run run :=
  ⟨rfl, rfl, rfl, rfl, rfl, fun _ scan hscan => ⟨scan, hscan, rfl, rfl, rfl⟩, hclean.stop⟩

/-- What one system removes is reported. -/
theorem removed_le_report (h : system ∈ run.matched) :
    (run.systemReport (run.reached c system) system).removed ≤ (run.report c).removed := by
  have hfold : ∀ (reports : List Report) (r : Report), r ∈ reports →
      r.removed ≤ (reports.foldr Report.add ⟨0, 0, 0⟩).removed := by
    intro reports
    induction reports with
    | nil => exact fun r hr => absurd hr List.not_mem_nil
    | cons s rest ih =>
      intro r hr
      show r.removed ≤ s.removed + (rest.foldr Report.add ⟨0, 0, 0⟩).removed
      rcases List.mem_cons.mp hr with rfl | hr
      · omega
      · have := ih r hr
        omega
  have hsystem := hfold _ _ (List.mem_map.mpr ⟨system, h, rfl⟩ :
    run.systemReport (run.reached c system) system ∈ run.matched.map fun system =>
      run.systemReport (run.reached c system) system)
  show _ ≤ hidden c _ + _ + hidden (run.scanned c) run.stale
  omega

end Run

/-- **Convergence.**  A refresh without errors converges, if and only if no cue set lists a game
    that was found. -/
theorem converges_iff (run : Run) (c : Rows) (hclean : run.Clean) :
    run.Converges c ↔ ∀ system scan, run.Scanned system scan → Run.Apart scan := by
  constructor
  · intro h system scan hscan found hfound path hpath hconsumed
    obtain ⟨id, game, ⟨hrow, hsystem, hat, -⟩, heligible⟩ :=
      h.found system scan hscan found hfound path hpath
    obtain ⟨hreport, -⟩ := h.again run (Run.repeats_self hclean)
    -- the next refresh prunes the row of the game
    have hagree := (@Run.reached_spec run (run.refresh c) system hscan.1).1
    have hmem : (id, game) ∈ (run.reached (run.refresh c) system).systemRows system := by
      rw [hagree.systemRows]
      exact (Rows.mem_systemRows ..).mpr ⟨hrow, hsystem⟩
    have hpruned : Run.pruneOps (run.reached (run.refresh c) system) system scan ≠ [] := by
      refine List.ne_nil_of_mem (List.mem_map.mpr ⟨(id, game), List.mem_filter.mpr ⟨hmem, ?_⟩, rfl⟩)
      simp [heligible, hat, hconsumed]
    have hle := @Run.removed_le_report run (run.refresh c) system hscan.1
    rw [hreport, Run.systemReport, hscan.2] at hle
    have hpos := List.length_pos_of_ne_nil hpruned
    change (Run.pruneOps _ system scan).length + _ ≤ 0 at hle
    omega
  · intro hapart
    have hsettled := Run.settled_refresh (c := c) hclean hapart
    refine ⟨fun system scan hscan found hfound path hpath => ?_, ?_, ?_, fun run' hr => ?_⟩
    · obtain ⟨id, game, honly, hfits⟩ := hsettled.found system scan hscan found hfound path hpath
      exact ⟨id, game, honly, Run.eligible_of_unchanged hfits.unchanged⟩
    · exact fun system scan hscan path hconsumed _ =>
        hsettled.companions system scan hscan path hconsumed
    · exact (run.refresh c).unique
    · have hsettled' := hr.settled hclean hsettled
      exact ⟨hsettled'.report hr.stop, hsettled'.refresh hr.stop⟩

/-- A source with one system. -/
def discRun (scan : Scan) : Run where
  provider := "local"
  sourceRoot := "/roms"
  selectedSystems := none
  writesProxies := true
  registry := ⟨["psx"], false⟩
  remoteSystems := ["psx"]
  distinct := List.nodup_singleton _
  scan _ := some scan
  stop _ := none
  names _ found _ := found.title
  canonical _ _ := none

theorem clean_discRun (scan : Scan) : (discRun scan).Clean := ⟨fun _ _ => rfl, fun _ => rfl⟩

/-- A cue with its track. -/
def discGames : List Found :=
  [⟨"Game", [⟨"Game.cue", ["psx", "Game.cue"], true⟩, ⟨"Game.bin", ["psx", "Game.bin"], false⟩], 0⟩]

theorem discGames_nodup : (discGames.filterMap Found.path).Nodup := by decide

theorem discGames_converge :
    (discRun (.ofGames discGames discGames_nodup)).Converges Rows.empty := by
  refine (converges_iff (discRun (.ofGames discGames discGames_nodup)) Rows.empty
    (clean_discRun _)).mpr ?_
  rintro system scan ⟨-, hscan⟩
  obtain rfl : Scan.ofGames discGames discGames_nodup = scan := Option.some.inj hscan
  simp [Run.Apart, Scan.ofGames, discGames, Found.path, primaryPath, Scan.consumed]

/-- A cue that lists another one. -/
def nestedGames : List Found :=
  ⟨"Disc", [⟨"Disc.cue", ["psx", "Disc.cue"], true⟩, ⟨"Game.cue", ["psx", "Game.cue"], false⟩], 0⟩
    :: discGames

theorem nestedGames_nodup : (nestedGames.filterMap Found.path).Nodup := by decide

theorem nestedGames_flip : ¬ ((discRun (.ofGames nestedGames nestedGames_nodup)).Clean →
    (discRun (.ofGames nestedGames nestedGames_nodup)).Converges Rows.empty) := by
  intro h
  have hagain := ((h (clean_discRun _)).again _ (Run.repeats_self (clean_discRun _))).2
  generalize hrun : discRun (.ofGames nestedGames nestedGames_nodup) = run at hagain
  have hfirst : (run.refresh Rows.empty).games.keys = [0, 1] := by
    rw [← hrun]
    decide +kernel
  have hsecond : (run.refresh (run.refresh Rows.empty)).games.keys = [0] := by
    rw [← hrun]
    decide +kernel
  rw [hagain, hfirst] at hsecond
  exact absurd hsecond (by decide)

end RomCloud.Catalog
