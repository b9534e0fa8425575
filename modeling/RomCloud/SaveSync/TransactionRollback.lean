import RomCloud.SaveSync.Transaction

namespace RomCloud.SaveSync.Transaction

open RomCloud.Lib

/-!
# Rolling a transaction back

What makes a rollback safe, stated for one view and lifted to all views of a transaction.

* `AtCurrent`, `AtDesired` — a changed path holds what it did before the transaction, or what
  the transaction put there;
* `Restorable` — every changed path is at one of the two, and those that are not back yet have
  their old content in the candidate;
* `Uncrossed` — no changed path lies under another one.

`rollback_firm` is the result: from a restorable state a rollback brings every changed path back
to its old content, fails only when the environment makes it fail, and keeps the state
restorable wherever it is stopped.  It never finds a third version of its own accord.
-/

/-! ### One path -/

/-- The live tree holds at the path what it did before the transaction. -/
def AtCurrent (v : JournalView) (live : Tree) (p : Path) : Prop :=
  pathMatches (live.get? p) (v.current.get? p) = true

/-- The live tree holds at the path what the transaction wants there. -/
def AtDesired (v : JournalView) (live : Tree) (p : Path) : Prop :=
  pathMatches (live.get? p) (v.desired.get? p) = true

/-- The candidate holds the old content of the path, when there was one. -/
def Backed (v : JournalView) (candidate : Tree) (p : Path) : Prop :=
  ∀ a, v.current.get? p = some a → candidate.Open p ∧ verifyOne (candidate.get? p) a = true

theorem mem_changedPaths_iff (current desired : Manifest) (p : Path) :
    p ∈ changedPaths current desired ↔ sameContent (current.get? p) (desired.get? p) = false := by
  simp only [changedPaths, List.mem_filter, mem_sortedSet, List.mem_append, Bool.not_eq_true',
    Manifest.mem_paths_iff]
  constructor
  · exact fun h => h.2
  · intro h
    refine ⟨?_, h⟩
    cases hc : current.get? p with
    | some a => exact Or.inl ⟨a, rfl⟩
    | none =>
      cases hd : desired.get? p with
      | some a => exact Or.inr ⟨a, rfl⟩
      | none =>
        rw [hc, hd] at h
        exact absurd h (by simp [sameContent])

/-- What matches one node has one content. -/
theorem sameContent_of_pathMatches {node : Option (Node Content)}
    {left right : Option SaveArtifact} (hl : pathMatches node left = true)
    (hr : pathMatches node right = true) : sameContent left right = true := by
  cases left with
  | none =>
    cases right with
    | none => rfl
    | some r =>
      rw [show node = none by simpa [pathMatches] using hl] at hr
      exact absurd hr (by simp [pathMatches, verifyOne])
  | some l =>
    cases node with
    | none => exact absurd hl (by simp [pathMatches, verifyOne])
    | some node =>
      cases node with
      | directory => exact absurd hl (by simp [pathMatches, verifyOne])
      | other => exact absurd hl (by simp [pathMatches, verifyOne])
      | file content =>
        cases right with
        | none => exact absurd hr (by simp [pathMatches])
        | some r =>
          simp only [pathMatches, verifyOne, Bool.and_eq_true, decide_eq_true_eq] at hl hr
          simp [sameContent, ← hl.1, ← hl.2, hr.1, hr.2]

/-- A changed path is not at both ends of its change. -/
theorem not_atCurrent_and_atDesired {v : JournalView} {live : Tree} {p : Path}
    (hp : p ∈ v.changed) (hc : AtCurrent v live p) : ¬ AtDesired v live p := by
  intro hd
  have hdiff := (mem_changedPaths_iff v.current v.desired p).mp hp
  rw [sameContent_of_pathMatches hc hd] at hdiff
  exact absurd hdiff (by simp)

theorem ne_directory_of_pathMatches {node : Option (Node Content)} {artifact : Option SaveArtifact}
    (h : pathMatches node artifact = true) : node ≠ some .directory := by
  rintro rfl
  cases artifact with
  | none => exact absurd h (by simp [pathMatches])
  | some a => exact absurd h (by simp [pathMatches, verifyOne])

/-! ### One view -/

/-- No changed path lies under another one. -/
def Uncrossed (v : JournalView) : Prop :=
  ∀ p ∈ v.changed, ∀ q ∈ v.changed, p ∉ ancestors q

/-- The manifests of the view mention changed paths only. -/
def Cropped (v : JournalView) : Prop :=
  ∀ p, v.current.get? p ≠ none → p ∈ v.changed

/-- Every changed path can be reached through directories. -/
def Reachable (v : JournalView) (live : Tree) : Prop :=
  ∀ p ∈ v.changed, live.Open p

/-- **Restorable views.** Every changed path is where it was, or where the transaction put it
    with the old content at hand. -/
structure Restorable (v : JournalView) (area : Area) : Prop where
  reachable : Reachable v area.live
  placed : ∀ p ∈ v.changed, AtCurrent v area.live p
    ∨ AtDesired v area.live p ∧ Backed v (area.candidate.getD ∅) p

/-- Every changed path is where it was. -/
def AllCurrent (v : JournalView) (live : Tree) : Prop :=
  ∀ p ∈ v.changed, AtCurrent v live p

/-- Every changed path is where the transaction wants it. -/
def AllDesired (v : JournalView) (live : Tree) : Prop :=
  ∀ p ∈ v.changed, AtDesired v live p

theorem AllCurrent.restorable {v : JournalView} {area : Area} (h : AllCurrent v area.live)
    (hr : Reachable v area.live) : Restorable v area :=
  ⟨hr, fun p hp => Or.inl (h p hp)⟩

theorem Restorable.ne_directory {v : JournalView} {area : Area} (h : Restorable v area) {p : Path}
    (hp : p ∈ v.changed) : area.live.get? p ≠ some .directory := by
  rcases h.placed p hp with hc | ⟨hd, -⟩
  · exact ne_directory_of_pathMatches hc
  · exact ne_directory_of_pathMatches hd

/-- A view that is back passes the verification of its old manifest. -/
theorem verifyManifest_of_allCurrent {v : JournalView} (hcrop : Cropped v) {live : Tree}
    (hr : Reachable v live) (h : AllCurrent v live) :
    verifyManifest live v.current = .ok () := by
  have hopen : v.current.paths.all (fun p => decide (live.Open p)) = true := by
    refine List.all_eq_true.mpr fun p hp => decide_eq_true (hr p (hcrop p ?_))
    obtain ⟨a, ha⟩ := (v.current.mem_paths_iff p).mp hp
    simp [ha]
  have hverify : v.current.artifacts.all
      (fun a => verifyOne (live.get? a.relativePath) a) = true := by
    refine List.all_eq_true.mpr fun a ha => ?_
    have hget := v.current.get?_of_mem_artifacts ha
    have hat := h a.relativePath (hcrop _ (by simp [hget]))
    unfold AtCurrent at hat
    rwa [hget] at hat
  rw [verifyManifest, hopen, hverify]
  rfl

/-- The restoration went on from `before`: the candidate is untouched, and every changed path is
    as it was then or back to its old content. -/
structure Restoring (v : JournalView) (before after : Local) : Prop where
  candidate : after.area.candidate = before.area.candidate
  memory : after.memory = before.memory
  reachable : Reachable v after.area.live
  placed : ∀ p ∈ v.changed, after.area.live.get? p = before.area.live.get? p
    ∨ AtCurrent v after.area.live p

namespace Restoring

variable {v : JournalView} {l₀ l₁ l₂ : Local}

theorem refl (h : Reachable v l₀.area.live) : Restoring v l₀ l₀ :=
  ⟨rfl, rfl, h, fun _ _ => Or.inl rfl⟩

theorem keeps_atCurrent (h : Restoring v l₀ l₁) {p : Path} (hp : p ∈ v.changed)
    (hc : AtCurrent v l₀.area.live p) : AtCurrent v l₁.area.live p := by
  rcases h.placed p hp with heq | hc'
  · unfold AtCurrent at hc ⊢
    rwa [heq]
  · exact hc'

theorem trans (h : Restoring v l₀ l₁) (h' : Restoring v l₁ l₂) : Restoring v l₀ l₂ := by
  refine ⟨h'.candidate.trans h.candidate, h'.memory.trans h.memory, h'.reachable, ?_⟩
  intro p hp
  rcases h'.placed p hp with heq | hc
  · rcases h.placed p hp with heq' | hc'
    · exact Or.inl (heq.trans heq')
    · exact Or.inr (h'.keeps_atCurrent hp hc')
  · exact Or.inr hc

theorem restorable (h : Restoring v l₀ l₁) (h₀ : Restorable v l₀.area) :
    Restorable v l₁.area := by
  refine ⟨h.reachable, ?_⟩
  intro p hp
  rcases h.placed p hp with heq | hc
  · rw [h.candidate]
    unfold AtCurrent AtDesired
    rw [heq]
    exact h₀.placed p hp
  · exact Or.inl hc

end Restoring

/-! ### Planning -/

/-- The sites of a rollback and of a recovery. -/
def recoverySite (site : TxSite) : Prop :=
  site = .restore ∨ site = .probe ∨ site = .cleanup ∨ site = .recover

variable {env : Env TxSite Interruption}

/-- A check that succeeds wherever it is made leaves everything as it is. -/
theorem check_firm {R P : Local → Prop} {site : TxSite} (hsite : recoverySite site)
    {verdict : Area → Except TxError Unit} (hR : ∀ l, P l → R l)
    (hok : ∀ l, P l → verdict l.area = .ok ()) :
    Firm env recoverySite R P (check site verdict) (fun _ => P) := by
  refine Firm.step hsite hR ?_
  intro l hl
  refine ⟨(), l, ?_, hl⟩
  simp only [hok l hl, Except.map]

/-- A step on the area of a view that succeeds wherever it is made. -/
theorem onArea_firm {α : Type} {R P : Local → Prop} {Q : α → Local → Prop} {site : TxSite}
    (hsite : recoverySite site) {act : Area → Except TxError (α × Area)} (hR : ∀ l, P l → R l)
    (hact : ∀ l, P l → ∃ a area, act l.area = .ok (a, area) ∧ Q a { l with area := area }) :
    Firm env recoverySite R P (onArea site act) Q := by
  refine Firm.step hsite hR ?_
  intro l hl
  obtain ⟨a, area, hok, hq⟩ := hact l hl
  refine ⟨a, _, ?_, hq⟩
  rw [hok]

/-- A probe tells the truth, or says "no" where the environment raises. -/
theorem probePath_firm (l₀ : Local) (p : Path) (artifact : Option SaveArtifact) :
    Firm env recoverySite (fun l => l = l₀) (fun l => l = l₀) (probePath p artifact)
      (fun b l => l = l₀ ∧ (b = pathMatches (l₀.area.live.get? p) artifact
        ∨ b = false ∧ env.Raises recoverySite)) := by
  have hlook : Firm env recoverySite (fun l => l = l₀) (fun l => l = l₀)
      (onArea .probe (fun area => .ok (pathMatches (area.live.get? p) artifact, area)))
      (fun b l => l = l₀ ∧ (b = pathMatches (l₀.area.live.get? p) artifact
        ∨ b = false ∧ env.Raises recoverySite)) := by
    refine onArea_firm (Or.inr (Or.inl rfl)) (fun l hl => hl) ?_
    intro l hl
    subst hl
    exact ⟨_, _, rfl, rfl, Or.inl rfl⟩
  unfold probePath
  cases artifact with
  | none => exact hlook
  | some a =>
    refine Triple.tryCatch hlook fun e => ?_
    split
    · exact Triple.pure false fun l hl => ⟨hl.1, Or.inr ⟨rfl, hl.2⟩⟩
    · exact Triple.throw e fun l hl => hl

/-- What a plan says about a changed path: nothing when it is back already, and otherwise what
    to restore, with the old content at hand. -/
def Planned (v : JournalView) (area : Area) (p : Path) : Option RestoreAction → Prop
  | none => AtCurrent v area.live p
  | some action => action.relative = p ∧ action.original = v.current.get? p
      ∧ Backed v (area.candidate.getD ∅) p

theorem planPath_firm {v : JournalView} {l₀ : Local} (h : Restorable v l₀.area) {p : Path}
    (hp : p ∈ v.changed) :
    Firm env recoverySite (fun l => l = l₀) (fun l => l = l₀) (planPath v p)
      (fun planned l => l = l₀ ∧ Planned v l₀.area p planned) := by
  unfold planPath
  refine Triple.bind (check_firm (Or.inl rfl) (fun l hl => hl) ?_) fun _ => ?_
  · intro l hl
    rw [hl, safeTarget, if_pos (h.reachable p hp)]
  refine Triple.bind (probePath_firm l₀ p _) fun matchesOriginal => ?_
  refine Triple.ofState ?_
  rintro l ⟨rfl, horiginal⟩
  refine Triple.bind (probePath_firm l p _) fun matchesDesired => ?_
  refine Triple.ofState ?_
  rintro l' ⟨rfl, hdesired⟩
  by_cases hmo : matchesOriginal = true
  · rw [if_pos hmo]
    refine Triple.pure none fun s hs => ⟨hs, ?_⟩
    rcases horiginal with heq | ⟨heq, -⟩
    · exact heq.symm.trans hmo
    · exact absurd (hmo.symm.trans heq) (by simp)
  · rw [if_neg hmo]
    cases hmd : matchesDesired with
    | false =>
      -- neither: the environment must have spoiled a probe
      refine Firm.throw (fun s hs => hs) fun s hs => ?_
      rcases horiginal with ho | ⟨-, hr⟩
      · rcases hdesired with hd | ⟨-, hr⟩
        · rcases h.placed p hp with hc | ⟨hc, -⟩
          · exact absurd (ho.trans hc) hmo
          · exact absurd ((hmd.symm.trans hd).trans hc) (by simp)
        · exact hr
      · exact hr
    | true =>
      have hat : AtDesired v l'.area.live p := by
        rcases hdesired with hd | ⟨hd, -⟩
        · exact hd.symm.trans hmd
        · exact absurd (hmd.symm.trans hd) (by simp)
      have hbacked : Backed v (l'.area.candidate.getD ∅) p := by
        rcases h.placed p hp with hc | ⟨-, hb⟩
        · exact absurd hat (not_atCurrent_and_atDesired hp hc)
        · exact hb
      rw [if_neg (by simp)]
      cases hcur : v.current.get? p with
      | none =>
        exact Triple.pure _ fun s hs => ⟨hs, rfl, hcur.symm, hbacked⟩
      | some original =>
        obtain ⟨hopen, hverify⟩ := hbacked original hcur
        refine Triple.bind (check_firm (Or.inl rfl) (fun l hl => hl) ?_) fun _ => ?_
        · intro s hs
          rw [hs, safeTarget, if_pos hopen]
        refine Triple.bind (check_firm (Or.inl rfl) (fun l hl => hl) ?_) fun _ => ?_
        · intro s hs
          rw [hs, if_pos hverify]
        exact Triple.pure _ fun s hs => ⟨hs, rfl, hcur.symm, hbacked⟩

/-- A plan for a view: every action is planned for its changed path, and every changed path
    that is not back already has an action. -/
structure IsPlan (v : JournalView) (area : Area) (actions : List RestoreAction) : Prop where
  sound : ∀ action ∈ actions, action.relative ∈ v.changed
    ∧ Planned v area action.relative (some action)
  complete : ∀ p ∈ v.changed, AtCurrent v area.live p ∨ ∃ action ∈ actions, action.relative = p

theorem planRestore_firm {v : JournalView} {l₀ : Local} (h : Restorable v l₀.area) :
    Firm env recoverySite (fun l => l = l₀) (fun l => l = l₀) (planRestore v)
      (fun actions l => l = l₀ ∧ IsPlan v l₀.area actions) := by
  unfold planRestore
  refine Triple.bind (Triple.collect_forall₂ (Planned v l₀.area)
    fun p hp => planPath_firm h hp) fun results => ?_
  refine Triple.pure _ fun l hl => ⟨hl.1, ?_, ?_⟩
  · intro action haction
    obtain ⟨planned, hplanned, rfl⟩ := List.mem_filterMap.mp haction
    obtain ⟨p, hp, hrel⟩ : ∃ p ∈ v.changed, Planned v l₀.area p (some action) := by
      have hflip := hl.2.flip
      obtain ⟨i, hi, hget⟩ := List.mem_iff_getElem.mp hplanned
      have hlen := hl.2.length_eq
      refine ⟨v.changed[i], List.getElem_mem _, ?_⟩
      have := (List.forall₂_iff_get.mp hl.2).2 i (by omega) hi
      simpa [hget] using this
    have hrel' : action.relative = p := hrel.1
    rw [hrel']
    exact ⟨hp, hrel⟩
  · intro p hp
    obtain ⟨i, hi, hget⟩ := List.mem_iff_getElem.mp hp
    have hlen := hl.2.length_eq
    have hrel := (List.forall₂_iff_get.mp hl.2).2 i hi (by omega)
    cases hres : results[i] with
    | none =>
      simp only [List.get_eq_getElem, hget, hres] at hrel
      exact Or.inl hrel
    | some action =>
      simp only [List.get_eq_getElem, hget, hres] at hrel
      refine Or.inr ⟨action, List.mem_filterMap.mpr ⟨some action, ?_, rfl⟩, hrel.1⟩
      rw [← hres]
      exact List.getElem_mem _

/-! ### Restoring -/

/-- A change of the live tree at one changed path only: the restoration goes on. -/
theorem Restoring.of_change {v : JournalView} {l₀ l : Local} (hsep : Uncrossed v)
    (hr : Reachable v l₀.area.live) {p : Path} (hp : p ∈ v.changed)
    (hcand : l.area.candidate = l₀.area.candidate) (hmem : l.memory = l₀.memory)
    (hoff : ∀ q, q ≠ p → l.area.live.get? q = l₀.area.live.get? q)
    (hat : AtCurrent v l.area.live p) : Restoring v l₀ l := by
  refine ⟨hcand, hmem, ?_, ?_⟩
  · intro q hq
    exact (hr q hq).of_eq_off hoff (hsep p hp q hq)
  · intro q _
    by_cases hqp : q = p
    · rw [hqp]
      exact Or.inr hat
    · exact Or.inl (hoff q hqp)

/-- Making the parents of a changed path leaves every changed path as it is. -/
theorem ensureParents_firm {v : JournalView} (hsep : Uncrossed v) {l₀ : Local}
    (hr : Reachable v l₀.area.live) {p : Path} (hp : p ∈ v.changed) :
    Firm env recoverySite (Restoring v l₀) (fun l => l = l₀) (ensureParents .restore p)
      (fun _ l => Restoring v l₀ l ∧ l.area.live.HasParents p
        ∧ ∀ q ∈ v.changed, l.area.live.get? q = l₀.area.live.get? q) := by
  unfold ensureParents
  refine (Triple.forEach (fun done l => Restoring v l₀ l
    ∧ (∀ dir ∈ done, l.area.live.get? dir = some .directory)
    ∧ ∀ q ∈ v.changed, l.area.live.get? q = l₀.area.live.get? q) ?_).weaken ?_ ?_
    (fun _ _ h => h) (fun _ h => h)
  · intro done dir rest hanc
    refine onArea_firm (Or.inl rfl) (fun l hl => hl.1) ?_
    intro l hl
    obtain ⟨hrest, hdone, hsame⟩ := hl
    have hdir : dir ∈ ancestors p := by
      rw [hanc]
      exact List.mem_append_right _ List.mem_cons_self
    obtain ⟨live, hmk⟩ := FileTree.mkdir_of_open (hrest.reachable p hp dir hdir)
    have hne : ∀ q ∈ v.changed, q ≠ dir := fun q hq heq => hsep q hq p hp (heq ▸ hdir)
    refine ⟨(), { l.area with live := live }, by rw [hmk], ⟨hrest.candidate, hrest.memory, ?_, ?_⟩,
      ?_, ?_⟩
    · exact fun q hq => (hrest.reachable q hq).mkdir hmk
    · intro q hq
      refine Or.inl ?_
      rw [FileTree.get?_mkdir hmk, if_neg (hne q hq), hsame q hq]
    · intro d hd
      rw [FileTree.get?_mkdir hmk]
      split
      · rfl
      · next hd' =>
        rcases List.mem_append.mp hd with hd | hd
        · exact hdone d hd
        · exact absurd (List.mem_singleton.mp hd) hd'
    · intro q hq
      rw [FileTree.get?_mkdir hmk, if_neg (hne q hq), hsame q hq]
  · rintro l rfl
    exact ⟨Restoring.refl hr, by simp, fun _ _ => rfl⟩
  · exact fun _ l hl => hl

/-- What the live tree and the candidate do not show does not matter to a restoration. -/
theorem Restoring.congr {v : JournalView} {l₀ l l' : Local} (h : Restoring v l₀ l)
    (hcand : l'.area.candidate = l.area.candidate) (hlive : l'.area.live = l.area.live)
    (hmem : l'.memory = l.memory) : Restoring v l₀ l' := by
  refine ⟨hcand.trans h.candidate, hmem.trans h.memory, ?_, ?_⟩
  · rw [hlive]
    exact h.reachable
  · rw [hlive]
    exact h.placed

/-- The restoration of one file, from a candidate that holds it: in the end the path is back,
    and until then the live tree does not change. -/
theorem restoreFile_firm {v : JournalView} (hsep : Uncrossed v) {l₀ : Local}
    (hr : Reachable v l₀.area.live) {p : Path} (hp : p ∈ v.changed) {original : SaveArtifact}
    (hcur : v.current.get? p = some original) (hback : Backed v (l₀.area.candidate.getD ∅) p)
    (hdir : l₀.area.live.get? p ≠ some .directory) (hpar : l₀.area.live.HasParents p) :
    Firm env recoverySite (Restoring v l₀) (fun l => l = l₀) (restoreFile p original)
      (fun _ l => Restoring v l₀ l ∧ AtCurrent v l.area.live p) := by
  obtain ⟨hopen, hverify⟩ := hback original hcur
  -- what the candidate holds is a file with the original content
  obtain ⟨content, hcontent⟩ : ∃ content,
      (l₀.area.candidate.getD ∅).get? p = some (.file content) := by
    revert hverify
    cases (l₀.area.candidate.getD ∅).get? p with
    | none => simp [verifyOne]
    | some node => cases node <;> simp [verifyOne]
  rw [hcontent] at hverify
  -- before the replacement only the temporary differs from the start
  let Still : Local → Prop := fun l => l.area.candidate = l₀.area.candidate
    ∧ l.area.live = l₀.area.live ∧ l.memory = l₀.memory
  have hstill : ∀ l, Still l → Restoring v l₀ l :=
    fun l hl => (Restoring.refl hr).congr hl.1 hl.2.1 hl.2.2
  have hcheck : Firm env recoverySite (Restoring v l₀) (fun l => l = l₀)
      (check .restore (fun area => safeTarget (area.candidate.getD ∅) p)) (fun _ => Still) := by
    refine (check_firm (Or.inl rfl) ?_ ?_).post ?_
    · rintro l rfl
      exact hstill l ⟨rfl, rfl, rfl⟩
    · rintro l rfl
      rw [safeTarget, if_pos hopen]
    · rintro _ l rfl
      exact ⟨rfl, rfl, rfl⟩
  unfold restoreFile
  refine Triple.bind hcheck fun _ => Triple.tryFinallyWith
    (fun _ l => Restoring v l₀ l ∧ AtCurrent v l.area.live p)
    (fun _ l => Restoring v l₀ l ∧ env.Raises recoverySite) ?_ (fun _ => ?_) (fun e => ?_)
  · -- the temporary is truncated, filled and checked, and takes the place of the file
    refine Triple.cut (fun _ => Still) ?_ fun _ => Triple.cut
      (fun _ l => Still l ∧ l.area.restoreTmp.get? p = some content) ?_ fun _ => ?_
    · refine onArea_firm (Or.inl rfl) hstill ?_
      intro l hl
      exact ⟨_, _, rfl, hl⟩
    · refine onArea_firm (Or.inl rfl) hstill ?_
      intro l hl
      have hfile : (l.area.candidate.getD ∅).get? p = some (.file content) := by
        rw [hl.1]
        exact hcontent
      rw [hfile]
      exact ⟨_, _, rfl, hl, by simp⟩
    refine Triple.bind (check_firm (Or.inl rfl) (fun l hl => hstill l hl.1) ?_) fun _ => ?_
    · intro l hl
      rw [hl.2, Option.map_some, if_pos hverify]
    refine Triple.bind (check_firm (Or.inl rfl) (fun l hl => hstill l hl.1)
      (fun _ _ => rfl)) fun _ => ?_
    refine onArea_firm (Or.inl rfl) (fun l hl => hstill l hl.1) ?_
    rintro l ⟨⟨hc, hl, hm⟩, htmp⟩
    have hplace := FileTree.place_of_hasParents content hdir hpar
    have hat : AtCurrent v (l₀.area.live.insert p (.file content)) p := by
      unfold AtCurrent
      rw [Dict.get?_insert, if_pos rfl, hcur]
      exact hverify
    simp only [htmp, hl, hplace]
    refine ⟨_, _, rfl, Restoring.of_change hsep hr hp hc hm ?_ hat, hat⟩
    intro q hq
    show (l₀.area.live.insert p (.file content)).get? q = _
    rw [Dict.get?_insert, if_neg hq]
  · refine onArea_firm (Or.inl rfl) (fun l hl => hl.1) ?_
    intro l hl
    exact ⟨_, _, rfl, hl.1.congr rfl rfl rfl, hl.2⟩
  · refine onArea_firm (Or.inl rfl) (fun l hl => hl.1) ?_
    intro l hl
    exact ⟨_, _, rfl, hl.1.congr rfl rfl rfl, hl.2⟩

/-- One action of a plan: in the end its path is back. -/
theorem restorePath_firm {v : JournalView} (hsep : Uncrossed v) {l₀ : Local}
    (h : Restorable v l₀.area) {action : RestoreAction} (hp : action.relative ∈ v.changed)
    (hcur : action.original = v.current.get? action.relative)
    (hback : Backed v (l₀.area.candidate.getD ∅) action.relative) :
    Firm env recoverySite (Restoring v l₀) (fun l => l = l₀) (restorePath action)
      (fun _ l => Restoring v l₀ l ∧ AtCurrent v l.area.live action.relative) := by
  unfold restorePath
  refine Triple.bind (ensureParents_firm hsep h.reachable hp) fun _ => ?_
  refine Triple.ofState ?_
  rintro l₁ ⟨hrest, hpar, hsame⟩
  have hdir : l₁.area.live.get? action.relative ≠ some .directory := by
    rw [hsame _ hp]
    exact h.ne_directory hp
  cases horig : action.original with
  | none =>
    refine onArea_firm (Or.inl rfl) (fun l hl => hl ▸ hrest) ?_
    rintro l rfl
    have hat : AtCurrent v (l.area.live.erase action.relative) action.relative := by
      unfold AtCurrent
      rw [Dict.get?_erase, if_pos rfl, ← hcur, horig]
      rfl
    rw [FileTree.unlink_of_ne_directory hdir]
    refine ⟨_, _, rfl, hrest.trans (Restoring.of_change hsep hrest.reachable hp rfl rfl ?_ hat),
      hat⟩
    intro q hq
    show (l.area.live.erase action.relative).get? q = _
    rw [Dict.get?_erase, if_neg hq]
  | some original =>
    refine (restoreFile_firm hsep hrest.reachable hp (hcur.symm.trans horig) ?_ hdir hpar).weaken
      (fun _ hl => hl) ?_ ?_ ?_
    · rw [hrest.candidate]
      exact hback
    · exact fun _ l hl => ⟨hrest.trans hl.1, hl.2⟩
    · exact fun _ l hl => ⟨hrest.trans hl.1, hl.2⟩
    · exact fun l hl => hrest.trans hl

/-- **Restoring a view.** A plan for a restorable view, carried out, brings every changed path
    back. -/
theorem restoreView_firm {v : JournalView} (hsep : Uncrossed v) (hcrop : Cropped v) {l₀ : Local}
    (h : Restorable v l₀.area) {actions : List RestoreAction} (hplan : IsPlan v l₀.area actions) :
    Firm env recoverySite (Restoring v l₀) (fun l => l = l₀) (restoreView v actions)
      (fun _ l => Restoring v l₀ l ∧ AllCurrent v l.area.live) := by
  have hloop : Firm env recoverySite (Restoring v l₀) (fun l => l = l₀)
      (Prog.forEach restorePath actions)
      (fun _ l => Restoring v l₀ l ∧ AllCurrent v l.area.live) := by
    refine (Triple.forEach (fun done l => Restoring v l₀ l
      ∧ ∀ action ∈ done, AtCurrent v l.area.live action.relative) ?_).weaken ?_ ?_
      (fun _ _ h => h) (fun _ h => h)
    · intro done action rest hactions
      refine Triple.ofState ?_
      rintro l₁ ⟨hrest, hdone⟩
      have hmem : action ∈ actions := by
        rw [hactions]
        exact List.mem_append_right _ List.mem_cons_self
      obtain ⟨hp, -, hcur, hback⟩ := hplan.sound action hmem
      refine (restorePath_firm hsep (hrest.restorable h) hp hcur ?_).weaken
        (fun _ hl => hl) ?_ ?_ ?_
      · rw [hrest.candidate]
        exact hback
      · rintro _ l ⟨hl, hat⟩
        refine ⟨hrest.trans hl, ?_⟩
        intro other hother
        rcases List.mem_append.mp hother with hother | hother
        · have hin : other ∈ actions := by
            rw [hactions]
            exact List.mem_append_left _ hother
          exact hl.keeps_atCurrent (hplan.sound other hin).1 (hdone other hother)
        · rw [List.mem_singleton.mp hother]
          exact hat
      · exact fun _ l hl => ⟨hrest.trans hl.1, hl.2⟩
      · exact fun l hl => hrest.trans hl
    · rintro l rfl
      exact ⟨Restoring.refl h.reachable, by simp⟩
    · rintro _ l ⟨hrest, hdone⟩
      refine ⟨hrest, ?_⟩
      intro p hp
      rcases hplan.complete p hp with hat | ⟨action, haction, rfl⟩
      · exact hrest.keeps_atCurrent hp hat
      · exact hdone action haction
  unfold restoreView
  refine Triple.bind hloop fun _ => ?_
  refine Triple.bind (check_firm (Or.inl rfl) (fun l hl => hl.1) ?_) fun _ => ?_
  · rintro l ⟨hrest, hall⟩
    exact verifyManifest_of_allCurrent hcrop hrest.reachable hall
  refine Triple.bind (Triple.forEach_keep fun p hp => ?_) fun _ => ?_
  · refine Triple.bind (check_firm (Or.inl rfl) (fun l hl => hl.1) ?_) fun _ => ?_
    · intro l hl
      rw [safeTarget, if_pos (hl.1.reachable p hp)]
    refine Triple.ofState ?_
    intro l₁ hl₁
    refine Triple.bind ((probePath_firm l₁ p _).weaken (fun _ hl => hl) (fun _ _ hl => hl)
      (fun _ l hl => ⟨hl.1 ▸ hl₁.1, hl.2⟩) (fun l hl => hl ▸ hl₁.1)) fun restored => ?_
    refine Triple.ofState ?_
    rintro l ⟨rfl, htrue⟩
    by_cases hres : restored = true
    · rw [if_pos hres]
      exact Triple.pure () fun l hl => hl ▸ hl₁
    · rw [if_neg hres]
      refine Firm.throw (fun l hl => hl ▸ hl₁.1) fun _ _ => ?_
      rcases htrue with heq | ⟨-, hraise⟩
      · exact absurd (heq.trans (hl₁.2 p hp)) hres
      · exact hraise
  · refine check_firm (Or.inl rfl) (fun l hl => hl.1) ?_
    intro l hl
    rw [if_pos (List.all_eq_true.mpr fun p hp => decide_eq_true (hl.1.reachable p hp))]

/-! ### All views -/

/-- The live trees, root by root. -/
def TxState.lives (s : TxState) (root : Root) : Tree := (s.fs root).live

/-- Views whose roots are distinct, none crossed by its own changes. -/
structure SoundViews (views : List JournalView) : Prop where
  roots : (views.map JournalView.root).Nodup
  uncrossed : ∀ v ∈ views, Uncrossed v
  cropped : ∀ v ∈ views, Cropped v

/-- Every view is restorable. -/
def Restorables (views : List JournalView) (s : TxState) : Prop :=
  ∀ v ∈ views, Restorable v (s.fs v.root)

/-- Every changed path of every view is where it was. -/
def CurrentEverywhere (views : List JournalView) (lives : Root → Tree) : Prop :=
  ∀ v ∈ views, AllCurrent v (lives v.root)

/-- Every changed path of every view is where the transaction wants it. -/
def DesiredEverywhere (views : List JournalView) (lives : Root → Tree) : Prop :=
  ∀ v ∈ views, AllDesired v (lives v.root)

theorem TxState.setLocal_fs_of_ne (s : TxState) {root other : Root} (l : Local)
    (h : other ≠ root) : (s.setLocal root l).fs other = s.fs other :=
  Function.update_of_ne h _ _

@[simp] theorem TxState.setLocal_fs_self (s : TxState) (root : Root) (l : Local) :
    (s.setLocal root l).fs root = l.area := Function.update_self _ _ _

@[simp] theorem TxState.setLocal_toLocal (s : TxState) (root : Root) :
    s.setLocal root (s.toLocal root) = s := by
  show TxState.mk (Function.update s.fs root (s.fs root)) s.journal s.memory = s
  rw [Function.update_eq_self]

/-- Work on one view that does not change its live tree changes no live tree. -/
theorem TxState.lives_setLocal (s : TxState) (root : Root) {l : Local}
    (h : l.area.live = (s.fs root).live) : (s.setLocal root l).lives = s.lives := by
  funext other
  unfold TxState.lives
  by_cases ho : other = root
  · rw [ho, setLocal_fs_self, h]
  · rw [setLocal_fs_of_ne s l ho]

theorem eq_of_root_eq {views : List JournalView} (h : (views.map JournalView.root).Nodup)
    {v w : JournalView} (hv : v ∈ views) (hw : w ∈ views) (hroot : v.root = w.root) : v = w :=
  List.inj_on_of_nodup_map h hv hw hroot

/-- Work on one view keeps what holds of the others. -/
theorem forall_setLocal {views : List JournalView} (hroots : (views.map JournalView.root).Nodup)
    (A : JournalView → Area → Prop) {s : TxState} {v : JournalView} (hv : v ∈ views) {l : Local}
    (h : ∀ w ∈ views, A w (s.fs w.root)) (hl : A v l.area) :
    ∀ w ∈ views, A w ((s.setLocal v.root l).fs w.root) := by
  intro w hw
  by_cases hroot : w.root = v.root
  · rw [eq_of_root_eq hroots hw hv hroot, TxState.setLocal_fs_self]
    exact hl
  · rw [TxState.setLocal_fs_of_ne s l hroot]
    exact h w hw

theorem CurrentEverywhere.restorables {views : List JournalView} {s : TxState}
    (h : CurrentEverywhere views s.lives) (hr : ∀ v ∈ views, Reachable v (s.lives v.root)) :
    Restorables views s :=
  fun v hv => AllCurrent.restorable (h v hv) (hr v hv)

/-! ### Cleaning up -/

/-- Removing an owned tree keeps whatever does not look at it, and fails only when the
    environment makes it. -/
theorem removeOwnedTree_spec (env : Env TxSite Interruption) (site : TxSite) (place : Owned)
    (I : Local → Prop)
    (hI : ∀ l tree, I l → I { l with area := l.area.setOwned tree place }) :
    Triple env I (removeOwnedTree site place) (fun _ => I)
      (fun e l => I l ∧ (∃ n x, env n site = some (.raise x)) ∧ ∀ w, e ≠ .own w) I := by
  have hstep : ∀ tree : Area → Option Tree, Triple env I
      (onArea site (fun area => .ok ((), area.setOwned (tree area) place))) (fun _ => I)
      (fun e l => I l ∧ (∃ n x, env n site = some (.raise x)) ∧ ∀ w, e ≠ .own w) I := by
    intro tree
    refine Triple.step (fun l hl _ => hl) ?_ (fun l hl => hI l _ hl)
    rintro l x hl ⟨n, hn⟩
    exact ⟨hl, ⟨n, x, hn⟩, by simp⟩
  unfold removeOwnedTree
  have hlook : Triple env I (Prog.silent (fun l => (l.area.owned place, l))) (fun _ => I)
      (fun e l => I l ∧ (∃ n x, env n site = some (.raise x)) ∧ ∀ w : TxError, e ≠ .own w) I :=
    Triple.silent fun l hl => hl
  refine Triple.bind hlook fun tree => ?_
  cases tree with
  | none => exact Triple.pure () fun l hl => hl
  | some tree =>
    refine Triple.bind (Triple.forEach_keep fun name _ => ?_) fun _ => hstep fun _ => none
    exact hstep fun area => (area.owned place).map (fun t => t.erase name)

/-- Cleaning up removes the owned trees and then the journal; no live tree changes, and it raises
    nothing of its own. -/
theorem cleanup_spec (views : List JournalView) (lives : Root → Tree) (journal : JournalFile)
    (memory : Memory) :
    Triple env (fun s => s.lives = lives ∧ s.memory = memory ∧ s.journal = journal)
      (cleanup views)
      (fun _ s => s.lives = lives ∧ s.memory = memory ∧ s.journal = .absent)
      (fun e s => (s.lives = lives ∧ s.memory = memory ∧ s.journal = journal)
        ∧ env.Raises recoverySite ∧ ∀ w, e ≠ .own w)
      (fun s => s.lives = lives ∧ s.memory = memory ∧ s.journal = journal) := by
  have hview : ∀ v ∈ views, Triple env
      (fun s => s.lives = lives ∧ s.memory = memory ∧ s.journal = journal)
      (atView v.root (do removeOwnedTree .cleanup .stage; removeOwnedTree .cleanup .candidate))
      (fun _ s => s.lives = lives ∧ s.memory = memory ∧ s.journal = journal)
      (fun e s => (s.lives = lives ∧ s.memory = memory ∧ s.journal = journal)
        ∧ env.Raises recoverySite ∧ ∀ w, e ≠ .own w)
      (fun s => s.lives = lives ∧ s.memory = memory ∧ s.journal = journal) := by
    intro v _
    refine Triple.zoom fun s hs => ?_
    let Same : Local → Prop := fun l => l.area.live = (s.fs v.root).live ∧ l.memory = s.memory
    have hback : ∀ l, Same l → (s.setLocal v.root l).lives = lives
        ∧ (s.setLocal v.root l).memory = memory ∧ (s.setLocal v.root l).journal = journal := by
      intro l hl
      exact ⟨(s.lives_setLocal v.root hl.1).trans hs.1, hl.2.trans hs.2.1, hs.2.2⟩
    have hstage := removeOwnedTree_spec env .cleanup .stage Same fun l tree hl => hl
    have hcand := removeOwnedTree_spec env .cleanup .candidate Same fun l tree hl => hl
    refine (Triple.bind hstage fun _ => hcand).weaken ?_ ?_ ?_ ?_
    · rintro l rfl
      exact ⟨rfl, rfl⟩
    · exact fun _ l hl => hback l hl
    · rintro e l ⟨hl, hraise, hown⟩
      exact ⟨hback l hl, ⟨.cleanup, Or.inr (Or.inr (Or.inl rfl)), hraise⟩, hown⟩
    · exact fun l hl => hback l hl
  unfold cleanup
  refine Triple.bind (Triple.forEach_keep hview) fun _ => ?_
  refine Triple.step (fun s hs _ => hs) ?_ ?_
  · intro s x hs hraise
    exact ⟨hs, ⟨.cleanup, Or.inr (Or.inr (Or.inl rfl)), hraise.imp fun n hn => ⟨x, hn⟩⟩, by simp⟩
  · exact fun s hs => ⟨hs.1, hs.2.1, rfl⟩

/-! ### Rolling back -/

/-- Where a rollback may be stopped: every view is restorable, and the journal is gone only when
    every view is back. -/
def RollingBack (views : List JournalView) (journal : JournalFile) (s : TxState) : Prop :=
  Restorables views s
    ∧ (s.journal = journal ∨ s.journal = .absent ∧ CurrentEverywhere views s.lives)

/-- The turn of a rollback for one plan: the view is back, or a restoration failed because the
    environment raised. -/
private theorem restorePlan_firm {views : List JournalView} (hv : SoundViews views)
    {journal : JournalFile} {s₀ : TxState} (h : Restorables views s₀) (hj : s₀.journal = journal)
    {v : JournalView} (hmem : v ∈ views) {actions : List RestoreAction}
    (hplan : IsPlan v (s₀.fs v.root) actions) :
    Firm env recoverySite (RollingBack views journal) (fun s => s = s₀)
      (Prog.tryCatch (do atView v.root (restoreView v actions); pure false)
        (fun e =>
          match e with
          | .external .interrupt => Prog.throw e
          | _ => pure true))
      (fun failed s => ∃ l, s = s₀.setLocal v.root l ∧ Restoring v (s₀.toLocal v.root) l
        ∧ (failed = false → AllCurrent v l.area.live) ∧ (failed = true → env.Raises recoverySite)) := by
  have hready : ∀ l, Restoring v (s₀.toLocal v.root) l →
      RollingBack views journal (s₀.setLocal v.root l) := by
    intro l hl
    exact ⟨forall_setLocal hv.roots Restorable hmem h (hl.restorable (h v hmem)), Or.inl hj⟩
  have hrestore : Triple env (fun s => s = s₀) (atView v.root (restoreView v actions))
      (fun _ s => ∃ l, s = s₀.setLocal v.root l ∧ Restoring v (s₀.toLocal v.root) l
        ∧ AllCurrent v l.area.live)
      (fun _ s => (∃ l, s = s₀.setLocal v.root l ∧ Restoring v (s₀.toLocal v.root) l)
        ∧ env.Raises recoverySite)
      (RollingBack views journal) := by
    refine Triple.zoom ?_
    rintro s rfl
    refine (restoreView_firm (hv.uncrossed v hmem) (hv.cropped v hmem) (h v hmem) hplan).weaken
      (fun _ hl => hl) ?_ ?_ ?_
    · exact fun _ l hl => ⟨l, rfl, hl⟩
    · exact fun _ l hl => ⟨⟨l, rfl, hl.1⟩, hl.2⟩
    · exact fun l hl => hready l hl
  refine Triple.tryCatch (Triple.bind hrestore fun _ => ?_) fun e => ?_
  · refine Triple.pure false ?_
    rintro s ⟨l, rfl, hl, hall⟩
    exact ⟨l, rfl, hl, fun _ => hall, by simp⟩
  · split
    · refine Triple.throw _ ?_
      rintro s ⟨⟨l, rfl, hl⟩, hraise⟩
      exact ⟨hready l hl, hraise⟩
    · refine Triple.pure true ?_
      rintro s ⟨⟨l, rfl, hl⟩, hraise⟩
      exact ⟨l, rfl, hl, by simp, fun _ => hraise⟩

/-- The plans of all views. -/
private theorem planViews_firm {views : List JournalView} {s₀ : TxState}
    (h : Restorables views s₀) :
    Firm env recoverySite (fun s => s = s₀) (fun s => s = s₀)
      (Prog.tryCatch
        (Prog.collect (fun v : JournalView => do
          let plan ← atView v.root (planRestore v)
          pure (v, plan)) views.reverse)
        (fun e =>
          match e with
          | .external .interrupt => Prog.throw e
          | .own .thirdVersion => Prog.throw e
          | _ => Prog.throw (.own .cannotRollBack)))
      (fun plans s => s = s₀ ∧ List.Forall₂
        (fun v plan => plan.1 = v ∧ IsPlan v (s₀.fs v.root) plan.2) views.reverse plans) := by
  have hview : ∀ v ∈ views.reverse, Firm env recoverySite (fun s => s = s₀) (fun s => s = s₀)
      (do let plan ← atView v.root (planRestore v); pure (v, plan))
      (fun plan s => s = s₀ ∧ plan.1 = v ∧ IsPlan v (s₀.fs v.root) plan.2) := by
    intro v hv
    have hplan : Firm env recoverySite (fun s => s = s₀) (fun s => s = s₀)
        (atView v.root (planRestore v))
        (fun actions s => s = s₀ ∧ IsPlan v (s₀.fs v.root) actions) := by
      refine Triple.zoom ?_
      rintro s rfl
      refine (planRestore_firm (h v (List.mem_reverse.mp hv))).weaken (fun _ hl => hl) ?_ ?_ ?_
      · rintro actions l ⟨rfl, hp⟩
        exact ⟨s.setLocal_toLocal v.root, hp⟩
      · rintro e l ⟨rfl, hraise⟩
        exact ⟨s.setLocal_toLocal v.root, hraise⟩
      · rintro l rfl
        exact s.setLocal_toLocal v.root
    refine Triple.bind hplan fun actions => Triple.pure _ ?_
    exact fun s hs => ⟨hs.1, rfl, hs.2⟩
  refine Triple.tryCatch (Triple.collect_forall₂ _ hview) fun e => ?_
  split <;> exact Triple.throw _ fun s hs => hs

/-- Carrying out the plans of all views: without a failure every view is back. -/
private theorem restoreViews_firm {views : List JournalView} (hv : SoundViews views)
    {journal : JournalFile} {memory : Memory} {s₀ : TxState} (h : Restorables views s₀)
    (hj : s₀.journal = journal) (hm : s₀.memory = memory)
    {plans : List (JournalView × List RestoreAction)}
    (hplans : List.Forall₂ (fun v plan => plan.1 = v ∧ IsPlan v (s₀.fs v.root) plan.2)
      views.reverse plans) :
    Firm env recoverySite (RollingBack views journal) (fun s => s = s₀)
      (Prog.collect (fun plan : JournalView × List RestoreAction =>
        Prog.tryCatch (do atView plan.1.root (restoreView plan.1 plan.2); pure false)
          (fun e =>
            match e with
            | .external .interrupt => Prog.throw e
            | _ => pure true)) plans)
      (fun failures s => Restorables views s ∧ s.journal = journal ∧ s.memory = memory
        ∧ (true ∈ failures → env.Raises recoverySite)
        ∧ (true ∉ failures → CurrentEverywhere views s.lives)) := by
  have hfst : plans.map Prod.fst = views.reverse := by
    have := List.forall₂_map_right_iff.mpr (hplans.imp fun v plan hp => hp.1.symm)
    exact (List.forall₂_eq_eq_eq ▸ this).symm
  have hnodup : (plans.map (fun plan => plan.1.root)).Nodup := by
    rw [show (fun plan : JournalView × List RestoreAction => plan.1.root)
      = JournalView.root ∘ Prod.fst from rfl, ← List.map_map, hfst, List.map_reverse]
    exact List.nodup_reverse.mpr hv.roots
  have hsound : ∀ plan ∈ plans, plan.1 ∈ views ∧ IsPlan plan.1 (s₀.fs plan.1.root) plan.2 := by
    intro plan hplan
    obtain ⟨i, hi, hget⟩ := List.mem_iff_getElem.mp hplan
    have hlen := hplans.length_eq
    have hrel := (List.forall₂_iff_get.mp hplans).2 i (by omega) hi
    simp only [List.get_eq_getElem, hget] at hrel
    rw [hrel.1]
    exact ⟨List.mem_reverse.mp (List.getElem_mem _), hrel.2⟩
  refine (Triple.collect (fun done failures s => Restorables views s ∧ s.journal = journal
    ∧ s.memory = memory
    ∧ (∀ plan ∈ plans, plan ∉ done → s.fs plan.1.root = s₀.fs plan.1.root)
    ∧ (true ∈ failures → env.Raises recoverySite)
    ∧ (true ∉ failures → ∀ plan ∈ done, AllCurrent plan.1 (s.lives plan.1.root))) ?_).weaken
    ?_ ?_ (fun _ _ h => h) (fun _ h => h)
  · intro done failures plan rest hsplit
    refine Triple.ofState ?_
    rintro s₁ ⟨hrest, hjournal, hmemory, huntouched, hfailed, hback⟩
    have hmem : plan ∈ plans := by
      rw [hsplit]
      exact List.mem_append_right _ List.mem_cons_self
    obtain ⟨hview, hisplan⟩ := hsound plan hmem
    -- the other plans are for other roots
    have hother : ∀ other ∈ plans, other ≠ plan → other.1.root ≠ plan.1.root :=
      fun other hin hne hroot => hne (List.inj_on_of_nodup_map hnodup hin hmem hroot)
    have hnew : plan ∉ done := by
      intro hin
      rw [hsplit, List.map_append, List.map_cons, List.nodup_append] at hnodup
      exact hnodup.2.2 _ (List.mem_map_of_mem hin) _ List.mem_cons_self rfl
    rw [← huntouched plan hmem hnew] at hisplan
    refine (restorePlan_firm hv hrest hjournal hview hisplan).post ?_
    rintro failed s ⟨l, rfl, hl, hcur, hraise⟩
    refine ⟨forall_setLocal hv.roots Restorable hview hrest (hl.restorable (hrest _ hview)), hjournal,
      hl.memory.trans hmemory, ?_, ?_, ?_⟩
    · intro other hin hnot
      rw [List.mem_append, not_or, List.mem_singleton] at hnot
      rw [TxState.setLocal_fs_of_ne _ _ (hother other hin hnot.2)]
      exact huntouched other hin hnot.1
    · intro htrue
      rcases List.mem_append.mp htrue with htrue | htrue
      · exact hfailed htrue
      · exact hraise (List.mem_singleton.mp htrue).symm
    · intro htrue other hin
      rw [List.mem_append, not_or, List.mem_singleton] at htrue
      have hfalse : failed = false := by
        cases failed with
        | false => rfl
        | true => exact absurd rfl htrue.2
      unfold TxState.lives
      rcases List.mem_append.mp hin with hin | hin
      · have hinplans : other ∈ plans := by
          rw [hsplit]
          exact List.mem_append_left _ hin
        have hne : other ≠ plan := fun heq => hnew (heq ▸ hin)
        rw [TxState.setLocal_fs_of_ne _ _ (hother other hinplans hne)]
        exact hback htrue.1 other hin
      · rw [List.mem_singleton.mp hin, TxState.setLocal_fs_self]
        exact hcur hfalse
  · rintro s rfl
    exact ⟨h, hj, hm, fun _ _ _ => rfl, by simp, by simp⟩
  · rintro failures s ⟨hrest, hjournal, hmemory, -, hfailed, hback⟩
    refine ⟨hrest, hjournal, hmemory, hfailed, ?_⟩
    intro htrue v hmem
    have hin : v ∈ plans.map Prod.fst := by
      rw [hfst]
      exact List.mem_reverse.mpr hmem
    obtain ⟨plan, hplan, rfl⟩ := List.mem_map.mp hin
    exact hback htrue plan hplan

/-- **Rolling back.** From a restorable state a rollback brings every changed path back to its
    old content and removes the journal; it raises only when the environment does, and wherever
    it is stopped it can be taken up again. -/
theorem rollback_firm {views : List JournalView} (hv : SoundViews views) (journal : JournalFile) :
    Firm env recoverySite (RollingBack views journal)
      (fun s => s.memory.finished = false ∧ s.journal = journal ∧ Restorables views s
        ∧ (s.memory.liveTouched = false → CurrentEverywhere views s.lives))
      (rollback views)
      (fun _ s => Restorables views s ∧ CurrentEverywhere views s.lives
        ∧ s.journal = .absent) := by
  -- once every view is back, what is left is the cleanup
  have hclean : ∀ s₀ : TxState, Restorables views s₀ → s₀.journal = journal →
      CurrentEverywhere views s₀.lives →
      Firm env recoverySite (RollingBack views journal) (fun s => s = s₀)
        (do cleanup views; remember (fun m => { m with finished := true }))
        (fun _ s => Restorables views s ∧ CurrentEverywhere views s.lives
          ∧ s.journal = .absent) := by
    intro s₀ hrest hjournal hcur
    have hrest' : ∀ s : TxState, s.lives = s₀.lives → Restorables views s := by
      intro s hlives
      refine CurrentEverywhere.restorables (hlives ▸ hcur) ?_
      rw [hlives]
      exact fun v hmem => (hrest v hmem).reachable
    have hready : ∀ s, s.lives = s₀.lives ∧ s.memory = s₀.memory ∧ s.journal = s₀.journal →
        RollingBack views journal s :=
      fun s hs => ⟨hrest' s hs.1, Or.inl (hs.2.2.trans hjournal)⟩
    refine Triple.bind ((cleanup_spec views s₀.lives s₀.journal s₀.memory).weaken ?_
      (fun _ _ h => h) ?_ hready) fun _ => ?_
    · rintro s rfl
      exact ⟨rfl, rfl, rfl⟩
    · exact fun e s hs => ⟨hready s hs.1, hs.2.1⟩
    · refine Triple.silent ?_
      rintro s ⟨hlives, -, hj⟩
      exact ⟨hrest' s hlives, hlives ▸ hcur, hj⟩
  refine Triple.ofState ?_
  rintro s₀ ⟨hfin, hjournal, hrest, huntouched⟩
  unfold rollback
  have hlook : ∀ {α : Type} (f : Memory → α), Firm env recoverySite (RollingBack views journal)
      (fun s => s = s₀) (recollect f) (fun a s => s = s₀ ∧ a = f s₀.memory) := by
    intro α f
    refine Triple.silent ?_
    rintro s rfl
    exact ⟨rfl, rfl⟩
  refine Triple.bind (hlook Memory.finished) fun finished => Triple.ofState ?_
  rintro s ⟨rfl, rfl⟩
  rw [hfin, if_neg (by simp)]
  refine Triple.bind (hlook Memory.liveTouched) fun touched => Triple.ofState ?_
  rintro s' ⟨rfl, rfl⟩
  cases htouched : s'.memory.liveTouched with
  | false =>
    rw [if_pos (by simp)]
    exact hclean s' hrest hjournal (huntouched htouched)
  | true =>
    rw [if_neg (by simp)]
    have hstart : RollingBack views journal s' := ⟨hrest, Or.inl hjournal⟩
    refine Triple.bind ((planViews_firm hrest).weaken (fun _ hs => hs) (fun _ _ hs => hs)
      (fun _ s hs => ⟨hs.1 ▸ hstart, hs.2⟩) (fun s hs => hs ▸ hstart)) fun plans => ?_
    refine Triple.ofState ?_
    rintro s ⟨rfl, hplans⟩
    refine Triple.bind (restoreViews_firm hv hrest hjournal rfl hplans) fun failures => ?_
    refine Triple.ofState ?_
    rintro s₁ ⟨hrest₁, hjournal₁, -, hraised, hcur⟩
    by_cases hfail : true ∈ failures
    · rw [if_pos (List.contains_iff_mem.mpr hfail)]
      refine Firm.throw ?_ fun _ _ => hraised hfail
      rintro s' rfl
      exact ⟨hrest₁, Or.inl hjournal₁⟩
    · rw [if_neg (fun h => hfail (List.contains_iff_mem.mp h))]
      exact hclean s₁ hrest₁ hjournal₁ (hcur hfail)

end RomCloud.SaveSync.Transaction
