import RomCloud.SaveSync.TransactionRollback

namespace RomCloud.SaveSync.Transaction

open RomCloud.Lib

/-!
# The life of a transaction

The states a transaction can be stopped in, by the phase of its journal (`Recoverable`), and what
each of its programs makes of them, for every environment:

* `prepareTransaction_spec` — no live tree changes before the journal says `applying`;
* `applyTransaction_spec` — a promotion that fails is rolled back;
* `finalize_spec` — finishing changes no live tree;
* `recoverTransaction_spec` — recovery keeps every recoverable state recoverable, and settles it
  unless an exception stops it.
-/

variable {env : Env TxSite Interruption}

/-! ### The states of a transaction -/

/-- Every changed path of every view can be reached. -/
def ReachableEverywhere (views : List JournalView) (lives : Root → Tree) : Prop :=
  ∀ v ∈ views, Reachable v (lives v.root)

/-- The journal says that no live tree has been touched. -/
inductive Early (operationId : OperationId) (views : List JournalView) : JournalFile → Prop
  | absent : Early operationId views .absent
  | torn : Early operationId views .torn
  | preparing : Early operationId views (.written ⟨operationId, .preparing, views⟩)
  | prepared : Early operationId views (.written ⟨operationId, .prepared, views⟩)

/-- **Recoverable states** of a transaction, by its journal and the stored receipt: nothing has
    moved, or everything can be moved back, or the operation is complete. -/
inductive Recoverable (operationId : OperationId) (views : List JournalView)
    (receipt : Option OperationId) (s : TxState) : Prop
  | unmoved : Early operationId views s.journal → CurrentEverywhere views s.lives →
      ReachableEverywhere views s.lives → Recoverable operationId views receipt s
  | moving (phase : Phase) : s.journal = .written ⟨operationId, phase, views⟩ →
      phase = .applying ∨ phase = .promoted ∧ receipt ≠ some operationId →
      Restorables views s → Recoverable operationId views receipt s
  | complete : s.journal = .written ⟨operationId, .promoted, views⟩ ∨ s.journal = .absent →
      receipt = some operationId → DesiredEverywhere views s.lives →
      Recoverable operationId views receipt s

/-- **All or nothing**, after a recovery that has found the given journal: every changed path is
    where it was, or every changed path is where the transaction wants it, the receipt is stored
    and the journal says `promoted` (or has been cleaned up). -/
def Settled (operationId : OperationId) (views : List JournalView)
    (receipt : Option OperationId) (found : JournalFile) (s : TxState) : Prop :=
  CurrentEverywhere views s.lives
    ∨ DesiredEverywhere views s.lives ∧ receipt = some operationId
      ∧ (found = .written ⟨operationId, .promoted, views⟩ ∨ found = .absent)

variable {operationId : OperationId} {views : List JournalView} {receipt : Option OperationId}

theorem RollingBack.recoverable {phase : Phase} {s : TxState}
    (hphase : phase = .applying ∨ phase = .promoted ∧ receipt ≠ some operationId)
    (h : RollingBack views (.written ⟨operationId, phase, views⟩) s) :
    Recoverable operationId views receipt s := by
  obtain ⟨hrest, hjournal | ⟨hjournal, hcur⟩⟩ := h
  · exact .moving phase hjournal hphase hrest
  · exact .unmoved (hjournal ▸ .absent) hcur fun v hv => (hrest v hv).reachable

/-- A rollback before anything has moved removes the owned trees and the journal. -/
theorem rollback_untouched_spec (views : List JournalView) (lives : Root → Tree)
    (journal : JournalFile) :
    Triple env
      (fun s => s.lives = lives ∧ s.journal = journal ∧ s.memory.liveTouched = false
        ∧ s.memory.finished = false)
      (rollback views) (fun _ s => s.lives = lives ∧ s.journal = .absent)
      (fun _ s => (s.lives = lives ∧ s.journal = journal) ∧ env.Raises recoverySite)
      (fun s => s.lives = lives ∧ s.journal = journal) := by
  refine Triple.ofState ?_
  rintro s₀ ⟨hlives, hjournal, htouched, hfinished⟩
  unfold rollback
  have hlook : ∀ {α : Type} (f : Memory → α), Triple env (fun s => s = s₀) (recollect f)
      (fun a s => s = s₀ ∧ a = f s₀.memory)
      (fun _ s => (s.lives = lives ∧ s.journal = journal) ∧ env.Raises recoverySite)
      (fun s => s.lives = lives ∧ s.journal = journal) := by
    intro α f
    refine Triple.silent ?_
    rintro s rfl
    exact ⟨rfl, rfl⟩
  refine Triple.bind (hlook Memory.finished) fun finished => Triple.ofState ?_
  rintro s ⟨rfl, rfl⟩
  rw [hfinished, if_neg (by simp)]
  refine Triple.bind (hlook Memory.liveTouched) fun touched => Triple.ofState ?_
  rintro s' ⟨rfl, rfl⟩
  rw [htouched, if_pos (by simp)]
  refine Triple.bind ((cleanup_spec views lives journal s'.memory).weaken ?_ (fun _ _ h => h) ?_ ?_)
    fun _ => ?_
  · rintro s rfl
    exact ⟨hlives, rfl, hjournal⟩
  · exact fun e s hs => ⟨⟨hs.1.1, hs.1.2.2⟩, hs.2.1⟩
  · exact fun s hs => ⟨hs.1, hs.2.2⟩
  · exact Triple.silent fun s hs => ⟨hs.1, hs.2.2⟩

/-! ### Finishing -/

/-- A check does not change anything, and raises nothing but what it is a check for. -/
theorem check_spec {I : Local → Prop} {site : TxSite} {verdict : Area → Except TxError Unit}
    {bad : TxError} (hbad : ∀ area, verdict area ≠ .error bad) :
    Triple env I (check site verdict) (fun _ => I) (fun e l => I l ∧ e ≠ .own bad) I := by
  refine Triple.step (fun l hl _ => hl) (fun l x hl _ => ⟨hl, by simp⟩) ?_
  intro l hl
  cases hv : verdict l.area with
  | ok u =>
    simp only [hv, Except.map]
    exact hl
  | error w =>
    simp only [hv, Except.map]
    refine ⟨hl, ?_⟩
    intro h
    cases h
    exact hbad l.area hv

theorem verifyManifest_ne_thirdVersion (tree : Tree) (manifest : Manifest) :
    verifyManifest tree manifest ≠ .error .thirdVersion := by
  unfold verifyManifest
  split
  · simp
  · split <;> simp

theorem verifyExact_ne_thirdVersion (tree : Option Tree) (manifest : Manifest) :
    verifyExact tree manifest ≠ .error .thirdVersion := by
  unfold verifyExact
  cases tree with
  | none => simp
  | some tree =>
    show (if tree.fileNames ≠ manifest.paths then _ else _) ≠ _
    split
    · simp
    · exact verifyManifest_ne_thirdVersion tree manifest

/-- Work on one view that changes neither its live tree nor the memory, in the whole. -/
theorem atView_spec {α : Type} {m : Lx α} {root : Root} {lives : Root → Tree}
    {journal : JournalFile} {bad : TxError}
    (h : ∀ live memory, Triple env (fun l => l.area.live = live ∧ l.memory = memory) m
      (fun _ l => l.area.live = live ∧ l.memory = memory)
      (fun e l => (l.area.live = live ∧ l.memory = memory) ∧ e ≠ .own bad)
      (fun l => l.area.live = live ∧ l.memory = memory)) :
    Triple env (fun s => s.lives = lives ∧ s.journal = journal) (atView root m)
      (fun _ s => s.lives = lives ∧ s.journal = journal)
      (fun e s => (s.lives = lives ∧ s.journal = journal) ∧ e ≠ .own bad)
      (fun s => s.lives = lives ∧ s.journal = journal) := by
  refine Triple.zoom fun s hs => ?_
  have hback : ∀ l : Local, l.area.live = (s.fs root).live ∧ l.memory = s.memory →
      (s.setLocal root l).lives = lives ∧ (s.setLocal root l).journal = journal :=
    fun l hl => ⟨(s.lives_setLocal root hl.1).trans hs.1, hs.2⟩
  refine (h (s.fs root).live s.memory).weaken ?_ ?_ ?_ ?_
  · rintro l rfl
    exact ⟨rfl, rfl⟩
  · exact fun _ l hl => hback l hl
  · exact fun e l hl => ⟨hback l hl.1, hl.2⟩
  · exact fun l hl => hback l hl

/-- Installing the candidate as the previous snapshot changes no live tree. -/
private theorem installPrevious_spec (v : JournalView) (live : Tree) (memory : Memory) :
    Triple env (fun l => l.area.live = live ∧ l.memory = memory) (installPrevious v)
      (fun _ l => l.area.live = live ∧ l.memory = memory)
      (fun e l => (l.area.live = live ∧ l.memory = memory) ∧ e ≠ .own .thirdVersion)
      (fun l => l.area.live = live ∧ l.memory = memory) := by
  unfold installPrevious
  refine Triple.bind (Triple.look fun l => rfl) fun candidate => ?_
  cases candidate with
  | none => exact check_spec fun area => verifyExact_ne_thirdVersion _ _
  | some _ =>
    refine Triple.bind (check_spec fun area => verifyExact_ne_thirdVersion _ _) fun _ => ?_
    refine Triple.bind ((removeOwnedTree_spec env .finalize .previous _ ?_).weaken
      (fun _ hl => hl) (fun _ _ hl => hl) ?_ (fun _ hl => hl)) fun _ => ?_
    · exact fun l tree hl => hl
    · exact fun e l hl => ⟨hl.1, hl.2.2 _⟩
    refine Triple.bind (Triple.step (fun l hl _ => hl) (fun l x hl _ => ⟨hl, by simp⟩) ?_)
      fun _ => check_spec fun area => verifyExact_ne_thirdVersion _ _
    exact fun l hl => hl

/-- **Finishing** changes no live tree, and recognizes no third version. -/
theorem finalize_spec (views : List JournalView) (lives : Root → Tree) (journal : JournalFile) :
    Triple env (fun s => s.lives = lives ∧ s.journal = journal) (finalize views)
      (fun _ s => s.lives = lives ∧ (s.journal = journal ∨ s.journal = .absent))
      (fun e s => (s.lives = lives ∧ s.journal = journal) ∧ e ≠ .own .thirdVersion)
      (fun s => s.lives = lives ∧ s.journal = journal) := by
  unfold finalize
  refine Triple.bind (Triple.look fun s => rfl) fun finished => ?_
  by_cases hfin : finished = true
  · rw [if_pos hfin]
    exact Triple.pure () fun s hs => ⟨hs.1, Or.inl hs.2⟩
  rw [if_neg hfin]
  refine Triple.bind (Triple.forEach_keep fun v _ => atView_spec fun live memory =>
    check_spec fun area => verifyExact_ne_thirdVersion _ _) fun _ => ?_
  refine Triple.bind (Triple.forEach_keep fun v _ => atView_spec fun live memory =>
    installPrevious_spec v live memory) fun _ => ?_
  refine Triple.ofState ?_
  rintro s₀ ⟨hlives, hjournal⟩
  refine Triple.bind ((cleanup_spec views lives journal s₀.memory).weaken ?_ (fun _ _ hs => hs)
    ?_ ?_) fun _ => ?_
  · rintro s rfl
    exact ⟨hlives, rfl, hjournal⟩
  · exact fun e s hs => ⟨⟨hs.1.1, hs.1.2.2⟩, hs.2.2 _⟩
  · exact fun s hs => ⟨hs.1, hs.2.2⟩
  · exact Triple.silent fun s hs => ⟨hs.1, Or.inr hs.2.2⟩

/-! ### Recovering -/

private theorem written_of_early {record : JournalRecord}
    (h : Early operationId views (.written record)) :
    record.operationId = operationId ∧ record.views = views
      ∧ (record.phase = .preparing ∨ record.phase = .prepared) := by
  cases h with
  | preparing => exact ⟨rfl, rfl, Or.inl rfl⟩
  | prepared => exact ⟨rfl, rfl, Or.inr rfl⟩

/-- What a recovery leaves behind when it raises: it can be run again, and it has raised because
    the environment did, or with everything in its place. -/
def Resumable (env : Env TxSite Interruption) (operationId : OperationId)
    (views : List JournalView) (receipt : Option OperationId) (found : JournalFile)
    (e : Exn Interruption TxError) (s : TxState) : Prop :=
  Recoverable operationId views receipt s
    ∧ (env.Raises recoverySite
      ∨ Settled operationId views receipt found s ∧ e ≠ .own .thirdVersion)

/-- The body of a recovery, once the journal has been read and accepted. -/
private theorem recoverRecord_spec (hv : SoundViews views) {s₀ : TxState}
    (h : Recoverable operationId views receipt s₀) {record : JournalRecord}
    (hjournal : s₀.journal = .written record) :
    Triple env (fun s => s = s₀)
      (do
        remember (fun _ =>
          ⟨record.phase = .applying || record.phase = .promoted, false, false, []⟩)
        if record.phase = .promoted ∧ receipt = some record.operationId then do
          finalize record.views
          pure true
        else do
          rollback record.views
          pure true)
      (fun _ => Settled operationId views receipt s₀.journal)
      (Resumable env operationId views receipt s₀.journal)
      (Recoverable operationId views receipt) := by
  have hmem : Triple env (fun s => s = s₀)
      (remember (fun _ =>
        ⟨record.phase = .applying || record.phase = .promoted, false, false, []⟩))
      (fun _ s => s = { s₀ with memory :=
        ⟨record.phase = .applying || record.phase = .promoted, false, false, []⟩ })
      (Resumable env operationId views receipt s₀.journal)
      (Recoverable operationId views receipt) := by
    refine Triple.silent ?_
    rintro s rfl
    rfl
  refine Triple.bind hmem fun _ => ?_
  cases h with
  | unmoved hearly hcur hreach =>
    -- nothing has moved: the rollback only cleans up
    rw [hjournal] at hearly
    obtain ⟨-, hviews, hphase⟩ := written_of_early hearly
    rw [hviews, if_neg (by rcases hphase with hp | hp <;> simp [hp])]
    refine Triple.bind ?_ fun _ => Triple.pure true fun _ hs => hs
    refine (rollback_untouched_spec views s₀.lives (.written record)).weaken ?_ ?_ ?_ ?_
    · rintro s rfl
      refine ⟨rfl, hjournal, ?_, rfl⟩
      rcases hphase with hp | hp <;> simp [hp]
    · exact fun _ s hs => Or.inl (hs.1 ▸ hcur)
    · rintro e s ⟨⟨hlives, hj⟩, hraise⟩
      exact ⟨.unmoved (hj ▸ hearly) (hlives ▸ hcur) (hlives ▸ hreach), Or.inl hraise⟩
    · rintro s ⟨hlives, hj⟩
      exact .unmoved (hj ▸ hearly) (hlives ▸ hcur) (hlives ▸ hreach)
  | moving phase hj hphase hrest =>
    -- something may have moved: the rollback restores it
    rw [hjournal] at hj
    cases hj
    rw [if_neg ?_]
    · refine Triple.bind ?_ fun _ => Triple.pure true fun _ hs => hs
      refine (rollback_firm hv (.written ⟨operationId, phase, views⟩)).weaken ?_ ?_ ?_ ?_
      · rintro s rfl
        refine ⟨rfl, hjournal, hrest, ?_⟩
        rcases hphase with hp | ⟨hp, -⟩ <;> simp [hp]
      · exact fun _ s hs => Or.inl hs.2.1
      · exact fun e s hs => ⟨hs.1.recoverable hphase, Or.inl hs.2⟩
      · exact fun s hs => hs.recoverable hphase
    · rintro ⟨hp, hreceipt⟩
      rcases hphase with hp' | ⟨-, hne⟩
      · exact absurd (hp.symm.trans hp') (by simp)
      · exact hne hreceipt
  | complete hj hreceipt hdes =>
    -- the operation is complete: only the owned trees are left to clean up
    rcases hj with hj | hj
    · rw [hjournal] at hj
      cases hj
      rw [if_pos ⟨rfl, hreceipt⟩]
      refine Triple.bind ?_ fun _ => Triple.pure true fun _ hs => hs
      refine (finalize_spec views s₀.lives s₀.journal).weaken ?_ ?_ ?_ ?_
      · rintro s rfl
        exact ⟨rfl, rfl⟩
      · rintro _ s ⟨hlives, -⟩
        exact Or.inr ⟨hlives ▸ hdes, hreceipt, Or.inl hjournal⟩
      · rintro e s ⟨⟨hlives, hj⟩, hne⟩
        exact ⟨.complete (Or.inl (hj.trans hjournal)) hreceipt (hlives ▸ hdes),
          Or.inr ⟨Or.inr ⟨hlives ▸ hdes, hreceipt, Or.inl hjournal⟩, hne⟩⟩
      · rintro s ⟨hlives, hj⟩
        exact .complete (Or.inl (hj.trans hjournal)) hreceipt (hlives ▸ hdes)
    · exact absurd (hjournal.symm.trans hj) (by simp)

/-- **Recovering.** Recovery keeps a recoverable state recoverable however it ends; when it
    returns the transaction is settled, and when it raises although the environment does not, it
    is settled too. -/
theorem recoverTransaction_spec (operationId : OperationId) (receipt : Option OperationId)
    (hv : SoundViews views) {allowedRoots : List Root}
    (hallowed : ∀ v ∈ views, v.root ∈ allowedRoots) {s₀ : TxState}
    (h : Recoverable operationId views receipt s₀) :
    Triple env (fun s => s = s₀) (recoverTransaction allowedRoots receipt)
      (fun _ => Settled operationId views receipt s₀.journal)
      (Resumable env operationId views receipt s₀.journal)
      (Recoverable operationId views receipt) := by
  unfold recoverTransaction
  have hread : Triple env (fun s => s = s₀)
      (Prog.step .recover (fun s : TxState => .ok (s.journal, s)))
      (fun journal s => s = s₀ ∧ journal = s₀.journal)
      (Resumable env operationId views receipt s₀.journal)
      (Recoverable operationId views receipt) := by
    refine Triple.step ?_ ?_ ?_
    · rintro s rfl -
      exact h
    · rintro s x rfl ⟨n, hn⟩
      exact ⟨h, Or.inl ⟨.recover, Or.inr (Or.inr (Or.inr rfl)), n, x, hn⟩⟩
    · rintro s rfl
      exact ⟨rfl, rfl⟩
  refine Triple.bind hread fun journal => Triple.ofState ?_
  rintro s ⟨rfl, rfl⟩
  cases hjournal : s.journal with
  | absent =>
    refine Triple.pure false ?_
    rintro t rfl
    cases h with
    | unmoved _ hcur _ => exact Or.inl hcur
    | moving phase hj _ _ => exact absurd (hjournal.symm.trans hj) (by simp)
    | complete hj hreceipt hdes => exact Or.inr ⟨hdes, hreceipt, hjournal ▸ hj⟩
  | torn =>
    refine Triple.throw _ ?_
    rintro t rfl
    refine ⟨h, Or.inr ⟨?_, by simp⟩⟩
    cases h with
    | unmoved _ hcur _ => exact Or.inl hcur
    | moving phase hj _ _ => exact absurd (hjournal.symm.trans hj) (by simp)
    | complete hj hreceipt hdes => exact Or.inr ⟨hdes, hreceipt, hjournal ▸ hj⟩
  | written record =>
    have hviews : record.views = views := by
      cases h with
      | unmoved hearly _ _ => exact (written_of_early (hjournal ▸ hearly)).2.1
      | moving phase hj _ _ =>
        rw [hjournal] at hj
        cases hj
        rfl
      | complete hj _ _ =>
        rcases hj with hj | hj
        · rw [hjournal] at hj
          cases hj
          rfl
        · exact absurd (hjournal.symm.trans hj) (by simp)
    have hall : record.views.all (fun v => allowedRoots.contains v.root) = true := by
      rw [hviews, List.all_eq_true]
      exact fun v hmem => List.contains_iff_mem.mpr (hallowed v hmem)
    simp only [hall, Bool.not_true, Bool.false_eq_true, if_false]
    rw [← hjournal]
    exact recoverRecord_spec hv h hjournal

/-! ### Promoting one view -/

/-- The promotion went on from `before`: the candidate is untouched, and every changed path is as
    it was then or where the transaction wants it.  While the process has not noted that it
    touches the live tree, nothing has changed. -/
structure Promoting (v : JournalView) (before after : Local) : Prop where
  candidate : after.area.candidate = before.area.candidate
  finished : after.memory.finished = before.memory.finished
  reachable : Reachable v after.area.live
  placed : ∀ p ∈ v.changed, after.area.live.get? p = before.area.live.get? p
    ∨ AtDesired v after.area.live p
  untouched : after.memory.liveTouched = false → before.memory.liveTouched = false
    ∧ ∀ p ∈ v.changed, after.area.live.get? p = before.area.live.get? p

namespace Promoting

variable {v : JournalView} {l₀ l₁ l₂ : Local}

theorem refl (h : Reachable v l₀.area.live) : Promoting v l₀ l₀ :=
  ⟨rfl, rfl, h, fun _ _ => Or.inl rfl, fun h => ⟨h, fun _ _ => rfl⟩⟩

theorem keeps_atDesired (h : Promoting v l₀ l₁) {p : Path} (hp : p ∈ v.changed)
    (hd : AtDesired v l₀.area.live p) : AtDesired v l₁.area.live p := by
  rcases h.placed p hp with heq | hd'
  · unfold AtDesired at hd ⊢
    rwa [heq]
  · exact hd'

theorem trans (h : Promoting v l₀ l₁) (h' : Promoting v l₁ l₂) : Promoting v l₀ l₂ := by
  refine ⟨h'.candidate.trans h.candidate, h'.finished.trans h.finished, h'.reachable, ?_, ?_⟩
  · intro p hp
    rcases h'.placed p hp with heq | hd
    · rcases h.placed p hp with heq' | hd'
      · exact Or.inl (heq.trans heq')
      · exact Or.inr (h'.keeps_atDesired hp hd')
    · exact Or.inr hd
  · intro htouched
    obtain ⟨hbefore, hsame⟩ := h'.untouched htouched
    obtain ⟨hstart, hsame'⟩ := h.untouched hbefore
    exact ⟨hstart, fun p hp => (hsame p hp).trans (hsame' p hp)⟩

/-- Whatever leaves the candidate, the memory and the changed paths as they are. -/
theorem of_same (hreach : Reachable v l₁.area.live)
    (hcand : l₁.area.candidate = l₀.area.candidate) (hmem : l₁.memory = l₀.memory)
    (hsame : ∀ p ∈ v.changed, l₁.area.live.get? p = l₀.area.live.get? p) : Promoting v l₀ l₁ :=
  ⟨hcand, by rw [hmem], hreach, fun p hp => Or.inl (hsame p hp), fun h => ⟨hmem ▸ h, hsame⟩⟩

/-- A change of the live tree at one changed path only, noted before it is made. -/
theorem of_change (hsep : Uncrossed v) (hr : Reachable v l₀.area.live) {p : Path}
    (hp : p ∈ v.changed) (hcand : l₁.area.candidate = l₀.area.candidate)
    (hfin : l₁.memory.finished = l₀.memory.finished) (htouched : l₁.memory.liveTouched = true)
    (hoff : ∀ q, q ≠ p → l₁.area.live.get? q = l₀.area.live.get? q)
    (hat : AtDesired v l₁.area.live p) : Promoting v l₀ l₁ := by
  refine ⟨hcand, hfin, ?_, ?_, ?_⟩
  · intro q hq
    exact (hr q hq).of_eq_off hoff (hsep p hp q hq)
  · intro q _
    by_cases hqp : q = p
    · rw [hqp]
      exact Or.inr hat
    · exact Or.inl (hoff q hqp)
  · intro h
    exact absurd (h.symm.trans htouched) (by simp)

end Promoting

/-- A step on the area of a view that keeps an assertion whether it succeeds or not. -/
theorem onArea_keeps {α : Type} {I : Local → Prop} {site : TxSite}
    {act : Area → Except TxError (α × Area)}
    (h : ∀ l a area, I l → act l.area = .ok (a, area) → I { l with area := area }) :
    Keeps env I (onArea site act) := by
  refine Keeps.step ?_
  intro l a t hl hact
  cases hres : act l.area with
  | ok r =>
    rw [hres] at hact
    cases hact
    exact h l r.1 r.2 hl hres
  | error w =>
    rw [hres] at hact
    cases hact

/-- A check keeps whatever holds before it. -/
theorem check_keeps {I : Local → Prop} {site : TxSite} {verdict : Area → Except TxError Unit} :
    Keeps env I (check site verdict) := by
  refine onArea_keeps ?_
  intro l a area hl hact
  cases hres : verdict l.area with
  | ok u =>
    rw [hres] at hact
    cases hact
    exact hl
  | error w =>
    rw [hres] at hact
    cases hact

/-- After a check has passed, what it checks is known. -/
theorem check_passed {I : Local → Prop} {site : TxSite} {verdict : Area → Except TxError Unit} :
    Triple env I (check site verdict) (fun _ l => I l ∧ verdict l.area = .ok ())
      (fun _ => I) I := by
  refine Triple.step (fun l hl _ => hl) (fun l x hl _ => hl) ?_
  intro l hl
  cases hres : verdict l.area with
  | ok u =>
    simp only [hres, Except.map]
    exact ⟨hl, trivial⟩
  | error w =>
    simp only [hres, Except.map]
    exact hl

/-- The turn of the promotion for one changed path. -/
private theorem applyPath_spec {v : JournalView} (hsep : Uncrossed v) {l₀ : Local}
    (hr : Reachable v l₀.area.live) {p : Path} (hp : p ∈ v.changed) :
    Triple env (fun l => l = l₀) (applyPath v p)
      (fun _ l => Promoting v l₀ l ∧ AtDesired v l.area.live p) (fun _ => Promoting v l₀)
      (Promoting v l₀) := by
  -- until the live tree is touched, the changed paths are as they were
  let Still : Local → Prop := fun l => l.area.candidate = l₀.area.candidate
    ∧ l.memory = l₀.memory ∧ Reachable v l.area.live
    ∧ ∀ q ∈ v.changed, l.area.live.get? q = l₀.area.live.get? q
  have hstill : ∀ l, Still l → Promoting v l₀ l :=
    fun l hl => Promoting.of_same hl.2.2.1 hl.1 hl.2.1 hl.2.2.2
  have hparents : Triple env (fun l => l = l₀) (ensureParents .apply p) (fun _ => Still)
      (fun _ => Promoting v l₀) (Promoting v l₀) := by
    have hkeep : Keeps env Still (ensureParents .apply p) := by
      refine Keeps.forEach fun dir hdir => onArea_keeps ?_
      intro l a area hl hact
      obtain ⟨hcand, hmem, hreach, hsame⟩ := hl
      cases hmk : l.area.live.mkdir dir with
      | none =>
        simp only [hmk] at hact
        cases hact
      | some live =>
        simp only [hmk] at hact
        cases hact
        refine ⟨hcand, hmem, fun q hq => (hreach q hq).mkdir hmk, ?_⟩
        intro q hq
        have hne : q ≠ dir := fun heq => hsep q hq p hp (heq ▸ hdir)
        show live.get? q = _
        rw [FileTree.get?_mkdir hmk, if_neg hne]
        exact hsame q hq
    refine Triple.weaken hkeep ?_ (fun _ _ hl => hl) (fun _ l hl => hstill l hl) hstill
    rintro l rfl
    exact ⟨rfl, rfl, hr, fun _ _ => rfl⟩
  have hcheck : ∀ verdict : Area → Except TxError Unit, Triple env Still (check .apply verdict)
      (fun _ l => Still l ∧ verdict l.area = .ok ()) (fun _ => Promoting v l₀)
      (Promoting v l₀) := by
    intro verdict
    exact check_passed.weaken (fun _ hl => hl) (fun _ _ hl => hl) (fun _ l hl => hstill l hl) hstill
  unfold applyPath
  refine Triple.bind hparents fun _ => ?_
  refine Triple.bind ((hcheck _).post fun _ l hl => hl.1) fun _ => ?_
  cases hdes : v.desired.get? p with
  | none =>
    refine Triple.ofState ?_
    intro l₁ hl₁
    have htouch : Triple env (fun l => l = l₁) touchLive
        (fun _ l => l = { l₁ with memory := { l₁.memory with liveTouched := true } })
        (fun _ => Promoting v l₀) (Promoting v l₀) := by
      refine Triple.silent ?_
      rintro l rfl
      rfl
    refine Triple.bind htouch fun _ => ?_
    have hnoted : Promoting v l₀ { l₁ with memory := { l₁.memory with liveTouched := true } } :=
      ⟨hl₁.1, by rw [hl₁.2.1], hl₁.2.2.1, fun q hq => Or.inl (hl₁.2.2.2 q hq), by simp⟩
    refine Triple.step ?_ ?_ ?_
    · rintro l rfl -
      exact hnoted
    · rintro l x rfl -
      exact hnoted
    · rintro l rfl
      cases hun : l₁.area.live.unlink p with
      | none =>
        simp only [hun]
        exact hnoted
      | some live =>
        simp only [hun]
        have hat : AtDesired v live p := by
          unfold AtDesired
          rw [FileTree.get?_unlink hun, if_pos rfl, hdes]
          rfl
        refine ⟨(hstill l₁ hl₁).trans (Promoting.of_change hsep hl₁.2.2.1 hp rfl rfl rfl ?_ hat),
          hat⟩
        intro q hq
        show live.get? q = _
        rw [FileTree.get?_unlink hun, if_neg hq]
  | some desired =>
    refine Triple.bind ((hcheck _).post fun _ l hl => hl.1) fun _ => ?_
    refine Triple.bind (hcheck _) fun _ => Triple.ofState ?_
    rintro l₁ ⟨hl₁, hverify⟩
    have htouch : Triple env (fun l => l = l₁) touchLive
        (fun _ l => l = { l₁ with memory := { l₁.memory with liveTouched := true } })
        (fun _ => Promoting v l₀) (Promoting v l₀) := by
      refine Triple.silent ?_
      rintro l rfl
      rfl
    refine Triple.bind htouch fun _ => ?_
    have hnoted : Promoting v l₀ { l₁ with memory := { l₁.memory with liveTouched := true } } :=
      ⟨hl₁.1, by rw [hl₁.2.1], hl₁.2.2.1, fun q hq => Or.inl (hl₁.2.2.2 q hq), by simp⟩
    refine Triple.step ?_ ?_ ?_
    · rintro l rfl -
      exact hnoted
    · rintro l x rfl -
      exact hnoted
    · rintro l rfl
      have hstage : verifyOne ((l₁.area.stage.getD ∅).get? p) desired = true := by
        by_contra hnot
        rw [if_neg hnot] at hverify
        cases hverify
      cases hnode : (l₁.area.stage.getD ∅).get? p with
      | none =>
        simp only [hnode]
        exact hnoted
      | some node =>
        cases node with
        | directory =>
          simp only [hnode]
          exact hnoted
        | other =>
          simp only [hnode]
          exact hnoted
        | file content =>
          cases hpl : l₁.area.live.place p content with
          | none =>
            simp only [hnode, hpl]
            exact hnoted
          | some live =>
            simp only [hnode, hpl]
            have hat : AtDesired v live p := by
              unfold AtDesired
              rw [FileTree.get?_place hpl, if_pos rfl, hdes]
              rw [hnode] at hstage
              exact hstage
            refine ⟨(hstill l₁ hl₁).trans
              (Promoting.of_change hsep hl₁.2.2.1 hp rfl rfl rfl ?_ hat), hat⟩
            intro q hq
            show live.get? q = _
            rw [FileTree.get?_place hpl, if_neg hq]

/-- **Promoting a view.** Wherever it is stopped, every changed path is as it was or where the
    transaction wants it; when it returns, every one is where the transaction wants it. -/
theorem applyView_spec {v : JournalView} (hsep : Uncrossed v) {l₀ : Local}
    (hr : Reachable v l₀.area.live) :
    Triple env (fun l => l = l₀) (applyView v)
      (fun _ l => Promoting v l₀ l ∧ AllDesired v l.area.live) (fun _ => Promoting v l₀)
      (Promoting v l₀) := by
  unfold applyView
  refine (Triple.forEach (fun done l => Promoting v l₀ l
    ∧ ∀ p ∈ done, AtDesired v l.area.live p) ?_).weaken ?_ (fun _ _ hl => hl)
    (fun _ _ hl => hl) (fun _ hl => hl)
  · intro done p rest hchanged
    refine Triple.ofState ?_
    rintro l₁ ⟨hprom, hdone⟩
    have hmem : ∀ q, q ∈ done ∨ q = p → q ∈ v.changed := by
      intro q hq
      rw [hchanged, List.mem_append, List.mem_cons]
      exact hq.imp_right Or.inl
    refine (applyPath_spec hsep hprom.reachable (hmem p (Or.inr rfl))).weaken (fun _ hl => hl)
      ?_ (fun _ l hl => hprom.trans hl) (fun l hl => hprom.trans hl)
    rintro _ l ⟨hl, hat⟩
    refine ⟨hprom.trans hl, ?_⟩
    intro q hq
    rcases List.mem_append.mp hq with hq | hq
    · exact hl.keeps_atDesired (hmem q (Or.inl hq)) (hdone q hq)
    · rw [List.mem_singleton.mp hq]
      exact hat
  · rintro l rfl
    exact ⟨Promoting.refl hr, by simp⟩

/-! ### Promoting all views -/

/-- **Armed transactions.** Every changed path is where it was or where the transaction wants it,
    and the old content of every one of them is at hand. -/
structure Armed (views : List JournalView) (journal : JournalFile) (s : TxState) : Prop where
  journal : s.journal = journal
  finished : s.memory.finished = false
  each : ∀ v ∈ views, Reachable v (s.fs v.root).live
    ∧ (∀ p ∈ v.changed, AtCurrent v (s.fs v.root).live p ∨ AtDesired v (s.fs v.root).live p)
    ∧ ∀ p ∈ v.changed, Backed v ((s.fs v.root).candidate.getD ∅) p
  untouched : s.memory.liveTouched = false → CurrentEverywhere views s.lives

namespace Armed

variable {journal : JournalFile} {s : TxState}

theorem restorables (h : Armed views journal s) : Restorables views s := by
  intro v hv
  obtain ⟨hreach, hplaced, hbacked⟩ := h.each v hv
  refine ⟨hreach, ?_⟩
  intro p hp
  exact (hplaced p hp).imp_right fun hd => ⟨hd, hbacked p hp⟩

theorem recoverable {phase : Phase}
    (hphase : phase = .applying ∨ phase = .promoted ∧ receipt ≠ some operationId)
    (h : Armed views (.written ⟨operationId, phase, views⟩) s) :
    Recoverable operationId views receipt s :=
  .moving phase h.journal hphase h.restorables

/-- Promoting a view leaves the transaction armed. -/
theorem setLocal (hroots : (views.map JournalView.root).Nodup) (h : Armed views journal s)
    {v : JournalView} (hv : v ∈ views) {l : Local} (hl : Promoting v (s.toLocal v.root) l) :
    Armed views journal (s.setLocal v.root l) := by
  refine ⟨h.journal, hl.finished.trans h.finished, ?_, ?_⟩
  · refine forall_setLocal hroots (fun v area => Reachable v area.live
      ∧ (∀ p ∈ v.changed, AtCurrent v area.live p ∨ AtDesired v area.live p)
      ∧ ∀ p ∈ v.changed, Backed v (area.candidate.getD ∅) p) hv h.each ?_
    obtain ⟨-, hplaced, hbacked⟩ := h.each v hv
    refine ⟨hl.reachable, ?_, ?_⟩
    · intro p hp
      rcases hl.placed p hp with heq | hd
      · unfold AtCurrent AtDesired
        rw [heq]
        exact hplaced p hp
      · exact Or.inr hd
    · rw [hl.candidate]
      exact hbacked
  · intro htouched
    obtain ⟨hbefore, hsame⟩ := hl.untouched htouched
    have hcur := h.untouched hbefore
    refine forall_setLocal hroots (fun v area => AllCurrent v area.live) hv hcur ?_
    intro p hp
    unfold AtCurrent
    rw [hsame p hp]
    exact hcur v hv p hp

end Armed

/-- A check of a view leaves a transaction as it is. -/
private theorem atView_check_keeps {I : TxState → Prop} (root : Root) (site : TxSite)
    (verdict : Area → Except TxError Unit) : Keeps env I (atView root (check site verdict)) := by
  refine Triple.zoom fun s hs => ?_
  have hkeep : Keeps env (fun l => l = s.toLocal root) (check site verdict) := check_keeps
  refine Triple.weaken hkeep (fun _ hl => hl) ?_ ?_ ?_
  · rintro _ l rfl
    rwa [TxState.setLocal_toLocal]
  · rintro _ l rfl
    rwa [TxState.setLocal_toLocal]
  · rintro l rfl
    rwa [TxState.setLocal_toLocal]

/-- Checks of the views leave a transaction as it is. -/
private theorem checkViews_keeps {ι : Type} {I : TxState → Prop} (root : ι → Root)
    (site : TxSite) (verdict : ι → Area → Except TxError Unit) (xs : List ι) :
    Keeps env I (Prog.forEach (fun x => atView (root x) (check site (verdict x))) xs) :=
  Keeps.forEach fun x _ => atView_check_keeps (root x) site (verdict x)

/-- The guarded part of the promotion. -/
private theorem applyBody_spec (hv : SoundViews views) {t : SelectedTransaction}
    (hviews : t.journalViews = views)
    (verifyCurrent verifyDesired : Root → Tree → Manifest → Bool) :
    Triple env (Armed views (.written ⟨t.operationId, .applying, views⟩))
      (applyBody t verifyCurrent verifyDesired)
      (fun _ s => Armed views (.written ⟨t.operationId, .promoted, views⟩) s
        ∧ DesiredEverywhere views s.lives)
      (fun _ => Armed views (.written ⟨t.operationId, .applying, views⟩))
      (Armed views (.written ⟨t.operationId, .applying, views⟩)) := by
  have hpromote : Triple env (Armed views (.written ⟨t.operationId, .applying, views⟩))
      (Prog.forEach (fun v : JournalView => atView v.root (applyView v)) views)
      (fun _ s => Armed views (.written ⟨t.operationId, .applying, views⟩) s
        ∧ DesiredEverywhere views s.lives)
      (fun _ => Armed views (.written ⟨t.operationId, .applying, views⟩))
      (Armed views (.written ⟨t.operationId, .applying, views⟩)) := by
    refine (Triple.forEach (fun done s =>
      Armed views (.written ⟨t.operationId, .applying, views⟩) s
      ∧ ∀ v ∈ done, AllDesired v (s.fs v.root).live) ?_).weaken ?_ (fun _ _ hs => hs)
      (fun _ _ hs => hs) (fun _ hs => hs)
    · intro done v rest hsplit
      refine Triple.zoom ?_
      rintro s ⟨harmed, hdone⟩
      have hmem : v ∈ views := by
        rw [hsplit]
        exact List.mem_append_right _ List.mem_cons_self
      refine (applyView_spec (hv.uncrossed v hmem) (harmed.each v hmem).1).weaken
        (fun _ hl => hl) ?_ ?_ ?_
      · rintro _ l ⟨hl, hall⟩
        refine ⟨harmed.setLocal hv.roots hmem hl, ?_⟩
        intro w hw
        have hroots := hv.roots
        rw [hsplit, List.map_append, List.map_cons, List.nodup_append] at hroots
        rcases List.mem_append.mp hw with hw | hw
        · have hne : w.root ≠ v.root :=
            hroots.2.2 _ (List.mem_map_of_mem hw) _ List.mem_cons_self
          rw [TxState.setLocal_fs_of_ne _ _ hne]
          exact hdone w hw
        · rw [List.mem_singleton.mp hw, TxState.setLocal_fs_self]
          exact hall
      · exact fun _ l hl => harmed.setLocal hv.roots hmem hl
      · exact fun l hl => harmed.setLocal hv.roots hmem hl
    · exact fun s hs => ⟨hs, by simp⟩
  unfold applyBody
  rw [hviews]
  refine Triple.bind (checkViews_keeps _ _ _ _) fun _ => ?_
  refine Triple.bind hpromote fun _ => ?_
  have hforget : ∀ {α : Type} {m : Tx α},
      Keeps env (fun s => Armed views (.written ⟨t.operationId, .applying, views⟩) s
        ∧ DesiredEverywhere views s.lives) m →
      Triple env (fun s => Armed views (.written ⟨t.operationId, .applying, views⟩) s
        ∧ DesiredEverywhere views s.lives) m
        (fun _ s => Armed views (.written ⟨t.operationId, .applying, views⟩) s
          ∧ DesiredEverywhere views s.lives)
        (fun _ => Armed views (.written ⟨t.operationId, .applying, views⟩))
        (Armed views (.written ⟨t.operationId, .applying, views⟩)) :=
    fun h => Triple.weaken h (fun _ hs => hs) (fun _ _ hs => hs) (fun _ _ hs => hs.1)
      fun _ hs => hs.1
  refine Triple.bind (hforget (checkViews_keeps _ _ _ _)) fun _ => ?_
  refine Triple.bind (hforget (checkViews_keeps _ _ _ _)) fun _ => ?_
  refine Triple.step (fun s hs _ => hs.1) (fun s x hs _ => hs.1) ?_
  rintro s ⟨harmed, hdes⟩
  simp only [harmed.journal, if_true]
  exact ⟨⟨rfl, harmed.finished, harmed.each, harmed.untouched⟩, hdes⟩

/-- **Applying.** A prepared transaction that is applied is promoted with its rollback still at
    hand, or raises with every changed path where it was (unless the environment makes the
    rollback raise), and can be recovered wherever it is stopped. -/
theorem applyTransaction_spec (env : Env TxSite Interruption) (receipt : Option OperationId)
    (hv : SoundViews views) {t : SelectedTransaction}
    (hid : t.operationId = operationId) (hviews : t.journalViews = views)
    (verifyCurrent verifyDesired : Root → Tree → Manifest → Bool) :
    Triple env
      (fun s => Armed views (.written ⟨operationId, .prepared, views⟩) s
        ∧ CurrentEverywhere views s.lives)
      (applyTransaction t verifyCurrent verifyDesired)
      (fun _ s => Armed views (.written ⟨operationId, .promoted, views⟩) s
        ∧ DesiredEverywhere views s.lives)
      (fun _ s => Recoverable operationId views receipt s
        ∧ (CurrentEverywhere views s.lives ∨ env.Raises recoverySite))
      (Recoverable operationId views receipt) := by
  subst hid
  have hunmoved : ∀ s, Armed views (.written ⟨t.operationId, .prepared, views⟩) s →
      CurrentEverywhere views s.lives → Recoverable t.operationId views receipt s := by
    intro s harmed hcur
    exact .unmoved (harmed.journal ▸ .prepared) hcur fun v hmem => (harmed.each v hmem).1
  unfold applyTransaction
  rw [hviews]
  have hwrite : Triple env
      (fun s => Armed views (.written ⟨t.operationId, .prepared, views⟩) s
        ∧ CurrentEverywhere views s.lives)
      (writeJournal .apply t.operationId .applying views)
      (fun _ => Armed views (.written ⟨t.operationId, .applying, views⟩))
      (fun _ s => Recoverable t.operationId views receipt s
        ∧ (CurrentEverywhere views s.lives ∨ env.Raises recoverySite))
      (Recoverable t.operationId views receipt) := by
    refine Triple.step ?_ ?_ ?_
    · exact fun s hs _ => hunmoved s hs.1 hs.2
    · exact fun s x hs _ => ⟨hunmoved s hs.1 hs.2, Or.inl hs.2⟩
    · rintro s ⟨harmed, hcur⟩
      simp only [harmed.journal, if_true]
      exact ⟨rfl, harmed.finished, harmed.each, harmed.untouched⟩
  refine Triple.bind hwrite fun _ => ?_
  refine Triple.tryCatch ((applyBody_spec hv hviews verifyCurrent verifyDesired).weaken
    (fun _ hs => hs) (fun _ _ hs => hs) (fun _ _ hs => hs)
    (fun _ hs => hs.recoverable (Or.inl rfl))) fun e => ?_
  -- the handler: roll back, and raise again
  refine Triple.bind ((rollback_firm hv
    (.written ⟨t.operationId, .applying, views⟩)).weaken ?_ (fun _ _ hs => hs) ?_ ?_) fun _ => ?_
  · exact fun s hs => ⟨hs.finished, hs.journal, hs.restorables, hs.untouched⟩
  · exact fun _ s hs => ⟨hs.1.recoverable (Or.inl rfl), Or.inr hs.2⟩
  · exact fun s hs => hs.recoverable (Or.inl rfl)
  · refine Triple.throw e ?_
    rintro s ⟨hrest, hcur, hj⟩
    exact ⟨.unmoved (hj ▸ .absent) hcur fun v hmem => (hrest v hmem).reachable, Or.inl hcur⟩

/-! ### Preparing -/

/-- The views the journal of a transaction records: the selected ones that change something,
    cropped to what they change. -/
def journalViewsOf (views : List SelectedView) : List JournalView :=
  views.filterMap (fun v => (prepareView v).map PreparedView.toJournalView)

/-- The selected views that change something, each with what is prepared of it. -/
def preparedOf (views : List SelectedView) : List (SelectedView × PreparedView) :=
  views.filterMap (fun v => (prepareView v).map (fun prepared => (v, prepared)))

theorem preparedOf_toJournalView (views : List SelectedView) :
    ((preparedOf views).map Prod.snd).map PreparedView.toJournalView = journalViewsOf views := by
  unfold preparedOf journalViewsOf
  rw [List.map_map, List.map_filterMap]
  refine List.filterMap_congr fun v _ => ?_
  cases prepareView v <;> rfl

theorem root_of_prepareView {v : SelectedView} {prepared : PreparedView}
    (h : prepareView v = some prepared) : prepared.root = v.root := by
  unfold prepareView at h
  dsimp only at h
  split at h
  · cases h
  · cases h
    rfl

/-- Looking at the selected views changes nothing, and finds those that change something. -/
private theorem prepareViews_spec (views : List SelectedView) (priorRoots : List Root)
    (s₀ : TxState) :
    Triple env (fun s => s = s₀) (prepareViews views priorRoots)
      (fun prepared s => s = s₀ ∧ prepared = preparedOf views) (fun _ s => s = s₀)
      (fun s => s = s₀) := by
  induction views generalizing priorRoots with
  | nil => exact Triple.pure [] fun s hs => ⟨hs, rfl⟩
  | cons v rest ih =>
    unfold prepareViews
    refine Triple.guard (fun s hs => hs) fun _ => ?_
    beta_reduce
    cases validateManifest v.current with
    | error w => exact Triple.throw _ fun s hs => hs
    | ok _ =>
      cases validateManifest v.desired with
      | error w => exact Triple.throw _ fun s hs => hs
      | ok _ =>
        have hrest := ih (v.root :: priorRoots)
        cases hprep : prepareView v with
        | none =>
          refine hrest.post ?_
          rintro prepared s ⟨hs, rfl⟩
          exact ⟨hs, by simp [preparedOf, hprep]⟩
        | some prepared =>
          have hfree : Keeps env (fun s => s = s₀)
              (atView v.root (check .prepare (fun area =>
                if area.stage.isSome || area.candidate.isSome then .error .ownedPathExists
                else .ok ()))) := atView_check_keeps _ _ _
          refine Triple.bind hfree fun _ => Triple.bind hrest fun others => ?_
          refine Triple.pure _ ?_
          rintro s ⟨hs, rfl⟩
          exact ⟨hs, by simp [preparedOf, hprep]⟩

@[simp] theorem Area.setOwned_live (area : Area) (tree : Option Tree) (place : Owned) :
    (area.setOwned tree place).live = area.live := by
  cases place <;> rfl

/-- Nothing live has been touched: the live tree is as it was, and the process has not noted
    anything. -/
def Held (live : Tree) (l : Local) : Prop :=
  l.area.live = live ∧ l.memory.liveTouched = false ∧ l.memory.finished = false

private theorem materializeManifest_keeps {live : Tree} (place : Owned) (manifest : Manifest)
    (source : Area → Path → SaveArtifact → Option Content) :
    Keeps env (Held live) (materializeManifest place manifest source) := by
  have hwrite : ∀ path content, Keeps env (Held live) (writeOwned place path content) := by
    intro path content
    refine onArea_keeps ?_
    intro l a area hl hact
    split at hact
    · cases hact
    · split at hact
      · cases hact
        exact ⟨(Area.setOwned_live _ _ _).trans hl.1, hl.2⟩
      · cases hact
  refine Keeps.forEach fun artifact _ => ?_
  refine Keeps.bind (Keeps.forEach fun dir _ => onArea_keeps ?_) fun _ => ?_
  · intro l a area hl hact
    split at hact
    · cases hact
      exact ⟨(Area.setOwned_live _ _ _).trans hl.1, hl.2⟩
    · cases hact
  exact Keeps.bind check_keeps fun _ => Keeps.bind (hwrite _ _) fun _ => hwrite _ _

/-- Staging a view touches nothing live, and ends with the old content in the candidate. -/
private theorem stageView_spec (v : SelectedView) (prepared : PreparedView) (live : Tree) :
    Triple env (Held live) (stageView v prepared)
      (fun _ l => Held live l
        ∧ verifyManifest (l.area.candidate.getD ∅) prepared.current = .ok ())
      (fun _ => Held live) (Held live) := by
  have hmkdir : ∀ place, Keeps env (Held live) (do
      mkdirOwned place
      Prog.silent (fun l => ((), { l with
        memory := { l.memory with createdOwned := l.memory.createdOwned ++ [(v.root, place)] } })))
      := by
    intro place
    refine Keeps.bind (onArea_keeps ?_) fun _ => Keeps.silent fun l hl => hl
    intro l a area hl hact
    split at hact
    · cases hact
      exact ⟨(Area.setOwned_live _ _ _).trans hl.1, hl.2⟩
    · cases hact
  unfold stageView
  refine Triple.bind (Keeps.forEach fun place _ => hmkdir place) fun _ => ?_
  refine Triple.bind (materializeManifest_keeps _ _ _) fun _ => ?_
  refine Triple.bind check_keeps fun _ => ?_
  refine Triple.bind (materializeManifest_keeps _ _ _) fun _ => ?_
  refine Triple.bind check_passed fun _ => ?_
  exact Triple.weaken check_keeps (fun _ hl => hl) (fun _ _ hl => hl) (fun _ _ hl => hl.1)
    fun _ hl => hl.1

/-- No live tree has changed, and the journal says so. -/
def Idle (operationId : OperationId) (views : List JournalView) (lives : Root → Tree)
    (s : TxState) : Prop :=
  s.lives = lives ∧ Early operationId views s.journal

/-- Giving up a preparation touches nothing live. -/
private theorem abortPrepare_spec {lives : Root → Tree} (e : Exn Interruption TxError)
    {Q : SelectedTransaction → TxState → Prop} :
    Triple env (Idle operationId views lives) (abortPrepare e) Q
      (fun _ => Idle operationId views lives) (Idle operationId views lives) := by
  have hremove : ∀ place : Root × Owned, Keeps env (Idle operationId views lives)
      (atView place.1 (removeOwnedTree .abortPrepare place.2)) := by
    intro place
    refine Triple.zoom fun s hs => ?_
    have hback : ∀ l : Local, l.area.live = (s.fs place.1).live →
        Idle operationId views lives (s.setLocal place.1 l) :=
      fun l hl => ⟨(s.lives_setLocal place.1 hl).trans hs.1, hs.2⟩
    refine (removeOwnedTree_spec env .abortPrepare place.2
      (fun l => l.area.live = (s.fs place.1).live) ?_).weaken ?_ ?_ ?_ ?_
    · exact fun l tree hl => (Area.setOwned_live _ _ _).trans hl
    · rintro l rfl
      rfl
    · exact fun _ l hl => hback l hl
    · exact fun e l hl => hback l hl.1
    · exact fun l hl => hback l hl
  unfold abortPrepare
  refine Triple.bind (Triple.look fun s => rfl) fun owned => ?_
  refine Triple.bind (Keeps.collect fun place _ => ?_) fun errors => ?_
  · refine Keeps.tryCatch (Keeps.bind (hremove place) fun _ => Keeps.pure false) fun e' => ?_
    split
    · exact Keeps.pure true
    · exact Keeps.throw e'
  refine Triple.bind (Triple.look fun s => rfl) fun created => ?_
  have hthrow : Triple env (Idle operationId views lives)
      (do if errors.contains true then Prog.throw (.own .cleanupFailed)
          Prog.throw e) Q
      (fun _ => Idle operationId views lives) (Idle operationId views lives) :=
    Triple.guard (fun s hs => hs) fun _ => Triple.throw e fun s hs => hs
  by_cases hretire : (created && !errors.contains true) = true
  · rw [if_pos hretire]
    refine Triple.bind (Triple.step (fun s hs _ => hs) (fun s x hs _ => hs) ?_) fun _ => hthrow
    exact fun s hs => ⟨hs.1, .absent⟩
  · rw [if_neg hretire]
    exact hthrow

/-- Creating the journal: it is missing, half written, or says `preparing`. -/
private theorem createJournal_spec {lives : Root → Tree} (fresh : Memory → Prop) :
    Triple env
      (fun s => s.lives = lives ∧ Early operationId views s.journal ∧ fresh s.memory)
      (createJournal .prepare ⟨operationId, .preparing, views⟩)
      (fun _ s => s.lives = lives ∧ s.journal = .written ⟨operationId, .preparing, views⟩
        ∧ fresh s.memory)
      (fun _ => Idle operationId views lives) (Idle operationId views lives) := by
  unfold createJournal
  refine Triple.cut (fun _ s => s.lives = lives ∧ Early operationId views s.journal
    ∧ fresh s.memory) ?_ fun _ => ?_
  · refine Triple.step (fun s hs _ => ⟨hs.1, hs.2.1⟩) (fun s x hs _ => ⟨hs.1, hs.2.1⟩) ?_
    intro s hs
    cases hj : s.journal with
    | absent => exact ⟨hs.1, .torn, hs.2.2⟩
    | torn => exact ⟨hs.1, hs.2.1⟩
    | written record => exact ⟨hs.1, hs.2.1⟩
  have hfill : Triple env
      (fun s => s.lives = lives ∧ Early operationId views s.journal ∧ fresh s.memory)
      (Prog.step .prepare (fun s : TxState =>
        .ok ((), { s with journal := .written ⟨operationId, .preparing, views⟩ })) : Tx Unit)
      (fun _ s => s.lives = lives ∧ s.journal = .written ⟨operationId, .preparing, views⟩
        ∧ fresh s.memory)
      (fun _ => Idle operationId views lives) (Idle operationId views lives) := by
    refine Triple.step (fun s hs _ => ⟨hs.1, hs.2.1⟩) (fun s x hs _ => ⟨hs.1, hs.2.1⟩) ?_
    exact fun s hs => ⟨hs.1, rfl, hs.2.2⟩
  refine Triple.tryCatch hfill fun e => ?_
  -- the handler removes what has been created
  have hremove : Keeps env (Idle operationId views lives)
      (Prog.tryCatch
        (Prog.step .prepare (fun s : TxState => .ok ((), { s with journal := .absent })))
        (fun e' => if e' = .external .osError then pure () else Prog.throw e') : Tx Unit) := by
    refine Keeps.tryCatch (Keeps.step ?_) fun e' => ?_
    · intro s a t hs hact
      cases hact
      exact ⟨hs.1, .absent⟩
    · split
      · exact Keeps.pure ()
      · exact Keeps.throw e'
  exact Triple.bind hremove fun _ => Triple.throw e fun s hs => hs

/-- Staging all views: no live tree changes, and every candidate holds the old content. -/
private theorem stageViews_spec {prepared : List (SelectedView × PreparedView)}
    (hroot : ∀ pair ∈ prepared, pair.1.root = pair.2.root)
    (hroots : (prepared.map (fun pair => pair.2.root)).Nodup) {lives : Root → Tree}
    {journal : JournalFile} :
    Triple env
      (fun s => s.lives = lives ∧ s.journal = journal ∧ s.memory.liveTouched = false
        ∧ s.memory.finished = false)
      (Prog.forEach (fun pair => atView pair.1.root (stageView pair.1 pair.2)) prepared)
      (fun _ s => (s.lives = lives ∧ s.journal = journal ∧ s.memory.liveTouched = false
        ∧ s.memory.finished = false)
        ∧ ∀ pair ∈ prepared,
          verifyManifest ((s.fs pair.2.root).candidate.getD ∅) pair.2.current = .ok ())
      (fun _ s => s.lives = lives ∧ s.journal = journal)
      (fun s => s.lives = lives ∧ s.journal = journal) := by
  refine (Triple.forEach (fun done s => (s.lives = lives ∧ s.journal = journal
    ∧ s.memory.liveTouched = false ∧ s.memory.finished = false)
    ∧ ∀ pair ∈ done,
      verifyManifest ((s.fs pair.2.root).candidate.getD ∅) pair.2.current = .ok ()) ?_).weaken
    ?_ (fun _ _ hs => hs) (fun _ _ hs => hs) (fun _ hs => hs)
  · intro done pair rest hsplit
    have hmem : pair ∈ prepared := by
      rw [hsplit]
      exact List.mem_append_right _ List.mem_cons_self
    rw [hroot pair hmem]
    refine Triple.zoom ?_
    rintro s ⟨⟨hlives, hjournal, htouched, hfinished⟩, hdone⟩
    have hback : ∀ l : Local, Held (s.fs pair.2.root).live l →
        (s.setLocal pair.2.root l).lives = lives :=
      fun l hl => (s.lives_setLocal pair.2.root hl.1).trans hlives
    refine (stageView_spec pair.1 pair.2 (s.fs pair.2.root).live).weaken ?_ ?_ ?_ ?_
    · rintro l rfl
      exact ⟨rfl, htouched, hfinished⟩
    · rintro _ l ⟨hl, hverify⟩
      refine ⟨⟨hback l hl, hjournal, hl.2.1, hl.2.2⟩, ?_⟩
      intro other hother
      rcases List.mem_append.mp hother with hother | hother
      · have hne : other.2.root ≠ pair.2.root := by
          rw [hsplit, List.map_append, List.map_cons, List.nodup_append] at hroots
          exact hroots.2.2 _ (List.mem_map_of_mem hother) _ List.mem_cons_self
        rw [TxState.setLocal_fs_of_ne _ _ hne]
        exact hdone other hother
      · rw [List.mem_singleton.mp hother, TxState.setLocal_fs_self]
        exact hverify
    · exact fun _ l hl => ⟨hback l hl, hjournal⟩
    · exact fun l hl => ⟨hback l hl, hjournal⟩
  · exact fun s hs => ⟨hs, by simp⟩

/-- **Preparing.** When it returns, the journal says `prepared` and every candidate holds the old
    content; until then no live tree changes. -/
theorem prepareTransaction_spec (env : Env TxSite Interruption) (selected : List SelectedView)
    (operationId : OperationId) (lives : Root → Tree) (hroots : ((journalViewsOf selected).map JournalView.root).Nodup) :
    Triple env (fun s => s.lives = lives ∧ s.journal = .absent)
      (prepareTransaction selected operationId)
      (fun t s => t.operationId = operationId ∧ t.journalViews = journalViewsOf selected
        ∧ s.lives = lives
        ∧ s.journal = .written ⟨operationId, .prepared, journalViewsOf selected⟩
        ∧ s.memory.liveTouched = false ∧ s.memory.finished = false
        ∧ ∀ v ∈ journalViewsOf selected,
          verifyManifest ((s.fs v.root).candidate.getD ∅) v.current = .ok ())
      (fun _ => Idle operationId (journalViewsOf selected) lives)
      (Idle operationId (journalViewsOf selected) lives) := by
  let views := journalViewsOf selected
  let fresh : Memory → Prop := fun m => m.liveTouched = false ∧ m.finished = false
  have hidle : ∀ s, s.lives = lives ∧ s.journal = .absent →
      Idle operationId (journalViewsOf selected) lives s := by
    intro s hs
    exact ⟨hs.1, hs.2 ▸ .absent⟩
  unfold prepareTransaction
  refine Triple.guard hidle fun _ => Triple.guard hidle fun _ => ?_
  have hfree : Triple env (fun s => s.lives = lives ∧ s.journal = .absent)
      (Prog.step .prepare (fun s : TxState =>
        if s.journal = .absent then .ok ((), s) else .error TxError.journalExists))
      (fun _ s => s.lives = lives ∧ s.journal = .absent)
      (fun _ => Idle operationId (journalViewsOf selected) lives)
      (Idle operationId (journalViewsOf selected) lives) := by
    refine Triple.step (fun s hs _ => hidle s hs) (fun s x hs _ => hidle s hs) ?_
    intro s hs
    rw [if_pos hs.2]
    exact hs
  refine Triple.bind hfree fun _ => ?_
  have hreset : Triple env (fun s => s.lives = lives ∧ s.journal = .absent)
      (remember (fun _ => ⟨false, false, false, []⟩))
      (fun _ s => s.lives = lives ∧ Early operationId (journalViewsOf selected) s.journal
        ∧ fresh s.memory)
      (fun _ => Idle operationId (journalViewsOf selected) lives)
      (Idle operationId (journalViewsOf selected) lives) :=
    Triple.silent fun s hs => ⟨hs.1, hs.2 ▸ .absent, rfl, rfl⟩
  refine Triple.bind hreset fun _ => ?_
  refine Triple.tryCatch ?_ fun e => abortPrepare_spec e
  have hlook : Triple env
      (fun s => s.lives = lives ∧ Early operationId (journalViewsOf selected) s.journal
        ∧ fresh s.memory)
      (prepareViews selected [])
      (fun prepared s => (s.lives = lives ∧ Early operationId (journalViewsOf selected) s.journal
        ∧ fresh s.memory) ∧ prepared = preparedOf selected)
      (fun _ => Idle operationId (journalViewsOf selected) lives)
      (Idle operationId (journalViewsOf selected) lives) := by
    refine Triple.ofState ?_
    intro s₀ hs₀
    refine (prepareViews_spec selected [] s₀).weaken (fun _ hs => hs) ?_ ?_ ?_
    · exact fun prepared s hs => ⟨hs.1 ▸ hs₀, hs.2⟩
    · exact fun _ s hs => hs ▸ ⟨hs₀.1, hs₀.2.1⟩
    · exact fun s hs => hs ▸ ⟨hs₀.1, hs₀.2.1⟩
  refine Triple.bind hlook fun prepared => Triple.ofState ?_
  rintro s₀ ⟨hs₀, rfl⟩
  refine Triple.guard (fun s hs => hs ▸ ⟨hs₀.1, hs₀.2.1⟩) fun _ => ?_
  beta_reduce
  have hviews : SelectedTransaction.journalViews ⟨operationId, (preparedOf selected).map Prod.snd⟩
      = journalViewsOf selected := preparedOf_toJournalView selected
  have hwritten : ∀ phase, phase = .preparing ∨ phase = .prepared → ∀ s,
      s.lives = lives ∧ s.journal = .written ⟨operationId, phase, journalViewsOf selected⟩ →
      Idle operationId (journalViewsOf selected) lives s := by
    rintro phase hphase s ⟨hlives, hj⟩
    refine ⟨hlives, hj ▸ ?_⟩
    rcases hphase with rfl | rfl
    · exact .preparing
    · exact .prepared
  simp only [hviews]
  refine Triple.bind ((createJournal_spec fresh).pre (fun s hs => hs ▸ hs₀)) fun _ => ?_
  have hnote : Triple env
      (fun s => s.lives = lives
        ∧ s.journal = .written ⟨operationId, .preparing, journalViewsOf selected⟩ ∧ fresh s.memory)
      (remember (fun m => { m with journalCreated := true }))
      (fun _ s => s.lives = lives
        ∧ s.journal = .written ⟨operationId, .preparing, journalViewsOf selected⟩ ∧ fresh s.memory)
      (fun _ => Idle operationId (journalViewsOf selected) lives)
      (Idle operationId (journalViewsOf selected) lives) := Triple.silent fun s hs => hs
  refine Triple.bind hnote fun _ => ?_
  have hpair : ∀ pair ∈ preparedOf selected, prepareView pair.1 = some pair.2 := by
    intro pair hpair
    obtain ⟨v, -, hv⟩ := List.mem_filterMap.mp hpair
    obtain ⟨prepared, hprep, rfl⟩ := Option.map_eq_some_iff.mp hv
    exact hprep
  have hpairs : (preparedOf selected).map (fun pair => pair.2.root)
      = (journalViewsOf selected).map JournalView.root := by
    rw [← preparedOf_toJournalView, List.map_map, List.map_map]
    rfl
  refine Triple.bind ((stageViews_spec ?_ (hpairs ▸ hroots)).weaken (fun _ hs => hs)
    (fun _ _ hs => hs) (fun _ s hs => hwritten .preparing (Or.inl rfl) s hs)
    (fun s hs => hwritten .preparing (Or.inl rfl) s hs)) fun _ => ?_
  · exact fun pair hin => (root_of_prepareView (hpair pair hin)).symm
  have hwrite : Triple env
      (fun s => (s.lives = lives
        ∧ s.journal = .written ⟨operationId, .preparing, journalViewsOf selected⟩
        ∧ s.memory.liveTouched = false ∧ s.memory.finished = false)
        ∧ ∀ pair ∈ preparedOf selected,
          verifyManifest ((s.fs pair.2.root).candidate.getD ∅) pair.2.current = .ok ())
      (writeJournal .prepare operationId .prepared (journalViewsOf selected))
      (fun _ s => s.lives = lives
        ∧ s.journal = .written ⟨operationId, .prepared, journalViewsOf selected⟩
        ∧ s.memory.liveTouched = false ∧ s.memory.finished = false
        ∧ ∀ v ∈ journalViewsOf selected,
          verifyManifest ((s.fs v.root).candidate.getD ∅) v.current = .ok ())
      (fun _ => Idle operationId (journalViewsOf selected) lives)
      (Idle operationId (journalViewsOf selected) lives) := by
    refine Triple.step ?_ ?_ ?_
    · exact fun s hs _ => hwritten .preparing (Or.inl rfl) s ⟨hs.1.1, hs.1.2.1⟩
    · exact fun s x hs _ => hwritten .preparing (Or.inl rfl) s ⟨hs.1.1, hs.1.2.1⟩
    · rintro s ⟨⟨hlives, hj, htouched, hfinished⟩, hverify⟩
      simp only [hj, if_true]
      refine ⟨hlives, trivial, htouched, hfinished, ?_⟩
      intro v hv
      rw [← preparedOf_toJournalView] at hv
      obtain ⟨prepared, hprep, rfl⟩ := List.mem_map.mp hv
      obtain ⟨pair, hin, rfl⟩ := List.mem_map.mp hprep
      exact hverify pair hin
  refine Triple.bind hwrite fun _ => Triple.pure _ ?_
  exact fun s hs => ⟨rfl, hviews, hs⟩

end RomCloud.SaveSync.Transaction
