import RomCloud.SaveSync.TransactionLifecycle

namespace RomCloud.SaveSync.Transaction

open RomCloud.Lib

/-!
# Selected transactions are all or nothing

A **session** is what a caller does with one transaction: prepare it, apply it, store its
completion receipt in the SaveSync state and finalize it, or roll it back (`Ending`).  After a
session that was stopped anywhere, `recoverSession` runs, itself possibly stopped and run again.

`transaction_all_or_nothing` is the result, under the conditions the code needs: no file becomes
a directory (`NoFileBecomesDirectory`), nothing the manifests leave out stands in the way
(`Describes`), and no rollback runs once the receipt is stored.
`transaction_stuck_on_file_to_directory` is what happens otherwise.
-/

/-! ### Sessions -/

/-- The durable state around a transaction: the file system with the journal, and
    `last_completed_operation_id` of the SaveSync state. -/
structure SessionState where
  tx : TxState
  receipt : Option OperationId

inductive SessionSite
  | tx (site : TxSite)
  | receipt
deriving DecidableEq

abbrev Session (α : Type) := Prog SessionSite Interruption TxError SessionState α

/-- A transaction program as a part of a session. -/
def inTx {α : Type} (m : Tx α) : Session α :=
  Prog.zoom .tx SessionState.tx (fun tx s => { s with tx := tx }) m

/-- Store the completion receipt: an atomic replacement of the state file. -/
def storeReceipt (operationId : OperationId) : Session Unit :=
  Prog.step .receipt (fun s => .ok ((), { s with receipt := some operationId }))

/-- How a caller ends a prepared transaction. -/
inductive Ending
  /-- Roll it back before applying it. -/
  | discard
  /-- Apply it, and roll it back before the receipt is stored. -/
  | undo
  /-- Apply it, store the receipt and finalize it. -/
  | complete
  /-- Apply it, store the receipt and roll it back all the same. -/
  | revoke
deriving DecidableEq

/-- The life of one transaction in its caller's hands. -/
def session (views : List SelectedView) (operationId : OperationId)
    (verifyCurrent verifyDesired : Root → Tree → Manifest → Bool) (ending : Ending) :
    Session Unit := do
  let t ← inTx (prepareTransaction views operationId)
  match ending with
  | .discard => inTx (rollback t.journalViews)
  | .undo => do
    inTx (applyTransaction t verifyCurrent verifyDesired)
    inTx (rollback t.journalViews)
  | .complete => do
    inTx (applyTransaction t verifyCurrent verifyDesired)
    storeReceipt operationId
    inTx (finalize t.journalViews)
  | .revoke => do
    inTx (applyTransaction t verifyCurrent verifyDesired)
    storeReceipt operationId
    inTx (rollback t.journalViews)

/-- `_recover`: `recover_transaction` with the stored receipt. -/
def recoverSession (allowedRoots : List Root) : Session Bool := do
  let receipt ← Prog.silent (fun s => (s.receipt, s))
  inTx (recoverTransaction allowedRoots receipt)

/-! ### Views that describe real trees -/

/-- The manifests of a view describe real file trees, the current one the tree at its root:
    what it lists stands there, what only the other one lists does not, and nothing but
    directories and listed files stands above a path. -/
structure Describes (v : SelectedView) (live : Tree) : Prop where
  listed : ∀ p a, v.current.get? p = some a → verifyOne (live.get? p) a = true ∧ live.HasParents p
  unlisted : ∀ p ∈ v.desired.paths, v.current.get? p = none → live.get? p = none
  above : ∀ p ∈ v.desired.paths, ∀ dir ∈ ancestors p,
    live.get? dir = none ∨ live.get? dir = some .directory ∨ dir ∈ v.current.paths
  desiredTree : ∀ p ∈ v.desired.paths, ∀ q ∈ v.desired.paths, p ∉ ancestors q

/-- No path that is a file now becomes a parent directory. -/
def NoFileBecomesDirectory (v : SelectedView) : Prop :=
  ∀ p ∈ v.current.paths, ∀ q ∈ v.desired.paths, p ∉ ancestors q

/-- Every path a view changes holds what its current manifest says. -/
def HoldsCurrent (views : List SelectedView) (lives : Root → Tree) : Prop :=
  ∀ v ∈ views, ∀ p ∈ changedPaths v.current v.desired,
    pathMatches ((lives v.root).get? p) (v.current.get? p) = true

/-- Every path a view changes holds what its desired manifest says. -/
def HoldsDesired (views : List SelectedView) (lives : Root → Tree) : Prop :=
  ∀ v ∈ views, ∀ p ∈ changedPaths v.current v.desired,
    pathMatches ((lives v.root).get? p) (v.desired.get? p) = true

/-- What is prepared of a view: its root, and its manifests cropped to what they change. -/
private theorem mem_journalViewsOf_iff (views : List SelectedView) (w : JournalView) :
    w ∈ journalViewsOf views ↔ ∃ v ∈ views, changedPaths v.current v.desired ≠ [] ∧ w =
      ⟨v.root, v.current.restrict (fun p => (changedPaths v.current v.desired).contains p),
        v.desired.restrict (fun p => (changedPaths v.current v.desired).contains p)⟩ := by
  unfold journalViewsOf
  rw [List.mem_filterMap]
  refine exists_congr fun v => and_congr_right fun _ => ?_
  unfold prepareView
  by_cases hchanged : changedPaths v.current v.desired = []
  · simp [hchanged]
  · simp [hchanged, eq_comm]

/-- Cropping the manifests to what they change does not change what they change. -/
private theorem mem_changed_cropped_iff (root : Root) (current desired : Manifest) (p : Path) :
    p ∈ JournalView.changed ⟨root,
      current.restrict (fun q => (changedPaths current desired).contains q),
      desired.restrict (fun q => (changedPaths current desired).contains q)⟩
      ↔ p ∈ changedPaths current desired := by
  unfold JournalView.changed
  rw [mem_changedPaths_iff, Manifest.get?_restrict, Manifest.get?_restrict]
  by_cases hp : p ∈ changedPaths current desired
  · rw [if_pos (List.contains_iff_mem.mpr hp), if_pos (List.contains_iff_mem.mpr hp),
      ← mem_changedPaths_iff]
  · rw [if_neg (fun h => hp (List.contains_iff_mem.mp h)),
      if_neg (fun h => hp (List.contains_iff_mem.mp h))]
    exact iff_of_false (by simp [sameContent]) hp

/-- Every changed path of every journalled view holds one of two artifacts, in the words of the
    selected views. -/
private theorem forall_journalViewsOf_iff (views : List SelectedView) (lives : Root → Tree)
    (pick : Manifest → Manifest → Manifest)
    (hpick : ∀ keep current desired, pick (Manifest.restrict current keep)
      (Manifest.restrict desired keep) = (pick current desired).restrict keep) :
    (∀ w ∈ journalViewsOf views, ∀ p ∈ w.changed,
      pathMatches ((lives w.root).get? p) ((pick w.current w.desired).get? p) = true)
    ↔ ∀ v ∈ views, ∀ p ∈ changedPaths v.current v.desired,
      pathMatches ((lives v.root).get? p) ((pick v.current v.desired).get? p) = true := by
  constructor
  · intro h v hv p hp
    have hne : changedPaths v.current v.desired ≠ [] := List.ne_nil_of_mem hp
    have hw := h _ ((mem_journalViewsOf_iff views _).mpr ⟨v, hv, hne, rfl⟩) p
      ((mem_changed_cropped_iff v.root v.current v.desired p).mpr hp)
    dsimp only at hw
    rw [hpick, Manifest.get?_restrict, if_pos (List.contains_iff_mem.mpr hp)] at hw
    exact hw
  · intro h w hw p hp
    obtain ⟨v, hv, -, rfl⟩ := (mem_journalViewsOf_iff views w).mp hw
    have hp' := (mem_changed_cropped_iff v.root v.current v.desired p).mp hp
    dsimp only
    rw [hpick, Manifest.get?_restrict, if_pos (List.contains_iff_mem.mpr hp')]
    exact h v hv p hp'

theorem currentEverywhere_iff (views : List SelectedView) (lives : Root → Tree) :
    CurrentEverywhere (journalViewsOf views) lives ↔ HoldsCurrent views lives :=
  forall_journalViewsOf_iff views lives (fun current _ => current) fun _ _ _ => rfl

theorem desiredEverywhere_iff (views : List SelectedView) (lives : Root → Tree) :
    DesiredEverywhere (journalViewsOf views) lives ↔ HoldsDesired views lives :=
  forall_journalViewsOf_iff views lives (fun _ desired => desired) fun _ _ _ => rfl

/-- A changed path is listed by one of the manifests. -/
private theorem mem_paths_of_mem_changedPaths {current desired : Manifest} {p : Path}
    (h : p ∈ changedPaths current desired) : p ∈ current.paths ∨ p ∈ desired.paths := by
  unfold changedPaths at h
  rw [List.mem_filter, mem_sortedSet, List.mem_append] at h
  exact h.1

/-- A file and a directory do not stand at one path. -/
private theorem Describes.not_above {v : SelectedView} {live : Tree} (h : Describes v live)
    {p q : Path} (hp : p ∈ v.current.paths) (hq : q ∈ v.current.paths) : p ∉ ancestors q := by
  intro hanc
  obtain ⟨a, ha⟩ := (v.current.mem_paths_iff p).mp hp
  obtain ⟨b, hb⟩ := (v.current.mem_paths_iff q).mp hq
  have hverify := (h.listed p a ha).1
  rw [(h.listed q b hb).2 p hanc] at hverify
  exact absurd hverify (by simp [verifyOne])

/-- Two paths that one of the manifests lists do not lie above each other. -/
private theorem Describes.uncrossed {v : SelectedView} {live : Tree} (h : Describes v live)
    (hfiles : NoFileBecomesDirectory v) {p q : Path}
    (hp : p ∈ changedPaths v.current v.desired) (hq : q ∈ changedPaths v.current v.desired) :
    p ∉ ancestors q := by
  intro hanc
  by_cases hpc : p ∈ v.current.paths
  · rcases mem_paths_of_mem_changedPaths hq with hqc | hqd
    · exact h.not_above hpc hqc hanc
    · exact hfiles p hpc q hqd hanc
  · have hpd : p ∈ v.desired.paths := (mem_paths_of_mem_changedPaths hp).resolve_left hpc
    rcases mem_paths_of_mem_changedPaths hq with hqc | hqd
    · -- `p` would stand above a listed file, but nothing stands at `p`
      obtain ⟨b, hb⟩ := (v.current.mem_paths_iff q).mp hqc
      have hdir := (h.listed q b hb).2 p hanc
      rw [h.unlisted p hpd ((v.current.get?_eq_none_iff p).mpr hpc)] at hdir
      exact absurd hdir (by simp)
    · exact h.desiredTree p hpd q hqd hanc

private theorem Describes.reachable {v : SelectedView} {live : Tree} (h : Describes v live)
    (hfiles : NoFileBecomesDirectory v) {p : Path}
    (hp : p ∈ changedPaths v.current v.desired) : live.Open p := by
  rcases mem_paths_of_mem_changedPaths hp with hpc | hpd
  · obtain ⟨a, ha⟩ := (v.current.mem_paths_iff p).mp hpc
    exact (h.listed p a ha).2.isOpen
  · intro dir hdir
    rcases h.above p hpd dir hdir with hnone | hsome | hlisted
    · exact Or.inl hnone
    · exact Or.inr hsome
    · exact absurd hdir (hfiles dir hlisted p hpd)

private theorem Describes.holdsCurrent {v : SelectedView} {live : Tree} (h : Describes v live)
    {p : Path} (hp : p ∈ changedPaths v.current v.desired) :
    pathMatches (live.get? p) (v.current.get? p) = true := by
  cases hget : v.current.get? p with
  | some a => exact (h.listed p a hget).1
  | none =>
    have hpd : p ∈ v.desired.paths := (mem_paths_of_mem_changedPaths hp).resolve_left
      ((v.current.get?_eq_none_iff p).mp hget)
    rw [h.unlisted p hpd hget]
    rfl

/-- Views with distinct roots that describe real trees, with no file becoming a directory, are
    sound, and every changed path can be reached. -/
private theorem soundViews_of_describes {views : List SelectedView} {lives : Root → Tree}
    (hroots : (views.map SelectedView.root).Nodup)
    (hdescribes : ∀ v ∈ views, Describes v (lives v.root))
    (hfiles : ∀ v ∈ views, NoFileBecomesDirectory v) :
    SoundViews (journalViewsOf views) ∧ ReachableEverywhere (journalViewsOf views) lives := by
  refine ⟨⟨?_, ?_, ?_⟩, ?_⟩
  · refine hroots.sublist ?_
    have hmap : (journalViewsOf views).map JournalView.root
        = (views.filter (fun v => (prepareView v).isSome)).map SelectedView.root := by
      unfold journalViewsOf
      clear hroots hdescribes hfiles
      induction views with
      | nil => rfl
      | cons v rest ih =>
        cases hprep : prepareView v with
        | none => simpa [hprep] using ih
        | some prepared => simpa [hprep, root_of_prepareView hprep] using ih
    rw [hmap]
    exact (List.filter_sublist).map _
  · intro w hw p hp q hq
    obtain ⟨v, hv, -, rfl⟩ := (mem_journalViewsOf_iff views w).mp hw
    exact (hdescribes v hv).uncrossed (hfiles v hv)
      ((mem_changed_cropped_iff _ _ _ p).mp hp) ((mem_changed_cropped_iff _ _ _ q).mp hq)
  · intro w hw p hp
    obtain ⟨v, hv, -, rfl⟩ := (mem_journalViewsOf_iff views w).mp hw
    refine (mem_changed_cropped_iff _ _ _ p).mpr ?_
    by_contra hnot
    refine hp ?_
    dsimp only
    rw [Manifest.get?_restrict, if_neg (fun h => hnot (List.contains_iff_mem.mp h))]
  · intro w hw p hp
    obtain ⟨v, hv, -, rfl⟩ := (mem_journalViewsOf_iff views w).mp hw
    exact (hdescribes v hv).reachable (hfiles v hv) ((mem_changed_cropped_iff _ _ _ p).mp hp)

/-! ### What a session can be stopped in -/

/-- The transaction's part of an environment of sessions. -/
def txEnv (env : Env SessionSite Interruption) : Env TxSite Interruption :=
  fun n site => env n (.tx site)

variable {env : Env SessionSite Interruption}

/-- A transaction program in a session leaves the receipt alone. -/
private theorem inTx_spec {α : Type} {m : Tx α} {P : TxState → Prop} {Q : α → TxState → Prop}
    {E : Exn Interruption TxError → TxState → Prop} {C : TxState → Prop}
    (h : Triple (txEnv env) P m Q E C) (receipt : Option OperationId) :
    Triple env (fun s => P s.tx ∧ s.receipt = receipt) (inTx m)
      (fun a s => Q a s.tx ∧ s.receipt = receipt) (fun e s => E e s.tx ∧ s.receipt = receipt)
      (fun s => C s.tx ∧ s.receipt = receipt) := by
  refine Triple.zoom fun s hs => ?_
  refine Triple.weaken h ?_ (fun _ _ ht => ⟨ht, hs.2⟩) (fun _ _ ht => ⟨ht, hs.2⟩)
    (fun _ ht => ⟨ht, hs.2⟩)
  rintro t rfl
  exact hs.1

/-- The state can be recovered with the receipt that is stored. -/
def RecoverableSession (operationId : OperationId) (views : List JournalView)
    (s : SessionState) : Prop :=
  Recoverable operationId views s.receipt s.tx

theorem backed_of_verifyManifest {v : JournalView} {tree : Tree}
    (h : verifyManifest tree v.current = .ok ()) (p : Path) : Backed v tree p := by
  intro a ha
  unfold verifyManifest at h
  split at h
  · cases h
  · next hopen =>
    split at h
    · cases h
    · next hverify =>
      rw [Bool.not_eq_true', Bool.not_eq_false] at hopen hverify
      have hp : p ∈ v.current.paths := (v.current.mem_paths_iff p).mpr ⟨a, ha⟩
      refine ⟨of_decide_eq_true (List.all_eq_true.mp hopen p hp), ?_⟩
      have hone := List.all_eq_true.mp hverify a (Manifest.mem_artifacts_of_get? ha)
      rwa [Manifest.relativePath_of_get? ha] at hone

/-- A transaction that has just been prepared is armed. -/
private theorem armed_of_prepared {views : List JournalView} {operationId : OperationId}
    {lives : Root → Tree} {s : TxState} (hlives : s.lives = lives)
    (hjournal : s.journal = .written ⟨operationId, .prepared, views⟩)
    (hfinished : s.memory.finished = false)
    (hverify : ∀ v ∈ views, verifyManifest ((s.fs v.root).candidate.getD ∅) v.current = .ok ())
    (hreach : ReachableEverywhere views lives) (hcur : CurrentEverywhere views lives) :
    Armed views (.written ⟨operationId, .prepared, views⟩) s
      ∧ CurrentEverywhere views s.lives := by
  subst hlives
  refine ⟨⟨hjournal, hfinished, ?_, fun _ => hcur⟩, hcur⟩
  intro v hmem
  exact ⟨hreach v hmem, fun p hp => Or.inl (hcur v hmem p hp),
    fun p _ => backed_of_verifyManifest (hverify v hmem) p⟩

/-- **Sessions.** Unless it rolls back after storing the receipt, a session can be recovered
    wherever it is stopped. -/
private theorem session_spec (env : Env SessionSite Interruption) {views : List SelectedView}
    {operationId : OperationId}
    (verifyCurrent verifyDesired : Root → Tree → Manifest → Bool) {ending : Ending}
    {s₀ : SessionState} (hv : SoundViews (journalViewsOf views))
    (hreach : ReachableEverywhere (journalViewsOf views) s₀.tx.lives)
    (hcur : CurrentEverywhere (journalViewsOf views) s₀.tx.lives)
    (hjournal : s₀.tx.journal = .absent) (hreceipt : s₀.receipt ≠ some operationId)
    (hending : ending ≠ .revoke) :
    Triple env (fun s => s = s₀) (session views operationId verifyCurrent verifyDesired ending)
      (fun _ => RecoverableSession operationId (journalViewsOf views))
      (fun _ => RecoverableSession operationId (journalViewsOf views))
      (RecoverableSession operationId (journalViewsOf views)) := by
  have hidle : ∀ s : SessionState,
      Idle operationId (journalViewsOf views) s₀.tx.lives s.tx ∧ s.receipt = s₀.receipt →
      RecoverableSession operationId (journalViewsOf views) s := by
    rintro s ⟨⟨hlives, hearly⟩, -⟩
    exact .unmoved hearly (hlives ▸ hcur) (hlives ▸ hreach)
  unfold session
  refine Triple.bind ((inTx_spec (prepareTransaction_spec (txEnv env) views operationId
    s₀.tx.lives hv.roots) s₀.receipt).weaken ?_ (fun _ _ hs => hs) (fun _ s hs => hidle s hs)
    (fun s hs => hidle s hs)) fun t => ?_
  · rintro s rfl
    exact ⟨⟨rfl, hjournal⟩, rfl⟩
  refine Triple.ofState ?_
  rintro s₁ ⟨⟨hid, hviews, hlives, hj, htouched, hfinished, hverify⟩, hr⟩
  rw [hviews]
  have hready := armed_of_prepared hlives hj hfinished hverify hreach hcur
  have happly : Triple env (fun s => s = s₁)
      (inTx (applyTransaction t verifyCurrent verifyDesired))
      (fun _ s => (Armed (journalViewsOf views)
          (.written ⟨operationId, .promoted, journalViewsOf views⟩) s.tx
        ∧ DesiredEverywhere (journalViewsOf views) s.tx.lives) ∧ s.receipt = s₀.receipt)
      (fun _ => RecoverableSession operationId (journalViewsOf views))
      (RecoverableSession operationId (journalViewsOf views)) := by
    refine (inTx_spec (applyTransaction_spec (txEnv env) s₀.receipt hv hid hviews verifyCurrent
      verifyDesired) s₀.receipt).weaken ?_ (fun _ _ hs => hs) ?_ ?_
    · rintro s rfl
      exact ⟨hready, hr⟩
    · rintro e s ⟨⟨hrec, -⟩, hreceipt'⟩
      unfold RecoverableSession
      rw [hreceipt']
      exact hrec
    · rintro s ⟨hrec, hreceipt'⟩
      unfold RecoverableSession
      rw [hreceipt']
      exact hrec
  cases ending with
  | revoke => exact absurd rfl hending
  | discard =>
    -- nothing has moved: the rollback only cleans up
    have hrollback := inTx_spec (rollback_untouched_spec (journalViewsOf views) s₀.tx.lives
      (.written ⟨operationId, .prepared, journalViewsOf views⟩) : Triple (txEnv env) _ _ _ _ _)
      s₀.receipt
    refine hrollback.weaken ?_ ?_ ?_ ?_
    · rintro s rfl
      exact ⟨⟨hlives, hj, htouched, hfinished⟩, hr⟩
    · rintro _ s ⟨⟨hl, habsent⟩, hr'⟩
      exact hidle s ⟨⟨hl, habsent ▸ .absent⟩, hr'⟩
    · rintro _ s ⟨⟨⟨hl, hprepared⟩, -⟩, hr'⟩
      exact hidle s ⟨⟨hl, hprepared ▸ .prepared⟩, hr'⟩
    · rintro s ⟨⟨hl, hprepared⟩, hr'⟩
      exact hidle s ⟨⟨hl, hprepared ▸ .prepared⟩, hr'⟩
  | undo =>
    -- the receipt is not stored, so a recovery would roll back as well
    refine Triple.bind happly fun _ => ?_
    have hphase : Phase.promoted = .applying ∨ Phase.promoted = .promoted
        ∧ s₀.receipt ≠ some operationId := Or.inr ⟨rfl, hreceipt⟩
    refine (inTx_spec (rollback_firm hv
      (.written ⟨operationId, .promoted, journalViewsOf views⟩)) s₀.receipt).weaken ?_ ?_ ?_ ?_
    · rintro s ⟨⟨harmed, -⟩, hr'⟩
      exact ⟨⟨harmed.finished, harmed.journal, harmed.restorables, harmed.untouched⟩, hr'⟩
    · rintro _ s ⟨⟨hrest, hcur', habsent⟩, -⟩
      exact .unmoved (habsent ▸ .absent) hcur' fun v hmem => (hrest v hmem).reachable
    · rintro _ s ⟨⟨hrolling, -⟩, hr'⟩
      unfold RecoverableSession
      rw [hr']
      exact hrolling.recoverable hphase
    · rintro s ⟨hrolling, hr'⟩
      unfold RecoverableSession
      rw [hr']
      exact hrolling.recoverable hphase
  | complete =>
    refine Triple.bind happly fun _ => ?_
    have hpromoted : ∀ s : SessionState, (Armed (journalViewsOf views)
        (.written ⟨operationId, .promoted, journalViewsOf views⟩) s.tx
        ∧ DesiredEverywhere (journalViewsOf views) s.tx.lives) ∧ s.receipt = s₀.receipt →
        RecoverableSession operationId (journalViewsOf views) s := by
      rintro s ⟨⟨harmed, -⟩, hr'⟩
      exact harmed.recoverable (Or.inr ⟨rfl, hr' ▸ hreceipt⟩)
    -- storing the receipt turns a transaction to roll back into a complete one
    have hstore : Triple env (fun s : SessionState => (Armed (journalViewsOf views)
          (.written ⟨operationId, .promoted, journalViewsOf views⟩) s.tx
        ∧ DesiredEverywhere (journalViewsOf views) s.tx.lives) ∧ s.receipt = s₀.receipt)
        (storeReceipt operationId)
        (fun _ s => (s.tx.journal = .written ⟨operationId, .promoted, journalViewsOf views⟩
          ∧ DesiredEverywhere (journalViewsOf views) s.tx.lives) ∧ s.receipt = some operationId)
        (fun _ => RecoverableSession operationId (journalViewsOf views))
        (RecoverableSession operationId (journalViewsOf views)) := by
      refine Triple.step (fun s hs _ => hpromoted s hs) (fun s x hs _ => hpromoted s hs) ?_
      exact fun s hs => ⟨⟨hs.1.1.journal, hs.1.2⟩, rfl⟩
    refine Triple.bind hstore fun _ => Triple.ofState ?_
    rintro s₂ ⟨⟨hj₂, hdes⟩, hr₂⟩
    have hcomplete : ∀ s : SessionState, s.tx.lives = s₂.tx.lives →
        s.tx.journal = s₂.tx.journal ∨ s.tx.journal = .absent → s.receipt = some operationId →
        RecoverableSession operationId (journalViewsOf views) s := by
      intro s hl hj' hr'
      exact .complete (hj'.imp_left fun h => h.trans hj₂) hr' (hl ▸ hdes)
    have hfinalize := inTx_spec (finalize_spec (journalViewsOf views) s₂.tx.lives s₂.tx.journal :
      Triple (txEnv env) _ _ _ _ _) (some operationId)
    refine hfinalize.weaken ?_ ?_ ?_ ?_
    · rintro s rfl
      exact ⟨⟨rfl, rfl⟩, hr₂⟩
    · exact fun _ s hs => hcomplete s hs.1.1 hs.1.2 hs.2
    · exact fun _ s hs => hcomplete s hs.1.1.1 (Or.inl hs.1.1.2) hs.2
    · exact fun s hs => hcomplete s hs.1.1 (Or.inl hs.1.2) hs.2

/-- **Recovering a session.** An interrupted recovery can be run again; one that ends without an
    exception from outside settles the transaction and recognizes no third version. -/
private theorem recoverSession_spec (env : Env SessionSite Interruption) {operationId : OperationId} {views : List JournalView}
    (hv : SoundViews views) {allowedRoots : List Root}
    (hallowed : ∀ v ∈ views, v.root ∈ allowedRoots) {s₀ : SessionState}
    (hs₀ : RecoverableSession operationId views s₀) :
    Triple env (fun s => s = s₀) (recoverSession allowedRoots)
      (fun _ s => Settled operationId views s₀.receipt s₀.tx.journal s.tx)
      (fun e s => RecoverableSession operationId views s
        ∧ ((txEnv env).Raises recoverySite
          ∨ Settled operationId views s₀.receipt s₀.tx.journal s.tx ∧ e ≠ .own .thirdVersion))
      (RecoverableSession operationId views) := by
  unfold recoverSession
  have hlook : Triple env (fun s => s = s₀)
      (Prog.silent (fun s : SessionState => (s.receipt, s)) : Session _)
      (fun receipt s => s = s₀ ∧ receipt = s₀.receipt)
      (fun e s => RecoverableSession operationId views s
        ∧ ((txEnv env).Raises recoverySite
          ∨ Settled operationId views s₀.receipt s₀.tx.journal s.tx ∧ e ≠ .own .thirdVersion))
      (RecoverableSession operationId views) := by
    refine Triple.silent ?_
    rintro s rfl
    exact ⟨rfl, rfl⟩
  refine Triple.bind hlook fun receipt => Triple.ofState ?_
  rintro s ⟨rfl, rfl⟩
  refine (inTx_spec (recoverTransaction_spec operationId s.receipt hv hallowed hs₀)
    s.receipt).weaken ?_ ?_ ?_ ?_
  · rintro t rfl
    exact ⟨rfl, rfl⟩
  · exact fun _ t ht => ht.1
  · rintro e t ⟨ht, hr⟩
    unfold RecoverableSession
    rw [hr]
    exact ht
  · rintro t ⟨ht, hr⟩
    unfold RecoverableSession
    rw [hr]
    exact ht

/-! ### All or nothing -/

/-- **All or nothing**, after a recovery that has started in `found`: every changed path holds
    its current artifact, or every one holds its desired artifact, the stored receipt is the
    operation's and the journal said `promoted` (or was gone already). -/
def AllOrNothing (views : List SelectedView) (operationId : OperationId)
    (found s : SessionState) : Prop :=
  HoldsCurrent views s.tx.lives
    ∨ HoldsDesired views s.tx.lives ∧ found.receipt = some operationId
      ∧ (found.tx.journal = .written ⟨operationId, .promoted, journalViewsOf views⟩
        ∨ found.tx.journal = .absent)

private theorem allOrNothing_of_settled {views : List SelectedView} {operationId : OperationId}
    {found s : SessionState}
    (h : Settled operationId (journalViewsOf views) found.receipt found.tx.journal s.tx) :
    AllOrNothing views operationId found s :=
  h.imp (currentEverywhere_iff views s.tx.lives).mp
    fun hdes => ⟨(desiredEverywhere_iff views s.tx.lives).mp hdes.1, hdes.2⟩

/-- **A selected transaction is all or nothing**, as long as no file becomes a directory, nothing
    unlisted stands in the way of a changed path, and no rollback runs with the receipt stored:

    * when applying raises, and its rollback is not stopped from outside, every changed path
      holds its current artifact;
    * after a session that ended anywhere, and any number of interrupted recoveries, a recovery
      that is not stopped from outside recognizes no third version and ends all or nothing. -/
theorem transaction_all_or_nothing (views : List SelectedView) (operationId : OperationId)
    (verifyCurrent verifyDesired : Root → Tree → Manifest → Bool) (ending : Ending)
    (allowedRoots : List Root) (s₀ : SessionState)
    (hroots : (views.map SelectedView.root).Nodup)
    (hallowed : ∀ v ∈ views, v.root ∈ allowedRoots)
    (hdescribes : ∀ v ∈ views, Describes v (s₀.tx.lives v.root))
    (hjournal : s₀.tx.journal = .absent) (hreceipt : s₀.receipt ≠ some operationId)
    (hfiles : ∀ v ∈ views, NoFileBecomesDirectory v) (hending : ending ≠ .revoke) :
    (∀ env t s, (prepareTransaction views operationId).run env s₀.tx = (.done t, s) →
      ∀ env' e s', ¬ env'.Raises recoverySite →
        (applyTransaction t verifyCurrent verifyDesired).run env' s = (.raised e, s') →
        HoldsCurrent views s'.lives)
    ∧ ∀ env s, Restarted (recoverSession allowedRoots)
        ((session views operationId verifyCurrent verifyDesired ending).run env s₀).2 s →
      ∀ env', ¬ (txEnv env').Raises recoverySite →
        ((recoverSession allowedRoots).run env' s).1 ≠ .crashed →
        ((recoverSession allowedRoots).run env' s).1 ≠ .raised (.own .thirdVersion)
        ∧ AllOrNothing views operationId s ((recoverSession allowedRoots).run env' s).2 := by
  obtain ⟨hv, hreach⟩ := soundViews_of_describes hroots hdescribes hfiles
  have hholds : HoldsCurrent views s₀.tx.lives :=
    fun v hmem p hp => (hdescribes v hmem).holdsCurrent hp
  have hcur := (currentEverywhere_iff views s₀.tx.lives).mpr hholds
  have hallowed' : ∀ w ∈ journalViewsOf views, w.root ∈ allowedRoots := by
    intro w hw
    obtain ⟨v, hmem, -, rfl⟩ := (mem_journalViewsOf_iff views w).mp hw
    exact hallowed v hmem
  constructor
  · intro env t s hprepare env' e s' hquiet happly
    have hspec := (prepareTransaction_spec env views operationId s₀.tx.lives hv.roots).run
      ⟨rfl, hjournal⟩
    rw [hprepare] at hspec
    obtain ⟨hid, hviews, hlives, hj, -, hfinished, hverify⟩ := hspec
    have hready := armed_of_prepared hlives hj hfinished hverify hreach hcur
    have hraised := (applyTransaction_spec env' s₀.receipt hv hid hviews verifyCurrent
      verifyDesired).run hready
    rw [happly] at hraised
    exact (currentEverywhere_iff views s'.lives).mp (hraised.2.resolve_right hquiet)
  · intro env s hrestarted env' hquiet
    -- what the session leaves behind can be recovered, also after interrupted recoveries
    have hsession : RecoverableSession operationId (journalViewsOf views)
        ((session views operationId verifyCurrent verifyDesired ending).run env s₀).2 := by
      have hrun := (session_spec env verifyCurrent verifyDesired hv hreach hcur hjournal hreceipt
        hending).run rfl
      revert hrun
      generalize (session views operationId verifyCurrent verifyDesired ending).run env s₀ = r
      obtain ⟨o, t⟩ := r
      cases o <;> exact fun h => h
    have hkeep : ∀ env, Triple env (RecoverableSession operationId (journalViewsOf views))
        (recoverSession allowedRoots) (fun _ _ => True)
        (fun _ => RecoverableSession operationId (journalViewsOf views))
        (RecoverableSession operationId (journalViewsOf views)) := by
      refine fun env => Triple.ofState fun s hs => ?_
      exact (recoverSession_spec env hv hallowed' hs).weaken (fun _ h => h) (fun _ _ _ => trivial)
        (fun _ _ h => h.1) (fun _ h => h)
    have hs := hrestarted.keeps hkeep hsession
    have hrun := (recoverSession_spec env' hv hallowed' hs).run rfl
    revert hrun
    generalize (recoverSession allowedRoots).run env' s = r
    obtain ⟨o, t⟩ := r
    cases o with
    | done a => exact fun hrun _ => ⟨by simp, allOrNothing_of_settled hrun⟩
    | raised e =>
      intro hrun _
      obtain ⟨hsettled, hne⟩ := hrun.2.resolve_left hquiet
      exact ⟨fun h => hne (by cases h; rfl), allOrNothing_of_settled hsettled⟩
    | crashed => exact fun _ hcrash => absurd rfl hcrash

/-! ### One root, one changed file -/

def oldContent : Content :=
  ⟨4, "00112233445566778899aabbccddeeff00112233445566778899aabbccddeeff"⟩

def newContent : Content :=
  ⟨8, "ffeeddccbbaa99887766554433221100ffeeddccbbaa99887766554433221100"⟩

/-- A view of one root with one old file, and one new file to stand there instead. -/
def oneFileView (old new : Path) : SelectedView where
  root := "/saves"
  current := .ofArtifacts [⟨old, oldContent.sizeBytes, oldContent.contentHash⟩]
  desired := .ofArtifacts [⟨new, newContent.sizeBytes, newContent.contentHash⟩]
  sourceFor := fun _ _ => some newContent

/-- The old file stands at the root of every area, and nothing else does. -/
def oneFileState (old : Path) : SessionState where
  tx :=
    { fs := fun _ =>
        ⟨(∅ : Tree).insert old (.file oldContent), none, none, none, ∅⟩
      journal := .absent
      memory := ⟨false, false, false, []⟩ }
  receipt := none

/-- The session of the one view, which is stopped before its `n`-th step. -/
def stoppedSession (old new : Path) (n : ℕ) : SessionState :=
  ((session [oneFileView old new] "0123456789abcdef0123456789abcdef" (fun _ _ _ => true)
    (fun _ _ _ => true) .complete).run (fun k _ => if k = n then some .crash else none)
    (oneFileState old)).2

/-- A recovery that nothing disturbs. -/
def undisturbedRecovery (s : SessionState) :
    Outcome (Exn Interruption TxError) Bool × SessionState :=
  (recoverSession ["/saves"]).run (fun _ _ => none) s

private theorem mem_paths_ofArtifacts_singleton {a : SaveArtifact} {p : Path} :
    p ∈ (Manifest.ofArtifacts [a]).paths ↔ p = a.relativePath := by
  rw [Manifest.mem_paths_iff]
  constructor
  · rintro ⟨b, hb⟩
    have hmem := Manifest.mem_of_get?_ofArtifacts hb
    rw [← Manifest.relativePath_of_get? hb, List.mem_singleton.mp hmem]
  · rintro rfl
    exact ⟨a, by simp [Manifest.ofArtifacts]⟩

private theorem oneFileView_describes {old new : Path} (hne : new ≠ old)
    (hroot : ancestors old = []) (habove : ∀ dir ∈ ancestors new, dir = old) :
    Describes (oneFileView old new) ((oneFileState old).tx.lives "/saves") where
  listed := by
    intro p a ha
    have hmem := List.mem_singleton.mp (Manifest.mem_of_get?_ofArtifacts ha)
    have hp := Manifest.relativePath_of_get? ha
    rw [hmem] at hp
    subst hmem hp
    constructor
    · simp [oneFileState, TxState.lives, verifyOne]
    · intro dir hdir
      exact absurd (hroot ▸ hdir) (by simp)
  unlisted := by
    intro p hp _
    rw [mem_paths_ofArtifacts_singleton.mp hp]
    simp [oneFileState, TxState.lives, hne]
  above := by
    intro p hp dir hdir
    rw [mem_paths_ofArtifacts_singleton.mp hp] at hdir
    exact Or.inr (Or.inr (mem_paths_ofArtifacts_singleton.mpr (habove dir hdir)))
  desiredTree := by
    intro p hp q hq
    rw [mem_paths_ofArtifacts_singleton.mp hp, mem_paths_ofArtifacts_singleton.mp hq]
    exact not_mem_ancestors_self _

/-- A file is replaced by another one, the session is stopped while it is promoted, and the
    recovery brings everything back. -/
theorem transaction_all_or_nothing_replaced_file :
    (undisturbedRecovery (stoppedSession "a.srm" "b.srm" 24)).1 ≠ .raised (.own .thirdVersion)
    ∧ AllOrNothing [oneFileView "a.srm" "b.srm"] "0123456789abcdef0123456789abcdef"
      (stoppedSession "a.srm" "b.srm" 24)
      (undisturbedRecovery (stoppedSession "a.srm" "b.srm" 24)).2 := by
  unfold undisturbedRecovery stoppedSession
  refine (transaction_all_or_nothing [oneFileView "a.srm" "b.srm"]
    "0123456789abcdef0123456789abcdef" (fun _ _ _ => true) (fun _ _ _ => true) .complete
    ["/saves"] (oneFileState "a.srm") (by decide) ?_ ?_ rfl (by decide) ?_ (by decide)).2
    (fun k _ => if k = 24 then some .crash else none) _ (Restarted.none _) (fun _ _ => none)
    ?_ (by decide +kernel)
  · intro v hv
    rw [List.mem_singleton.mp hv]
    decide
  · intro v hv
    rw [List.mem_singleton.mp hv]
    exact oneFileView_describes (by decide) (by decide) (by decide)
  · intro v hv p hp q hq
    rw [List.mem_singleton.mp hv] at hp hq
    rw [mem_paths_ofArtifacts_singleton.mp hp, mem_paths_ofArtifacts_singleton.mp hq]
    decide
  · rintro ⟨site, -, n, x, h⟩
    cases h

/-- **A file that becomes a directory.** The old tree holds the file `slot`, the new one the file
    `slot/1.srm`.  A session that is stopped after the promotion of `slot/1.srm` cannot be
    recovered: the directory at `slot` is taken for a third version, and `slot` stays lost. -/
theorem transaction_stuck_on_file_to_directory :
    Describes (oneFileView "slot" "slot/1.srm") ((oneFileState "slot").tx.lives "/saves")
    ∧ (undisturbedRecovery (stoppedSession "slot" "slot/1.srm" 26)).1
      = .raised (.own .thirdVersion)
    ∧ ((undisturbedRecovery (stoppedSession "slot" "slot/1.srm" 26)).2.tx.lives "/saves").get?
      "slot" = some .directory := by
  refine ⟨oneFileView_describes (by decide) (by decide) (by decide), ?_, ?_⟩
  · decide +kernel
  · decide +kernel

end RomCloud.SaveSync.Transaction
