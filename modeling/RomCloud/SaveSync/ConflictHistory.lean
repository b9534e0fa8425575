import RomCloud.SaveSync.StateTransitions

namespace RomCloud.SaveSync.Durable

open RomCloud.Lib

/-!
# The history of conflicts

A conflict that was resolved stays on record, until the same content is in conflict again:
`record_conflict` drops every record of the content it files, and only an unresolved one is carried
over.

* `Run` — sequences of transitions, of those a condition allows;
* `RecordsNew` — no conflict is recorded again that was resolved, and none at a blank time;
* `Kept` — a valid state with at most one unresolved conflict for each group;
* `kept_step`, `conflict_history_kept` — what one allowed transition keeps, and what a run keeps.

`_validate_state` does not ask that a group has one unresolved conflict at most, so `Kept` asks it
of the state a run starts from.
-/

/-! ### Runs -/

section Run

variable (digest : ConflictId → Text) (policy : SaveSelectionPolicy)

/-- A sequence of transitions, each of which the condition allows in its state. -/
inductive Run (allowed : DurableState → Transition → Prop) : DurableState → DurableState → Prop
  | refl (state : DurableState) : Run allowed state state
  | step {state mid next : DurableState} (transition : Transition) : Run allowed state mid →
      allowed mid transition → transition.run digest policy mid = .ok next →
      Run allowed state next

end Run

/-- What is recorded is not a conflict that was resolved, and not at a blank time. -/
def RecordsNew (state : DurableState) : Transition → Prop
  | .recordConflict evidence observedAt now =>
    strip (orNow observedAt now) ≠ ""
      ∧ ∀ c ∈ state.conflicts, c.resolved = true → fingerprint c ≠ evidence.conflictId
  | _ => True

instance (state : DurableState) (transition : Transition) :
    Decidable (RecordsNew state transition) := by
  unfold RecordsNew
  split <;> infer_instance

/-- No group has two unresolved conflicts. -/
def OneUnresolved (conflicts : List SaveConflictRecord) : Prop :=
  ∀ a ∈ conflicts, ∀ b ∈ conflicts, a.resolved = false → b.resolved = false →
    a.groupId = b.groupId → a = b

/-- A state whose groups have one unresolved conflict each, at most. -/
structure Kept (state : DurableState) : Prop where
  valid : validateState state = .ok ()
  one : OneUnresolved state.conflicts

/-! ### What one transition keeps -/

section Step

variable {digest : ConflictId → Text} {policy : SaveSelectionPolicy}
variable {state next : DurableState}

/-- The group of an unresolved conflict is in conflict. -/
theorem Kept.condition (h : Kept state) {c : SaveConflictRecord} (hc : c ∈ state.conflicts)
    (hopen : c.resolved = false) :
    ∃ group, groupOf state.groups c.groupId = some group ∧ group.layoutId = c.layoutId
      ∧ group.condition = .conflict :=
  (checkActive_eq_ok_iff _ _).mp ((conflictsOk_of_validateState h.valid).active c hc) hopen

/-- **Marking.** The conflicts stay, and so does the condition of a group that has one. -/
theorem Kept.markDirty (h : Kept state) {gid : GroupId} {layoutId : LayoutId} {paths : List Path}
    {side : SaveGroupCondition} (hrun : markDirty state gid layoutId paths side = .ok next) :
    Kept next ∧ next.conflicts = state.conflicts := by
  obtain ⟨updated, rfl, hid, hupdated, hexisting⟩ := markDirty_spec h.valid hrun
  have hgroups := groupsOk_of_validateState h.valid
  have hconflicts := conflictsOk_of_validateState h.valid
  refine ⟨⟨?_, h.one⟩, rfl⟩
  refine validateState_of_changes h.valid (hgroups.upsert hupdated) ⟨hconflicts.each, ?_,
    hconflicts.nodup⟩
  intro c hc
  rw [checkActive_eq_ok_iff]
  intro hopen
  obtain ⟨group, hfind, hlayout, hcondition⟩ := h.condition hc hopen
  rw [groupOf_upsertGroup updated hgroups.nodup]
  split
  · next heq =>
    rw [heq, hid] at hfind
    obtain ⟨hsame, hstays⟩ := hexisting group hfind
    exact ⟨updated, rfl, hsame.symm.trans hlayout, hstays hcondition⟩
  · exact ⟨group, hfind, hlayout, hcondition⟩

/-- What passed the checks of `conflict_id_for` passes those of the state. -/
theorem Evidence.check_spec {evidence : Evidence} (h : evidence.check = .ok ()) :
    strip evidence.groupId ≠ "" ∧ strip evidence.layoutId ≠ ""
      ∧ (∀ snapshot, evidence.baseline = some snapshot →
        validateSnapshot "baseline" evidence.groupId evidence.layoutId snapshot = .ok ())
      ∧ validateSnapshot "local" evidence.groupId evidence.layoutId evidence.localSnapshot = .ok ()
      ∧ validateSnapshot "remote" evidence.groupId evidence.layoutId evidence.remoteSnapshot
        = .ok () := by
  simpa only [Evidence.check, check_bind_eq_ok_iff, whenSome_eq_ok_iff, nonemptyText_eq_ok_iff]
    using h

/-- The group `record_conflict` writes passes its checks. -/
theorem validateGroup_of_evidence {evidence : Evidence} (h : evidence.check = .ok ()) :
    validateGroup evidence.group = .ok () := by
  obtain ⟨hgid, hlid, hbase, hlocal, hremote⟩ := Evidence.check_spec h
  simp only [validateGroup, Evidence.group, unseenGroup, check_bind_eq_ok_iff, whenSome_eq_ok_iff,
    nonemptyText_eq_ok_iff]
  refine ⟨hgid, hlid, hbase, ?_, ?_, rfl, by simp, by simp⟩
  · intro snapshot hsome
    rw [← Option.some.inj hsome]
    exact validateSnapshot_of_label _ hlocal
  · intro snapshot hsome
    rw [← Option.some.inj hsome]
    exact validateSnapshot_of_label _ hremote

/-- The record `record_conflict` files passes its checks. -/
theorem validateConflict_observedRecord {evidence : Evidence} (h : evidence.check = .ok ())
    {conflicts : List SaveConflictRecord}
    (hvalid : ∀ c ∈ conflicts, validateConflict c = .ok ()) {timestamp : String}
    (htime : strip timestamp ≠ "") :
    validateConflict (observedRecord (activeRecord conflicts evidence.conflictId) evidence
      timestamp) = .ok () := by
  obtain ⟨hgid, hlid, hbase, hlocal, hremote⟩ := Evidence.check_spec h
  obtain ⟨-, hopen, hgroup, hlayout, -⟩ := observedRecord_spec conflicts evidence timestamp
  cases hfind : activeRecord conflicts evidence.conflictId with
  | none =>
    simp only [observedRecord, validateConflict, check_bind_eq_ok_iff, whenSome_eq_ok_iff,
      nonemptyText_eq_ok_iff]
    exact ⟨hgid, hlid, htime, htime, hbase, hlocal, hremote, by simp, by simp⟩
  | some existing =>
    rw [hfind] at hgroup hlayout
    have hold := hvalid existing (List.mem_of_find?_eq_some hfind)
    simp only [validateConflict, check_bind_eq_ok_iff, whenSome_eq_ok_iff,
      nonemptyText_eq_ok_iff, require_eq_ok_iff] at hold
    obtain ⟨hg, hl, hdetected, -, -, -, -, hack, hresolution⟩ := hold
    have hgroup : existing.groupId = evidence.groupId := hgroup
    have hlayout : existing.layoutId = evidence.layoutId := hlayout
    simp only [observedRecord, validateConflict, check_bind_eq_ok_iff, whenSome_eq_ok_iff,
      nonemptyText_eq_ok_iff, require_eq_ok_iff, hgroup, hlayout]
    exact ⟨hgid, hlid, hdetected, htime, hbase, hlocal, hremote, hack, hresolution⟩

/-- Superseding a record leaves it well formed. -/
theorem validateConflict_superseding {evidence : Evidence} {timestamp : String}
    {item : SaveConflictRecord} (h : validateConflict item = .ok ()) :
    validateConflict (superseding digest evidence timestamp item) = .ok () := by
  unfold superseding
  split
  · simp only [validateConflict, check_bind_eq_ok_iff, whenSome_eq_ok_iff,
      nonemptyText_eq_ok_iff, require_eq_ok_iff] at h ⊢
    obtain ⟨hg, hl, hd, hs, hb, hlo, hre, hack, -⟩ := h
    exact ⟨hg, hl, hd, hs, hb, hlo, hre, hack, by simp [superseded]⟩
  · exact h

/-- **Recording.** The state is kept if the time is not blank. -/
theorem Kept.recordConflict (h : Kept state) {evidence : Evidence} {observedAt : Option String}
    {now : Text} (htime : strip (orNow observedAt now) ≠ "")
    (hrun : recordConflict digest state evidence observedAt now = .ok next) : Kept next := by
  obtain ⟨hcheck, hnext, hperm⟩ := recordConflict_spec hrun
  have hgroups := groupsOk_of_validateState h.valid
  have hconflicts := conflictsOk_of_validateState h.valid
  obtain ⟨hid, hopen, hgroup, hlayout, -⟩ :=
    observedRecord_spec state.conflicts evidence (orNow observedAt now)
  have hfiled := validateConflict_observedRecord hcheck hconflicts.each htime
  revert hfiled hid hopen hgroup hlayout hperm
  generalize observedRecord _ evidence (orNow observedAt now) = filed
  intro hperm hid hopen hgroup hlayout hfiled
  -- a record afterwards is the one that is filed, or one of other content
  have hcases : ∀ c ∈ next.conflicts, c = filed ∨ ∃ item ∈ state.conflicts,
      fingerprint item ≠ evidence.conflictId
        ∧ c = superseding digest evidence (orNow observedAt now) item := by
    intro c hc
    rw [hperm.mem_iff, List.mem_append, List.mem_map] at hc
    rcases hc with ⟨item, hitem, rfl⟩ | hc
    · rw [List.mem_filter, decide_eq_true_eq] at hitem
      exact Or.inr ⟨item, hitem.1, hitem.2, rfl⟩
    · exact Or.inl (List.mem_singleton.mp hc)
  refine ⟨?_, ?_⟩
  · rw [hnext]
    refine validateState_of_changes h.valid (hgroups.upsert (validateGroup_of_evidence hcheck))
      ⟨?_, ?_, ?_⟩
    · intro c hc
      rcases hcases c hc with rfl | ⟨item, hitem, -, rfl⟩
      · exact hfiled
      · exact validateConflict_superseding (hconflicts.each item hitem)
    · intro c hc
      rw [checkActive_eq_ok_iff, groupOf_upsertGroup _ hgroups.nodup]
      intro hunresolved
      rcases hcases c hc with rfl | ⟨item, hitem, -, rfl⟩
      · rw [if_pos (show c.groupId = evidence.group.groupId from hgroup)]
        exact ⟨_, rfl, hlayout.symm, rfl⟩
      · obtain ⟨hother, hsame⟩ := superseding_unresolved hunresolved
        rw [hsame] at hunresolved ⊢
        rw [if_neg (show item.groupId ≠ evidence.group.groupId from hother)]
        exact h.condition hitem hunresolved
    · rw [(hperm.map fingerprint).nodup_iff, List.map_append, List.map_map, List.nodup_append]
      have hmap : fingerprint ∘ superseding digest evidence (orNow observedAt now)
          = fingerprint := funext (fingerprint_superseding evidence (orNow observedAt now))
      rw [hmap]
      refine ⟨hconflicts.nodup.sublist (List.filter_sublist.map _), by simp, ?_⟩
      intro a ha b hb
      obtain ⟨item, hitem, rfl⟩ := List.mem_map.mp ha
      rw [List.mem_filter, decide_eq_true_eq] at hitem
      simp only [List.map_cons, List.map_nil, List.mem_singleton] at hb
      rw [hb, hid]
      exact hitem.2
  · intro a ha b hb hunresolved hunresolved' hsame
    rcases hcases a ha with rfl | ⟨item, hitem, -, rfl⟩
    · rcases hcases b hb with rfl | ⟨item, hitem, -, rfl⟩
      · rfl
      · obtain ⟨hother, heq⟩ := superseding_unresolved hunresolved'
        rw [heq] at hsame
        exact absurd (hsame.symm.trans hgroup) hother
    · obtain ⟨hother, heq⟩ := superseding_unresolved hunresolved
      rw [heq] at hunresolved hsame ⊢
      rcases hcases b hb with rfl | ⟨item', hitem', -, rfl⟩
      · exact absurd (hsame.trans hgroup) hother
      · obtain ⟨-, heq'⟩ := superseding_unresolved hunresolved'
        rw [heq'] at hunresolved' hsame ⊢
        exact h.one item hitem item' hitem' hunresolved hunresolved' hsame

/-- **Acknowledging.** -/
theorem Kept.acknowledgeConflict (h : Kept state) {conflictId : ConflictId}
    {acknowledgedAt : Option String} {now : Text}
    (hrun : acknowledgeConflict state conflictId acknowledgedAt now = .ok next) : Kept next := by
  have hconflicts := conflictsOk_of_validateState h.valid
  unfold Durable.acknowledgeConflict at hrun
  rw [check_bind_eq_ok_iff, nonemptyText_eq_ok_iff] at hrun
  obtain ⟨htime, hrun⟩ := hrun
  obtain ⟨conflicts, hchange, hrun⟩ := bind_eq_ok hrun
  rw [← Except.ok.inj hrun]
  obtain ⟨rfl, -, -⟩ := changeRecord_spec hchange
  refine ⟨validateState_of_changes h.valid (groupsOk_of_validateState h.valid) ⟨?_, ?_, ?_⟩, ?_⟩
  · intro c hc
    obtain ⟨item, hitem, rfl⟩ := List.mem_map.mp hc
    have hold := hconflicts.each item hitem
    split
    · simp only [validateConflict, check_bind_eq_ok_iff, whenSome_eq_ok_iff,
        nonemptyText_eq_ok_iff, require_eq_ok_iff, Option.some.injEq, forall_eq'] at hold ⊢
      obtain ⟨hg, hl, hd, hs, hb, hlo, hre, -, hres⟩ := hold
      exact ⟨hg, hl, hd, hs, hb, hlo, hre, htime, hres⟩
    · exact hold
  · intro c hc
    obtain ⟨item, hitem, rfl⟩ := List.mem_map.mp hc
    have hold := hconflicts.active item hitem
    split
    · rw [checkActive_eq_ok_iff] at hold ⊢
      exact hold
    · exact hold
  · rw [List.map_map]
    have hmap : (fingerprint ∘ fun item : SaveConflictRecord =>
        if fingerprint item = conflictId then
          { item with acknowledgedAt := some (orNow acknowledgedAt now) } else item)
          = fingerprint := by
      funext item
      dsimp only [Function.comp]
      split <;> rfl
    rw [hmap]
    exact hconflicts.nodup
  · intro a ha b hb hunresolved hunresolved' hsame
    obtain ⟨item, hitem, rfl⟩ := List.mem_map.mp ha
    obtain ⟨item', hitem', rfl⟩ := List.mem_map.mp hb
    have hkept : ∀ c : SaveConflictRecord, ∀ b : Bool,
        (if fingerprint c = conflictId then
          { c with acknowledgedAt := some (orNow acknowledgedAt now) } else c).resolved = b →
            c.resolved = b := by
      intro c b hc
      split at hc <;> exact hc
    have hgroup : ∀ c : SaveConflictRecord, (if fingerprint c = conflictId then
        { c with acknowledgedAt := some (orNow acknowledgedAt now) } else c).groupId
          = c.groupId := by
      intro c
      split <;> rfl
    rw [hgroup, hgroup] at hsame
    have hitems : item = item' := h.one item hitem item' hitem' (hkept item _ hunresolved)
      (hkept item' _ hunresolved') hsame
    rw [hitems]

/-- What the service writes when a conflict is resolved. -/
theorem advanceConflictResolution_spec {conflictId : ConflictId}
    {resolution : SaveConflictResolution} {record : SaveSyncRecord} {operationId : String}
    {now : Text}
    (hrun : advanceConflictResolution policy state conflictId resolution record operationId now
      = .ok next) :
    validateState next = .ok ()
      ∧ ∃ changed : SaveConflictRecord → SaveConflictRecord,
        (∀ item, (changed item).resolved = true)
          ∧ next.conflicts = state.conflicts.map
            (fun item => if fingerprint item = conflictId then changed item else item)
          ∧ ∀ item ∈ state.conflicts, fingerprint item = conflictId → item.resolved = false := by
  unfold advanceConflictResolution at hrun
  cases hfind : activeRecord state.conflicts conflictId with
  | none =>
    rw [hfind] at hrun
    exact absurd hrun (by simp)
  | some conflict =>
    simp only [hfind] at hrun
    obtain ⟨resolved, hresolve, hrun⟩ := bind_eq_ok hrun
    rw [check_bind_eq_ok_iff] at hrun
    obtain ⟨hvalid, hrun⟩ := hrun
    have hnext := Except.ok.inj hrun
    unfold Durable.resolveConflict at hresolve
    rw [check_bind_eq_ok_iff] at hresolve
    obtain ⟨conflicts, hchange, hresolve⟩ := bind_eq_ok hresolve.2
    obtain ⟨hconflicts, -, hunresolved⟩ := changeRecord_spec hchange
    rw [← hnext]
    refine ⟨hvalid, fun item => { item with
      resolvedAt := some (orNow (some record.timestamp) now)
      resolution := some resolution
      resolutionRevision := some record.revision }, fun _ => rfl, ?_, hunresolved⟩
    rw [← hconflicts]
    exact congrArg DurableState.conflicts (Except.ok.inj hresolve).symm

/-- **Resolving.** -/
theorem Kept.resolveConflict (h : Kept state) {conflictId : ConflictId}
    {resolution : SaveConflictResolution} {record : SaveSyncRecord} {operationId : String}
    {now : Text}
    (hrun : advanceConflictResolution policy state conflictId resolution record operationId now
      = .ok next) : Kept next := by
  obtain ⟨hvalid, changed, hresolved, hconflicts, -⟩ := advanceConflictResolution_spec hrun
  refine ⟨hvalid, ?_⟩
  -- a record left unresolved is one that was there
  have hold : ∀ c ∈ next.conflicts, c.resolved = false → c ∈ state.conflicts := by
    intro c hc hunresolved
    rw [hconflicts] at hc
    obtain ⟨item, hitem, rfl⟩ := List.mem_map.mp hc
    split at hunresolved
    · exact absurd (hresolved item) (by simp [hunresolved])
    · next hid =>
      rw [if_neg hid]
      exact hitem
  intro a ha b hb hunresolved hunresolved' hsame
  exact h.one a (hold a ha hunresolved) b (hold b hb hunresolved') hunresolved hunresolved' hsame

/-- **One transition.** An allowed transition keeps the state. -/
theorem kept_step (h : Kept state) {transition : Transition}
    (hallowed : RecordsNew state transition)
    (hrun : transition.run digest policy state = .ok next) : Kept next := by
  cases transition with
  | markLocalDirty gid layoutId paths => exact (h.markDirty hrun).1
  | markRemoteDirty gid layoutId paths => exact (h.markDirty hrun).1
  | recordConflict evidence observedAt now => exact h.recordConflict hallowed.1 hrun
  | acknowledgeConflict conflictId acknowledgedAt now => exact h.acknowledgeConflict hrun
  | resolveConflict conflictId resolution record operationId now => exact h.resolveConflict hrun

/-- An allowed transition leaves the records that were resolved. -/
theorem history_step (h : Kept state) {transition : Transition}
    (hallowed : RecordsNew state transition)
    (hrun : transition.run digest policy state = .ok next) {c : SaveConflictRecord}
    (hc : c ∈ state.conflicts) (hresolved : c.resolved = true) : c ∈ next.conflicts := by
  cases transition with
  | markLocalDirty gid layoutId paths =>
    rw [(h.markDirty hrun).2]
    exact hc
  | markRemoteDirty gid layoutId paths =>
    rw [(h.markDirty hrun).2]
    exact hc
  | recordConflict evidence observedAt now =>
    obtain ⟨-, -, hperm⟩ := recordConflict_spec hrun
    rw [hperm.mem_iff, List.mem_append]
    refine Or.inl (List.mem_map.mpr ⟨c, ?_, superseding_of_resolved _ _ hresolved⟩)
    rw [List.mem_filter, decide_eq_true_eq]
    exact ⟨hc, hallowed.2 c hc hresolved⟩
  | acknowledgeConflict conflictId acknowledgedAt now =>
    have hrun : acknowledgeConflict state conflictId acknowledgedAt now = .ok next := hrun
    unfold Durable.acknowledgeConflict at hrun
    rw [check_bind_eq_ok_iff] at hrun
    obtain ⟨conflicts, hchange, hrun⟩ := bind_eq_ok hrun.2
    obtain ⟨rfl, -, hunresolved⟩ := changeRecord_spec hchange
    rw [← Except.ok.inj hrun]
    refine List.mem_map.mpr ⟨c, hc, if_neg ?_⟩
    intro hid
    exact absurd hresolved (by simp [hunresolved c hc hid])
  | resolveConflict conflictId resolution record operationId now =>
    obtain ⟨-, changed, -, hconflicts, hunresolved⟩ := advanceConflictResolution_spec hrun
    rw [hconflicts]
    refine List.mem_map.mpr ⟨c, hc, if_neg ?_⟩
    intro hid
    exact absurd hresolved (by simp [hunresolved c hc hid])

end Step

/-! ### What a run keeps -/

section History

variable {digest : ConflictId → Text} {policy : SaveSelectionPolicy}
variable {s₀ state later next : DurableState}

theorem Run.kept (h : Kept s₀) (hrun : Run digest policy RecordsNew s₀ state) : Kept state := by
  induction hrun with
  | refl => exact h
  | step transition _ hallowed hstep ih => exact kept_step ih hallowed hstep

theorem Run.history (h : Kept state) (hrun : Run digest policy RecordsNew state later)
    {c : SaveConflictRecord} (hc : c ∈ state.conflicts) (hresolved : c.resolved = true) :
    c ∈ later.conflicts := by
  induction hrun with
  | refl => exact hc
  | step transition hbefore hallowed hstep ih =>
    exact history_step (hbefore.kept h) hallowed hstep ih hresolved

/-- Marking leaves the condition of a group with an unresolved conflict. -/
theorem Kept.marked (h : Kept state) {gid : GroupId} {layoutId : LayoutId} {paths : List Path}
    (hrun : markLocalDirty state gid layoutId paths = .ok next
      ∨ markRemoteDirty state gid layoutId paths = .ok next)
    {c : SaveConflictRecord} (hc : c ∈ state.conflicts) (hopen : c.resolved = false) :
    c ∈ next.conflicts
      ∧ ∃ group, groupOf next.groups c.groupId = some group ∧ group.condition = .conflict := by
  have hmarked : Kept next ∧ next.conflicts = state.conflicts := by
    rcases hrun with hrun | hrun
    · exact h.markDirty hrun
    · exact h.markDirty hrun
  have hmem : c ∈ next.conflicts := hmarked.2 ▸ hc
  obtain ⟨group, hgroup, -, hcondition⟩ := hmarked.1.condition hmem hopen
  exact ⟨hmem, group, hgroup, hcondition⟩

/-- The unresolved record of some content is the one that is found. -/
theorem activeRecord_of_mem (h : Kept state) {c : SaveConflictRecord} (hc : c ∈ state.conflicts)
    (hopen : c.resolved = false) : activeRecord state.conflicts (fingerprint c) = some c := by
  unfold activeRecord
  cases hfind : state.conflicts.find?
      (fun item => fingerprint item = fingerprint c && !item.resolved) with
  | none =>
    have hnone := List.find?_eq_none.mp hfind c hc
    exact absurd hnone (by simp [hopen])
  | some found =>
    have hfound := List.find?_some hfind
    simp only [Bool.and_eq_true, decide_eq_true_eq, Bool.not_eq_true'] at hfound
    rw [h.one found (List.mem_of_find?_eq_some hfind) c hc hfound.2 hopen
      (congrArg ConflictId.groupId hfound.1)]

/-- **The state stays valid and keeps its history.** In every run that records nothing again that
    was resolved, and nothing at a blank time: the state passes its checks; a group has one
    unresolved conflict at most, and is then in conflict; what was resolved stays on record as it
    is; marking changes no conflict; and recording keeps the acknowledgement of the same content
    only. -/
theorem conflict_history_kept (hvalid : validateState s₀ = .ok ())
    (hone : OneUnresolved s₀.conflicts) (hrun : Run digest policy RecordsNew s₀ state) :
    validateState state = .ok ()
      ∧ OneUnresolved state.conflicts
      ∧ (∀ c ∈ state.conflicts, c.resolved = false →
        ∃ group, groupOf state.groups c.groupId = some group ∧ group.condition = .conflict)
      ∧ (∀ later, Run digest policy RecordsNew state later →
        ∀ c ∈ state.conflicts, c.resolved = true → c ∈ later.conflicts)
      ∧ (∀ gid layoutId paths next, (markLocalDirty state gid layoutId paths = .ok next
          ∨ markRemoteDirty state gid layoutId paths = .ok next) →
        ∀ c ∈ state.conflicts, c.resolved = false → c ∈ next.conflicts
          ∧ ∃ group, groupOf next.groups c.groupId = some group ∧ group.condition = .conflict)
      ∧ ∀ evidence observedAt now next, RecordsNew state (.recordConflict evidence observedAt now) →
        recordConflict digest state evidence observedAt now = .ok next →
        ∃ filed ∈ next.conflicts, filed.resolved = false
          ∧ fingerprint filed = evidence.conflictId
          ∧ (∀ c ∈ state.conflicts, c.resolved = false → fingerprint c = evidence.conflictId →
            filed.acknowledgedAt = c.acknowledgedAt)
          ∧ ((∀ c ∈ state.conflicts, c.resolved = false → fingerprint c ≠ evidence.conflictId) →
            filed.acknowledgedAt = none) := by
  have hkept : Kept state := Run.kept ⟨hvalid, hone⟩ hrun
  refine ⟨hkept.valid, hkept.one, ?_, ?_, ?_, ?_⟩
  · intro c hc hopen
    obtain ⟨group, hgroup, -, hcondition⟩ := hkept.condition hc hopen
    exact ⟨group, hgroup, hcondition⟩
  · intro later hlater c hc hresolved
    exact hlater.history hkept hc hresolved
  · intro gid layoutId paths next hmark c hc hopen
    exact hkept.marked hmark hc hopen
  · intro evidence observedAt now next hallowed hrecord
    obtain ⟨-, -, hperm⟩ := recordConflict_spec hrecord
    obtain ⟨hid, hfiled, -, -, hack⟩ :=
      observedRecord_spec state.conflicts evidence (orNow observedAt now)
    refine ⟨_, hperm.mem_iff.mpr (List.mem_append_right _ (List.mem_singleton.mpr rfl)), hfiled,
      hid, ?_, ?_⟩
    · intro c hc hopen hsame
      rw [hack, ← hsame, activeRecord_of_mem hkept hc hopen]
      rfl
    · intro hnone
      have hactive : activeRecord state.conflicts evidence.conflictId = none := by
        refine List.find?_eq_none.mpr ?_
        intro c hc hfound
        simp only [Bool.and_eq_true, decide_eq_true_eq, Bool.not_eq_true'] at hfound
        exact hnone c hc hfound.2 hfound.1
      rw [hack, hactive]
      rfl

end History

/-! ### A conflict that comes back -/

/-- A digest that tells apart the contents of a group by its local files. -/
def sizeDigest (conflictId : ConflictId) : Text :=
  if conflictId.localArtifacts = [] then ⟨"0f", by decide⟩ else ⟨"8a", by decide⟩

/-- A registry of one group. -/
def recordPolicy : SaveSelectionPolicy where
  layouts := [⟨"snes", "snes", false, "stem", ""⟩]
  groupForPath := fun _ => some ⟨"snes/zelda", "snes", "snes", "", "", ""⟩

/-- A group whose remote files are gone, and whose local files are given. -/
def zeldaEvidence (artifacts : List SaveArtifact) : Evidence where
  groupId := "snes/zelda"
  layoutId := "snes"
  baseline := none
  localSnapshot := ⟨"snes/zelda", "snes", artifacts, none⟩
  remoteSnapshot := ⟨"snes/zelda", "snes", [], none⟩

/-- The local save of the group. -/
def zeldaSave : SaveArtifact :=
  ⟨"snes/zelda.srm", 8192, String.ofList (List.replicate 64 'a')⟩

/-- The record of a conflict seen once. -/
def zeldaRecord (artifacts : List SaveArtifact) (seenAt : String) : SaveConflictRecord :=
  observedRecord none (zeldaEvidence artifacts) seenAt

/-- A device that has recorded conflicts of the group, the last with the given local files. -/
def zeldaState (artifacts : List SaveArtifact) (conflicts : List SaveConflictRecord) :
    DurableState :=
  { newState "deck" with
    groups := [(zeldaEvidence artifacts).group]
    conflicts := conflicts }

/-- The save is in conflict, and then deleted: the first conflict is on record as superseded. -/
def supersededState : DurableState :=
  zeldaState [] [zeldaRecord [] "noon",
    superseded sizeDigest "noon" (zeldaEvidence []).conflictId (zeldaRecord [zeldaSave] "dawn")]

theorem run_to_supersededState (allowed : DurableState → Transition → Prop)
    (hfirst : allowed (newState "deck") (.recordConflict (zeldaEvidence [zeldaSave]) (some "dawn")
      ⟨"now", by decide⟩))
    (hsecond : allowed (zeldaState [zeldaSave] [zeldaRecord [zeldaSave] "dawn"])
      (.recordConflict (zeldaEvidence []) (some "noon") ⟨"now", by decide⟩)) :
    Run sizeDigest recordPolicy allowed (newState "deck") supersededState := by
  refine .step _ (.step _ (.refl _) hfirst ?_) hsecond ?_
  · decide +kernel
  · decide +kernel

/-- A run with one conflict that supersedes another. -/
theorem superseded_conflict_kept :
    validateState supersededState = .ok () ∧ OneUnresolved supersededState.conflicts := by
  have h := @conflict_history_kept sizeDigest recordPolicy (newState "deck") supersededState
    (by decide +kernel) (fun _ h => absurd h (by simp [newState]))
    (run_to_supersededState RecordsNew (by decide +kernel) (by decide +kernel))
  exact ⟨h.1, h.2.1⟩

/-- **History is lost.** The save comes back with the content it had in the first conflict: its
    resolved record is dropped. -/
theorem resolved_conflict_dropped :
    ∃ state later : DurableState, validateState (newState "deck") = .ok ()
      ∧ Run sizeDigest recordPolicy (fun _ _ => True) (newState "deck") state
      ∧ Run sizeDigest recordPolicy (fun _ _ => True) state later
      ∧ ∃ c ∈ state.conflicts, c.resolved = true
        ∧ ∀ c' ∈ later.conflicts, fingerprint c' = fingerprint c → c'.resolved = false := by
  refine ⟨supersededState, zeldaState [zeldaSave]
    [superseded sizeDigest "dusk" (zeldaEvidence [zeldaSave]).conflictId (zeldaRecord [] "noon"),
      zeldaRecord [zeldaSave] "dusk"], by decide +kernel, run_to_supersededState _ trivial trivial,
    .step (.recordConflict (zeldaEvidence [zeldaSave]) (some "dusk") ⟨"now", by decide⟩) (.refl _)
      trivial ?_, ?_⟩
  · decide +kernel
  · decide +kernel

end RomCloud.SaveSync.Durable
