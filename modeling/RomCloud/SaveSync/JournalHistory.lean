import RomCloud.SaveSync.Journal

namespace RomCloud.SaveSync.Journal

/-!
# Journal histories and stale cursors

A history is any sequence of appends by any devices, of corruptions of the journal file and of
repairs by `load_or_reset`.  Beside the file, `History` keeps what no device can see: the log of
every entry ever recorded, the position of the log at which the generation last restarted from
0, and how often it did.

The invariant `History.Sound` ties the two together: a valid document retains the end of the
log, and its generation counts the entries since the last restart.  From it `discover_exact_iff`
says exactly when the discovery of a legacy Quick Sync is right for a cursor stored earlier
(`CursorTrusted`), and `discover_blind_after_reset` is a history in which it is not: after a
reset the counter can come back to the old cursor and hide what was appended.
-/

/-- What can happen to the shared journal. -/
inductive Event
  | append (deviceId revision timestamp : String) (mutations : List Mutation) (maxHistory : ℕ)
  | corrupt
  | loadOrReset

/-- The journal file with its history: every entry recorded so far, the length of that log when
    the generation last restarted from 0, and the number of restarts. -/
structure History where
  file : File
  log : List Entry
  base : ℕ
  resets : ℕ

namespace History

/-- No journal yet. -/
def initial : History := ⟨.absent, [], 0, 0⟩

/-- The history after a read that repairs an invalid file. -/
def afterRepair (s : History) : History :=
  match s.file with
  | .invalid => ⟨(Journal.loadOrReset s.file).2, s.log, s.log.length, s.resets + 1⟩
  | _ => s

/-- One event. -/
def step (s : History) : Event → History
  | .corrupt => { s with file := .invalid }
  | .loadOrReset => s.afterRepair
  | .append deviceId revision timestamp mutations maxHistory =>
    let after := (appendMutations s.file deviceId revision timestamp mutations maxHistory).2
    let entries := recorded s.file deviceId revision timestamp mutations maxHistory
    -- an append that leaves an invalid file was refused before it read the file
    { (if after = .invalid then s else s.afterRepair) with
      file := after, log := s.log ++ entries }

/-- The history after a sequence of events. -/
def run (events : List Event) : History := events.foldl step initial

/-! ### The invariant -/

/-- A valid document retains the end of the log since the last restart, and its generation is
    the number of entries since then. -/
structure Retains (s : History) (document : Document) : Prop where
  counted : s.base + document.generation = s.log.length
  suffix : document.history = s.log.drop (s.log.length - document.history.length)
  short : document.history.length ≤ document.generation
  nonempty : 0 < document.generation → 0 < document.history.length
  numbered : (s.log.drop s.base).map Entry.generation = List.range' 1 document.generation

/-- What holds of every history. -/
def Sound (s : History) : Prop :=
  match s.file with
  | .absent => s.log = [] ∧ s.base = 0
  | .invalid => s.base ≤ s.log.length
  | .valid document => s.Retains document

theorem retains_of_load {s : History} (hs : s.Sound) {document : Document}
    (h : load s.file = .ok document) : s.Retains document := by
  unfold Sound at hs
  cases hf : s.file with
  | absent =>
    rw [hf] at h hs
    cases h
    obtain ⟨hlog, hbase⟩ := hs
    exact ⟨by simp [hlog, hbase, emptyDocument], by simp [hlog, emptyDocument],
      by simp [emptyDocument], by simp [emptyDocument], by simp [hlog, emptyDocument]⟩
  | invalid =>
    rw [hf] at h
    exact absurd h (by simp [load])
  | valid d =>
    rw [hf] at h hs
    cases h
    exact hs

theorem afterRepair_of_ne_invalid {s : History} (h : s.file ≠ .invalid) : s.afterRepair = s := by
  unfold afterRepair
  split
  · next hf => exact absurd hf h
  · rfl

/-- Repairing leaves a history whose file, read again, is what the repair returned. -/
theorem afterRepair_retains {s : History} (hs : s.Sound) :
    s.afterRepair.Retains (Journal.loadOrReset s.file).1 := by
  cases hf : s.file with
  | absent =>
    rw [afterRepair_of_ne_invalid (by rw [hf]; simp)]
    exact retains_of_load hs (by rw [hf]; rfl)
  | invalid =>
    rw [show s.afterRepair = ⟨.valid emptyDocument, s.log, s.log.length, s.resets + 1⟩ by
      simp [afterRepair, hf, Journal.loadOrReset]]
    exact ⟨by simp [Journal.loadOrReset, emptyDocument], by simp [Journal.loadOrReset,
      emptyDocument], by simp [Journal.loadOrReset, emptyDocument], by simp [Journal.loadOrReset,
      emptyDocument], by simp [Journal.loadOrReset, emptyDocument]⟩
  | valid d =>
    rw [afterRepair_of_ne_invalid (by rw [hf]; simp)]
    exact retains_of_load hs (by rw [hf]; rfl)

@[simp] theorem afterRepair_file (s : History) :
    s.afterRepair.file = (Journal.loadOrReset s.file).2 := by
  cases hf : s.file <;> simp [afterRepair, hf, Journal.loadOrReset]

@[simp] theorem afterRepair_log (s : History) : s.afterRepair.log = s.log := by
  cases hf : s.file <;> simp [afterRepair, hf]

theorem afterRepair_sound {s : History} (hs : s.Sound) : s.afterRepair.Sound := by
  have hret := afterRepair_retains hs
  unfold Sound at hs ⊢
  cases hf : s.file with
  | absent =>
    rw [hf] at hs
    simpa [afterRepair, hf] using hs
  | invalid => simpa [afterRepair, hf, Journal.loadOrReset] using hret
  | valid d => simpa [afterRepair, hf, Journal.loadOrReset] using hret

/-- **Appending keeps the invariant.** New consecutive entries after the retained ones, cut to at
    least one entry, are again the end of the log. -/
theorem Retains.append {s : History} {document next : Document} (h : s.Retains document)
    {entries : List Entry} {maxHistory : ℕ} (hmax : 1 ≤ maxHistory)
    (hnum : entries.map Entry.generation
      = List.range' (document.generation + 1) entries.length)
    (hgen : next.generation = document.generation + entries.length)
    (hhist : next.history = truncate maxHistory (document.history ++ entries)) (file : File) :
    Retains { s with file := file, log := s.log ++ entries } next := by
  have hc := h.counted
  have hshort := h.short
  have hle : document.history.length ≤ s.log.length := by omega
  have hlen : next.history.length
      = min maxHistory (document.history.length + entries.length) := by
    rw [hhist, truncate, List.length_drop, List.length_append]
    omega
  have happ : document.history ++ entries
      = (s.log ++ entries).drop (s.log.length - document.history.length) := by
    rw [List.drop_append_of_le_length (by omega), ← h.suffix]
  refine ⟨?_, ?_, ?_, ?_, ?_⟩
  · simp only [List.length_append]
    omega
  · show next.history = (s.log ++ entries).drop ((s.log ++ entries).length - next.history.length)
    rw [hlen, hhist, truncate, happ, List.drop_drop]
    congr 1
    simp only [List.length_drop, List.length_append]
    omega
  · omega
  · intro hpos
    have := h.nonempty
    omega
  · show ((s.log ++ entries).drop s.base).map Entry.generation = List.range' 1 next.generation
    rw [List.drop_append_of_le_length (by omega), List.map_append, h.numbered, hnum, hgen,
      Nat.add_comm document.generation 1, List.range'_append_1]

theorem step_sound {s : History} (hs : s.Sound) (event : Event) : (s.step event).Sound := by
  cases event with
  | corrupt =>
    show s.base ≤ s.log.length
    unfold Sound at hs
    cases hf : s.file with
    | absent =>
      rw [hf] at hs
      rw [hs.2]
      exact Nat.zero_le _
    | invalid =>
      rw [hf] at hs
      exact hs
    | valid d =>
      rw [hf] at hs
      have := hs.counted
      omega
  | loadOrReset => exact afterRepair_sound hs
  | append deviceId revision timestamp mutations maxHistory =>
    have hspec := appendMutations_spec s.file deviceId revision timestamp mutations maxHistory
    unfold step
    rcases hspec with ⟨hnil, hfile | hfile⟩ | ⟨hmax, -, hnum, next, hfile, hgen, hhist⟩
    · -- refused, the file untouched
      simp only [hnil, List.append_nil, hfile]
      split
      · exact hs
      · next hvalid =>
        rw [afterRepair_of_ne_invalid hvalid]
        exact hs
    · -- refused, the file repaired
      have hne : (Journal.loadOrReset s.file).2 ≠ .invalid := by
        cases s.file <;> simp [Journal.loadOrReset]
      simp only [hnil, List.append_nil, hfile, if_neg hne]
      rw [← afterRepair_file, ← afterRepair_log]
      exact afterRepair_sound hs
    · -- recorded
      simp only [hfile, if_neg (by simp : ¬ File.valid next = .invalid)]
      rw [← afterRepair_log]
      exact (afterRepair_retains hs).append hmax hnum hgen hhist (.valid next)

/-- Every history is sound. -/
theorem run_sound (events : List Event) : (run events).Sound := by
  induction events using List.reverseRecOn with
  | nil => exact ⟨rfl, rfl⟩
  | append_singleton events event ih =>
    rw [run, List.foldl_append]
    exact step_sound ih event

/-! ### How a history grows -/

/-- A later history: more entries, and a restart after `s` only if the counter says so. -/
structure Extends (s t : History) : Prop where
  log : s.log <+: t.log
  resets : s.resets ≤ t.resets
  sameBase : t.resets = s.resets → t.base = s.base
  laterBase : s.resets < t.resets → s.log.length ≤ t.base

theorem Extends.refl (s : History) : Extends s s :=
  ⟨List.prefix_rfl, le_refl _, fun _ => rfl, fun h => absurd h (lt_irrefl _)⟩

theorem Extends.trans {s t u : History} (hst : Extends s t) (htu : Extends t u) :
    Extends s u := by
  have hst' := hst.resets
  have htu' := htu.resets
  refine ⟨hst.log.trans htu.log, by omega, ?_, ?_⟩
  · intro h
    rw [htu.sameBase (by omega), hst.sameBase (by omega)]
  · intro h
    rcases Nat.lt_or_ge t.resets u.resets with hlt | hge
    · exact le_trans hst.log.length_le (htu.laterBase hlt)
    · rw [htu.sameBase (by omega)]
      exact hst.laterBase (by omega)

theorem afterRepair_extends (s : History) : Extends s s.afterRepair := by
  unfold afterRepair
  split
  · exact ⟨List.prefix_rfl, Nat.le_succ _, fun h => absurd h (by simp), fun _ => le_refl _⟩
  · exact Extends.refl s

theorem step_extends (s : History) (event : Event) : Extends s (s.step event) := by
  cases event with
  | corrupt => exact ⟨List.prefix_rfl, le_refl _, fun _ => rfl, fun h => absurd h (lt_irrefl _)⟩
  | loadOrReset => exact afterRepair_extends s
  | append deviceId revision timestamp mutations maxHistory =>
    unfold step
    have hbase := afterRepair_extends s
    simp only
    split
    · exact ⟨List.prefix_append _ _, le_refl _, fun _ => rfl, fun h => absurd h (lt_irrefl _)⟩
    · exact ⟨List.prefix_append _ _, hbase.resets, hbase.sameBase, hbase.laterBase⟩

theorem run_append_extends (before after : List Event) :
    Extends (run before) (run (before ++ after)) := by
  induction after using List.reverseRecOn with
  | nil =>
    rw [List.append_nil]
    exact Extends.refl _
  | append_singleton after event ih =>
    have hstep : run (before ++ (after ++ [event])) = (run (before ++ after)).step event := by
      rw [← List.append_assoc, run, List.foldl_append]
      rfl
    rw [hstep]
    exact ih.trans (step_extends _ event)

/-! ### What the discovery sees -/

/-- The retained entries carry the last generations, without gaps. -/
theorem Retains.retained_generations {s : History} {document : Document} (h : s.Retains document) :
    document.history.map Entry.generation
      = List.range' (document.generation - document.history.length + 1) document.history.length := by
  have hc := h.counted
  have hshort := h.short
  have hdrop : s.log.drop (s.log.length - document.history.length)
      = (s.log.drop s.base).drop (document.generation - document.history.length) := by
    rw [List.drop_drop]
    congr 1
    omega
  have hmap : document.history.map Entry.generation
      = (List.range' 1 document.generation).drop
          (document.generation - document.history.length) := by
    rw [← h.numbered, ← List.map_drop, ← hdrop, ← h.suffix]
  rw [hmap, List.drop_range']
  congr 1
  · omega
  · omega

theorem Retains.firstRetained_eq {s : History} {document : Document} (h : s.Retains document) :
    firstRetained document = document.generation - document.history.length + 1 := by
  have hgens := h.retained_generations
  unfold firstRetained
  cases hh : document.history with
  | nil => simp
  | cons e rest =>
    rw [hh, List.map_cons, List.length_cons, List.range'_succ, List.cons.injEq] at hgens
    rw [List.length_cons]
    exact hgens.1

/-- Selecting by generation from consecutively numbered entries drops the first ones. -/
private theorem filter_generation_eq_drop (cursor : ℕ) (entries : List Entry) (first : ℕ)
    (hnum : entries.map Entry.generation = List.range' first entries.length) :
    entries.filter (fun entry => cursor < entry.generation)
      = entries.drop (cursor + 1 - first) := by
  induction entries generalizing first with
  | nil => simp
  | cons e rest ih =>
    rw [List.map_cons, List.length_cons, List.range'_succ, List.cons.injEq] at hnum
    obtain ⟨he, hrest⟩ := hnum
    rw [List.filter_cons]
    by_cases hlt : cursor < e.generation
    · -- every later entry is selected too
      have hzero : cursor + 1 - first = 0 := by omega
      rw [if_pos (decide_eq_true hlt), ih (first + 1) hrest, hzero,
        show cursor + 1 - (first + 1) = 0 by omega, List.drop_zero, List.drop_zero]
    · have hsucc : cursor + 1 - first = (cursor + 1 - (first + 1)) + 1 := by omega
      rw [if_neg (by simpa using hlt), ih (first + 1) hrest, hsucc, List.drop_succ_cons]

/-- **What the discovery sees.** On a journal that retains the end of the log: nothing new when
    the numbers agree, a gap when the retained entries do not reach back to the cursor, and
    otherwise the entries numbered after the cursor since the last restart. -/
theorem discover_of_retains {s : History} {document : Document} (h : s.Retains document)
    (hload : load s.file = .ok document) (cursor : ℕ) :
    discover cursor s.file
      = if document.generation = cursor then .unchanged
        else if cursor + document.history.length < document.generation then
          .requiresFullSync "journal-gap"
        else .unseen (s.log.drop (s.base + cursor)) := by
  have hc := h.counted
  have hshort := h.short
  have hgens := h.retained_generations
  have hfilter := filter_generation_eq_drop cursor _ _ hgens
  have hsuffix : s.log.drop (s.base + cursor)
      = (s.log.drop (s.log.length - document.history.length)).drop
          (cursor - (document.generation - document.history.length))
      ∨ cursor + document.history.length < document.generation := by
    by_cases hgap : cursor + document.history.length < document.generation
    · exact Or.inr hgap
    · refine Or.inl ?_
      rw [List.drop_drop]
      congr 1
      omega
  unfold discover
  rw [hload]
  simp only
  by_cases heq : document.generation = cursor
  · rw [if_pos heq, if_pos heq]
  · rw [if_neg heq, if_neg heq]
    rw [h.firstRetained_eq]
    have hgapiff : ((cursor : ℤ) < ((document.generation - document.history.length + 1 : ℕ) : ℤ)
        - quickSyncHistoryRequired) ↔ cursor + document.history.length < document.generation := by
      unfold quickSyncHistoryRequired
      omega
    by_cases hgap : cursor + document.history.length < document.generation
    · rw [if_pos (hgapiff.mpr hgap), if_pos hgap]
    · rw [if_neg (mt hgapiff.mp hgap), if_neg hgap]
      have hunseen : document.history.filter (fun entry => cursor < entry.generation)
          = s.log.drop (s.base + cursor) := by
        rcases hsuffix with hsuffix | hsuffix
        · rw [hfilter, hsuffix, ← h.suffix]
          congr 1
          omega
        · exact absurd hsuffix hgap
      -- a non-empty journal retains its last entry, which is unseen
      have hne : ¬ (s.log.drop (s.base + cursor) = [] ∧ cursor < document.generation) := by
        intro hand
        have hlen := congrArg List.length hand.1
        rw [List.length_drop, List.length_nil] at hlen
        omega
      rw [hunseen, if_neg hne]

/-! ### When a stale cursor is trusted rightly -/

/-- The purpose of the discovery: it asks for a Full Sync, or yields exactly the entries
    appended since the cursor was stored. -/
def Exact (appended : List Entry) : Discovery → Prop
  | .requiresFullSync _ => True
  | .unchanged => appended = []
  | .unseen entries => entries = appended

/-- The entries recorded after `s`, in a later history. -/
def appendedSince (s final : History) : List Entry := final.log.drop s.log.length

/-- A cursor stored at `s` may be trusted in a later history: the journal cannot be read, or was
    never reset since, or nothing was appended since, or the retained entries do not reach back
    to the cursor, or the cursor is 0 and the last reset came before anything was appended. -/
def CursorTrusted (cursor : ℕ) (s final : History) : Prop :=
  final.file = .invalid
    ∨ final.resets = s.resets
    ∨ s.appendedSince final = []
    ∨ (∃ document, load final.file = .ok document
        ∧ cursor + document.history.length < document.generation)
    ∨ (cursor = 0 ∧ final.base = s.log.length)

/-- **Stale cursors.** For every history, and every cursor stored in it as the journal's
    generation: the discovery on the journal at the end either asks for a Full Sync or yields
    exactly the entries appended since, if and only if the cursor may be trusted. -/
theorem discover_exact_iff (before after : List Event) (document : Document)
    (hstored : load (run before).file = .ok document) :
    Exact ((run before).appendedSince (run (before ++ after)))
        (discover document.generation (run (before ++ after)).file)
      ↔ CursorTrusted document.generation (run before) (run (before ++ after)) := by
  have hs := retains_of_load (run_sound before) hstored
  have ht := run_sound (before ++ after)
  have hext := run_append_extends before after
  revert hs ht hext
  generalize run before = s
  generalize run (before ++ after) = t
  intro hs ht hext
  have hk := hs.counted
  have hkn := hext.log.length_le
  cases hload : load t.file with
  | error e =>
    have hinv : t.file = .invalid := by
      cases hf : t.file <;> rw [hf] at hload <;> simp [load] at hload
    refine ⟨fun _ => Or.inl hinv, fun _ => ?_⟩
    unfold discover
    rw [hload]
    trivial
  | ok d =>
    have hr := retains_of_load ht hload
    have hn := hr.counted
    have hvalid : t.file ≠ .invalid := by
      intro h
      rw [h] at hload
      exact absurd hload (by simp [load])
    have hnil : s.appendedSince t = [] ↔ t.log.length ≤ s.log.length := List.drop_eq_nil_iff
    have hsince : (s.appendedSince t).length = t.log.length - s.log.length := List.length_drop
    rw [discover_of_retains hr hload]
    by_cases heq : d.generation = document.generation
    · -- the counters agree: right only if nothing was appended
      rw [if_pos heq]
      refine ⟨fun h => Or.inr (Or.inr (Or.inl h)), ?_⟩
      rintro (h | h | h | ⟨d', hd', hgap⟩ | ⟨hzero, hbase⟩)
      · exact absurd h hvalid
      · have hb := hext.sameBase h
        exact hnil.mpr (by omega)
      · exact h
      · cases hload.symm.trans hd'
        omega
      · exact hnil.mpr (by omega)
    · rw [if_neg heq]
      by_cases hgap : document.generation + d.history.length < d.generation
      · rw [if_pos hgap]
        exact ⟨fun _ => Or.inr (Or.inr (Or.inr (Or.inl ⟨d, hload, hgap⟩))), fun _ => trivial⟩
      · rw [if_neg hgap]
        show t.log.drop (t.base + document.generation) = s.appendedSince t ↔ _
        constructor
        · -- the yielded entries are as many as were appended
          intro h
          have hlen := congrArg List.length h
          rw [hsince, List.length_drop] at hlen
          rcases Nat.eq_or_lt_of_le hext.resets with hres | hres
          · exact Or.inr (Or.inl hres.symm)
          · have hb := hext.laterBase hres
            by_cases happ : t.log.length ≤ s.log.length
            · exact Or.inr (Or.inr (Or.inl (hnil.mpr happ)))
            · exact Or.inr (Or.inr (Or.inr (Or.inr ⟨by omega, by omega⟩)))
        · rintro (h | h | h | ⟨d', hd', hgap'⟩ | ⟨hzero, hbase⟩)
          · exact absurd h hvalid
          · rw [hext.sameBase h, hk]
            rfl
          · -- nothing appended: nothing is numbered after the cursor either
            rw [h]
            refine List.drop_eq_nil_iff.mpr ?_
            have := hnil.mp h
            rcases Nat.eq_or_lt_of_le hext.resets with hres | hres
            · have := hext.sameBase hres.symm
              omega
            · have := hext.laterBase hres
              omega
          · cases hload.symm.trans hd'
            exact absurd hgap' hgap
          · rw [hzero, hbase]
            rfl

instance (appended : List Entry) (answer : Discovery) : Decidable (Exact appended answer) :=
  match answer with
  | .requiresFullSync _ => isTrue trivial
  | .unchanged => inferInstanceAs (Decidable (appended = []))
  | .unseen entries => inferInstanceAs (Decidable (entries = appended))

/-- An append of one mutation by a device, as `append_mutations` makes it by default. -/
def oneAppend (device revision : String) : Event :=
  .append device revision "2024-01-01T00:00:00+00:00"
    [⟨"snes", "snes", some "snes/zelda", none, "update"⟩] 512

/-- **A reset hides an append.** A device stores the cursor 1; the journal is corrupted, and the
    next append restarts it at 0 and brings it back to 1: the discovery answers "unchanged".
    From the cursor 2 the same append is hidden by an empty selection. -/
theorem discover_blind_after_reset :
    ¬ Exact ((run [oneAppend "deck" "r1"]).appendedSince
          (run ([oneAppend "deck" "r1"] ++ [.corrupt, oneAppend "desktop" "r2"])))
        (discover 1 (run ([oneAppend "deck" "r1"] ++ [.corrupt, oneAppend "desktop" "r2"])).file)
      ∧ ¬ Exact ((run [oneAppend "deck" "r1", oneAppend "deck" "r2"]).appendedSince
          (run ([oneAppend "deck" "r1", oneAppend "deck" "r2"]
            ++ [.corrupt, oneAppend "desktop" "r3"])))
        (discover 2 (run ([oneAppend "deck" "r1", oneAppend "deck" "r2"]
            ++ [.corrupt, oneAppend "desktop" "r3"])).file) := by
  decide

/-- The equivalence at the history in which the reset hides an append. -/
theorem discover_exact_iff_after_reset :
    Exact ((run [oneAppend "deck" "r1"]).appendedSince
          (run ([oneAppend "deck" "r1"] ++ [.corrupt, oneAppend "desktop" "r2"])))
        (discover (Journal.loadOrReset (run [oneAppend "deck" "r1"]).file).1.generation
          (run ([oneAppend "deck" "r1"] ++ [.corrupt, oneAppend "desktop" "r2"])).file)
      ↔ CursorTrusted (Journal.loadOrReset (run [oneAppend "deck" "r1"]).file).1.generation
          (run [oneAppend "deck" "r1"])
          (run ([oneAppend "deck" "r1"] ++ [.corrupt, oneAppend "desktop" "r2"])) :=
  discover_exact_iff [oneAppend "deck" "r1"] [.corrupt, oneAppend "desktop" "r2"]
    (Journal.loadOrReset (run [oneAppend "deck" "r1"]).file).1 rfl

end History

end RomCloud.SaveSync.Journal
