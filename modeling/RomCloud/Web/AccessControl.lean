import Mathlib.Data.List.Nodup
import RomCloud.Web.Access

namespace RomCloud.Web

open Lib

/-!
# Access is granted, bounded and revoked

* `prune_spec` — the clock is looked at;
* `Inv` — the registry has the sessions that were given out and neither taken back nor seen expired,
  and the state file has the remembered ones among them;
* `Meets`, `browser_access` — what every call of every run returns.
-/

variable {env : Env} {s : State} {now : Time}

/-! ### Expiry -/

theorem unexpired_of_usable {record : Record} (h : record.Usable env) :
    unexpired env now record = .ok (live env now record) := by
  have hok : ∃ b, unexpired env now record = .ok b := by
    unfold unexpired
    split
    · exact ⟨true, rfl⟩
    · exact ⟨true, rfl⟩
    · next value hne hvalue =>
      obtain ⟨expires, hexpires⟩ := h.expires value hvalue hne
      exact ⟨_, by rw [hexpires]; rfl⟩
  obtain ⟨b, hb⟩ := hok
  rw [live, hb]

/-- What has expired stays so. -/
theorem live_of_le {record : Record} {later : Time} (hle : now ≤ later)
    (h : live env later record = true) : live env now record = true := by
  have hafter : ∀ {value : PyFloat}, value.after later = true → value.after now = true := by
    intro value hvalue
    cases value with
    | finite value =>
      have hlt : later < value := of_decide_eq_true hvalue
      exact decide_eq_true (lt_of_le_of_lt hle hlt)
    | infinity => rfl
    | negInfinity => exact absurd hvalue (by simp [PyFloat.after])
    | nan => exact absurd hvalue (by simp [PyFloat.after])
  unfold live unexpired at h ⊢
  split at h
  · next b hb =>
    subst h
    revert hb
    split
    · simp
    · simp
    · next value _ _ =>
      cases hvalue : toFloat env value with
      | error raised => simp [Except.map]
      | ok expires =>
        simp only [Except.map, Except.ok.injEq]
        exact hafter
  · exact absurd h (by simp)

theorem keepUnexpired_of_usable {sessions : List (String × Record)}
    (h : ∀ e ∈ sessions, e.2.Usable env) :
    keepUnexpired env now sessions = .ok (sessions.filter fun e => live env now e.2) := by
  induction sessions with
  | nil => rfl
  | cons e rest ih =>
    obtain ⟨key, record⟩ := e
    obtain ⟨hfirst, hrest⟩ := List.forall_mem_cons.mp h
    rw [keepUnexpired, unexpired_of_usable hfirst, ih hrest, List.filter_cons]

/-- The state file holds the remembered sessions. -/
def Stored (sys : Sys) : Prop :=
  sys.file ≠ .notObject
    ∧ storedSessions sys.file = sys.sessions.filter fun e => e.2.remembered

theorem rememberedOf_map (sessions : List (String × Record)) :
    rememberedOf ((sessions.filter fun e => e.2.remembered).map fun e => (e.1, some e.2))
      = sessions.filter fun e => e.2.remembered := by
  induction sessions with
  | nil => rfl
  | cons e rest ih =>
    by_cases hremembered : e.2.remembered = true
    · rw [List.filter_cons_of_pos (by simpa using hremembered), List.map_cons, rememberedOf,
        List.filterMap_cons]
      simp only [hremembered, if_true]
      exact congrArg _ ih
    · rw [List.filter_cons_of_neg (by simpa using hremembered)]
      exact ih

theorem stored_save (sys : Sys) : Stored (save sys) := by
  refine ⟨fun h => absurd h (by simp [save]), ?_⟩
  exact rememberedOf_map sys.sessions

/-- **The clock is looked at.** What has expired is dropped, and the state file follows. -/
theorem prune_spec (now : Time) {sys : Sys} (h : ∀ e ∈ sys.sessions, e.2.Usable env) :
    ∃ after, prune env now sys = (.ok (), after)
      ∧ after.pairings = sys.pairings.filter (fun e => now < e.2)
      ∧ after.attempts = (fun peer => inWindow now (sys.attempts peer))
      ∧ after.sessions = sys.sessions.filter (fun e => live env now e.2)
      ∧ (Stored sys → Stored after) := by
  have hkeep : keepUnexpired env now sys.sessions
      = .ok (sys.sessions.filter fun e => live env now e.2) := keepUnexpired_of_usable h
  unfold prune
  simp only [hkeep]
  by_cases hsame : (sys.sessions.filter fun e => live env now e.2).length = sys.sessions.length
  · rw [if_neg (not_not_intro hsame)]
    refine ⟨_, rfl, rfl, rfl, rfl, fun hstored => ⟨hstored.1, ?_⟩⟩
    have hall : (sys.sessions.filter fun e => live env now e.2) = sys.sessions :=
      List.filter_eq_self.mpr (List.length_filter_eq_length_iff.mp hsame)
    rw [hall]
    exact hstored.2
  · rw [if_pos hsame]
    exact ⟨_, rfl, rfl, rfl, rfl, fun _ => stored_save _⟩

/-! ### The ledger -/

def Granted.entry (g : Granted) : String × Record := (g.digest, g.record)

/-- The sessions that the registry should have. -/
def History.sessions (h : History) : List (String × Record) :=
  (h.ledger.filter Granted.present).map Granted.entry

/-- Marking sessions drops those that are not present any more. -/
theorem sessions_mark (h : History) (condition : Granted → Bool) (flag : Granted → Granted)
    (keep : String × Record → Bool) (hentry : ∀ g, (flag g).entry = g.entry)
    (hpresent : ∀ g ∈ h.ledger,
      (if condition g then flag g else g).present = (g.present && keep g.entry)) :
    (h.mark condition flag).sessions = h.sessions.filter keep := by
  unfold History.sessions History.mark
  dsimp only
  generalize h.ledger = ledger at hpresent ⊢
  induction ledger with
  | nil => rfl
  | cons g rest ih =>
    obtain ⟨hfirst, hrest⟩ := List.forall_mem_cons.mp hpresent
    have hsame : (if condition g then flag g else g).entry = g.entry := by
      split
      · exact hentry g
      · rfl
    rw [List.map_cons, List.filter_cons, List.filter_cons, hfirst]
    by_cases hg : g.present = true
    · rw [hg, Bool.true_and, if_pos rfl, List.map_cons, List.filter_cons]
      by_cases hkeep : keep g.entry = true
      · rw [if_pos hkeep, if_pos hkeep, List.map_cons, hsame, ih hrest]
      · rw [if_neg hkeep, if_neg hkeep, ih hrest]
    · rw [Bool.not_eq_true] at hg
      rw [hg, Bool.false_and, if_neg Bool.false_ne_true]
      exact ih hrest

theorem mem_sessions {h : History} {e : String × Record} :
    e ∈ h.sessions ↔ ∃ g ∈ h.ledger, g.present = true ∧ g.entry = e := by
  rw [History.sessions, List.mem_map]
  exact exists_congr fun g => by rw [List.mem_filter, and_assoc]

/-- Looking at the clock drops what has expired. -/
theorem sessions_look {h : History} :
    (h.look env now).sessions = h.sessions.filter fun e => live env now e.2 := by
  refine sessions_mark h (fun g => !live env now g.record)
    (fun g => { g with seenExpired := true }) (fun e => live env now e.2) (fun g => rfl)
    fun g _ => ?_
  cases hlive : live env now g.record <;>
    simp [Granted.present, Granted.valid, Granted.entry, hlive]

theorem mem_mark {h : History} {condition : Granted → Bool} {flag : Granted → Granted}
    {g : Granted} (hg : g ∈ (h.mark condition flag).ledger) :
    ∃ old ∈ h.ledger, g = if condition old then flag old else old := by
  obtain ⟨old, hold, rfl⟩ := List.mem_map.mp hg
  exact ⟨old, hold, rfl⟩

theorem digests_mark (h : History) (condition : Granted → Bool) (flag : Granted → Granted)
    (hentry : ∀ g, (flag g).entry = g.entry) :
    (h.mark condition flag).ledger.map (·.digest) = h.ledger.map (·.digest) := by
  rw [History.mark, List.map_map]
  refine List.map_congr_left fun g _ => ?_
  show (if condition g then flag g else g).digest = g.digest
  split
  · exact congrArg Prod.fst (hentry g)
  · rfl

/-- The sessions of a ledger can be read and have digests of their own. -/
structure History.Sound (env : Env) (h : History) : Prop where
  usable : ∀ g ∈ h.ledger, g.record.Usable env
  digests : (h.ledger.map (·.digest)).Nodup
  seen : ∀ g ∈ h.ledger, g.seenExpired = true → live env h.clock g.record = false

namespace History.Sound

variable {h : History}

theorem mark (hs : h.Sound env) (condition : Granted → Bool) (flag : Granted → Granted)
    (hentry : ∀ g, (flag g).entry = g.entry) (hseen : ∀ g, (flag g).seenExpired = g.seenExpired) :
    (h.mark condition flag).Sound env := by
  have hsame : ∀ g : Granted, (if condition g then flag g else g).record = g.record
      ∧ (if condition g then flag g else g).seenExpired = g.seenExpired := by
    intro g
    split
    · exact ⟨congrArg Prod.snd (hentry g), hseen g⟩
    · exact ⟨rfl, rfl⟩
  refine ⟨fun g hg => ?_, ?_, fun g hg hpast => ?_⟩
  · obtain ⟨old, hold, rfl⟩ := mem_mark hg
    rw [(hsame old).1]
    exact hs.usable old hold
  · exact (digests_mark h condition flag hentry) ▸ hs.digests
  · obtain ⟨old, hold, rfl⟩ := mem_mark hg
    rw [(hsame old).2] at hpast
    rw [(hsame old).1]
    exact hs.seen old hold hpast

theorem look (hs : h.Sound env) (hclock : h.clock ≤ now) : (h.look env now).Sound env := by
  have hrecord : ∀ old : Granted, (if (!live env now old.record) = true then
      { old with seenExpired := true } else old).record = old.record := by
    intro old
    split <;> rfl
  refine ⟨fun g hg => ?_, ?_, fun g hg hseen => ?_⟩
  · obtain ⟨old, hold, rfl⟩ := mem_mark hg
    rw [hrecord]
    exact hs.usable old hold
  · have hsame := digests_mark h (fun g => !live env now g.record)
      (fun g => { g with seenExpired := true }) fun g => rfl
    exact hsame ▸ hs.digests
  · obtain ⟨old, hold, rfl⟩ := mem_mark hg
    show live env now _ = false
    rw [hrecord]
    by_cases hlive : live env now old.record = true
    · rw [if_neg (by simp [hlive])] at hseen
      exact absurd ((hs.seen old hold hseen).symm.trans (live_of_le hclock hlive)) (by simp)
    · simpa using hlive

/-- Looking at the clock later, at nothing. -/
theorem later (hs : h.Sound env) {stamp : Time} (hle : h.clock ≤ stamp) :
    ({ h with clock := stamp } : History).Sound env := by
  refine ⟨hs.usable, hs.digests, fun g hg hseen => ?_⟩
  rw [Bool.eq_false_iff]
  intro hlive
  exact absurd ((hs.seen g hg hseen).symm.trans (live_of_le hle hlive)) (by simp)

end History.Sound

/-- The registry, told from the history. -/
structure Inv (env : Env) (s : State) : Prop extends s.history.Sound env where
  sessions : s.sys.sessions = s.history.sessions
  stored : Stored s.sys
  pairings : ∀ e ∈ s.sys.pairings, e ∈ s.history.issued ∧ e.1 ∉ s.history.exchanged
  exchanged : ∀ code ∈ s.history.exchanged, code ∈ s.history.issued.map Prod.fst
  attempts : ∀ peer later, s.history.clock ≤ later → inWindow later (s.sys.attempts peer)
    = inWindow later (failuresSince peer s.history.attempts)

theorem Inv.usable_sessions (h : Inv env s) : ∀ e ∈ s.sys.sessions, e.2.Usable env := by
  rw [h.sessions]
  intro e he
  obtain ⟨g, hg, -, rfl⟩ := mem_sessions.mp he
  exact h.usable g hg

theorem inWindow_inWindow {later : Time} (hle : now ≤ later) (stamps : List Time) :
    inWindow later (inWindow now stamps) = inWindow later stamps := by
  unfold inWindow
  rw [List.filter_filter]
  refine List.filter_congr fun stamp _ => ?_
  have himp : later < stamp + pairingAttemptWindowSeconds →
      now < stamp + pairingAttemptWindowSeconds := lt_of_le_of_lt hle
  by_cases hlater : later < stamp + pairingAttemptWindowSeconds
  · simp [hlater, himp hlater]
  · simp [hlater]

/-- The clock is looked at, in the registry and in the history. -/
theorem Inv.look (h : Inv env s) (hclock : s.history.clock ≤ now) :
    ∃ after, prune env now s.sys = (.ok (), after) ∧ Inv env ⟨after, s.history.look env now⟩
      ∧ ∀ peer, after.attempts peer = inWindow now (failuresSince peer s.history.attempts) := by
  obtain ⟨after, hprune, hpairings, hattempts, hsessions, hstored⟩ :=
    prune_spec now h.usable_sessions
  have hpeers : ∀ peer, after.attempts peer
      = inWindow now (failuresSince peer s.history.attempts) := by
    intro peer
    rw [hattempts]
    exact h.attempts peer now hclock
  refine ⟨after, hprune, ⟨h.toSound.look hclock, ?_, hstored h.stored, fun e he => ?_, h.exchanged,
    fun peer later hlater => ?_⟩, hpeers⟩
  · rw [hsessions, h.sessions, sessions_look]
  · rw [hpairings] at he
    exact h.pairings e (List.mem_of_mem_filter he)
  · rw [hpeers]
    exact inWindow_inWindow hlater _

/-! ### Taking sessions back -/

/-- Nothing but the ledger is told from marked sessions. -/
theorem Inv.mark (h : Inv env s) (condition : Granted → Bool) (flag : Granted → Granted)
    (hentry : ∀ g, (flag g).entry = g.entry) (hseen : ∀ g, (flag g).seenExpired = g.seenExpired)
    {sessions : List (String × Record)}
    (hsessions : sessions = (s.history.mark condition flag).sessions) :
    Inv env ⟨save { s.sys with sessions := sessions }, s.history.mark condition flag⟩ := by
  exact ⟨h.toSound.mark condition flag hentry hseen, hsessions, stored_save _, h.pairings,
    h.exchanged, h.attempts⟩

/-- Revoked sessions are dropped. -/
theorem Inv.revoke (h : Inv env s) (condition : Granted → Bool) (keep : String × Record → Bool)
    (hkeep : ∀ g, keep g.entry = !condition g) :
    Inv env ⟨save { s.sys with sessions := s.sys.sessions.filter keep },
      s.history.revoke condition⟩ := by
  refine h.mark condition (fun g => { g with revoked := true }) (fun g => rfl) (fun g => rfl) ?_
  rw [h.sessions]
  refine (sessions_mark s.history condition (fun g => { g with revoked := true }) keep
    (fun g => rfl) fun g _ => ?_).symm
  rw [hkeep]
  cases hg : condition g <;> simp [Granted.present, Granted.valid]

/-- The keys of the sessions are different. -/
theorem Inv.nodup_sessions (h : Inv env s) : (s.sys.sessions.map Prod.fst).Nodup := by
  rw [h.sessions, History.sessions, List.map_map]
  exact h.digests.sublist (List.filter_sublist.map _)

theorem findId_of_usable {id : String} {sessions : List (String × Record)}
    (h : ∀ e ∈ sessions, e.2.Usable env) : findId id sessions
      = .ok ((sessions.find? fun e => e.2.id = some (.text id)).map Prod.fst) := by
  induction sessions with
  | nil => rfl
  | cons e rest ih =>
    obtain ⟨key, record⟩ := e
    obtain ⟨hfirst, hrest⟩ := List.forall_mem_cons.mp h
    obtain ⟨value, hvalue⟩ := Option.isSome_iff_exists.mp hfirst.id
    have hid : record.id = some value := hvalue
    rw [findId, hid, field, List.find?_cons]
    dsimp only
    rw [ih hrest, hid]
    by_cases hfound : value = .text id
    · simp [hfound]
    · simp [hfound]

/-- `revoke_id` is told from the history. -/
theorem Inv.revokeId (h : Inv env s) (id : String) : ∃ found after,
    revokeId id s.sys = (.ok found, after)
      ∧ Inv env ⟨after, s.history.next env (.revokeId id) (.ok (.found found))⟩ := by
  have hfirst : (s.sys.sessions.find? fun e => e.2.id = some (.text id))
      = ((s.history.ledger.filter Granted.present).find? fun g =>
          g.record.id = some (.text id)).map Granted.entry := by
    rw [h.sessions, History.sessions, List.find?_map]
    rfl
  rw [Web.revokeId, findId_of_usable h.usable_sessions, hfirst]
  simp only [History.next]
  cases (s.history.ledger.filter Granted.present).find? fun g => g.record.id = some (.text id) with
  | none => exact ⟨false, s.sys, rfl, h⟩
  | some first =>
    exact ⟨true, _, rfl, h.revoke (fun g => g.digest = first.digest) _ fun g => decide_not⟩

/-! ### Giving sessions out -/

/-- Without the keys of the first members of a list, the others are left. -/
theorem filter_take_eq_drop {α β : Type} [DecidableEq α] {l : List (α × β)}
    (h : (l.map Prod.fst).Nodup) (k : ℕ) :
    (l.filter fun e => e.1 ∉ (l.map Prod.fst).take k) = l.drop k := by
  have hsplit := List.take_append_drop k l
  rw [← List.map_take]
  have hfirst : ((l.take k).filter fun e => e.1 ∉ (l.take k).map Prod.fst) = [] := by
    rw [List.filter_eq_nil_iff]
    intro e he hnot
    exact of_decide_eq_true hnot (List.mem_map_of_mem he)
  have hrest : ((l.drop k).filter fun e => e.1 ∉ (l.take k).map Prod.fst) = l.drop k := by
    rw [List.filter_eq_self]
    intro e he
    rw [← hsplit, List.map_append, List.nodup_append] at h
    refine decide_eq_true fun hmem => ?_
    exact h.2.2 _ hmem _ (List.mem_map_of_mem he) rfl
  calc (l.filter fun e => e.1 ∉ (l.take k).map Prod.fst)
      = (l.take k ++ l.drop k).filter fun e => e.1 ∉ (l.take k).map Prod.fst := by rw [hsplit]
    _ = l.drop k := by rw [List.filter_append, hfirst, hrest, List.nil_append]

theorem setSession_of_new {key : String} (record : Record) {sessions : List (String × Record)}
    (h : key ∉ sessions.map Prod.fst) :
    setSession key record sessions = sessions ++ [(key, record)] := if_neg h

/-- The oldest sessions make room. -/
theorem Inv.displace (h : Inv env s) : s.history.displace.sessions
    = s.sys.sessions.drop (s.sys.sessions.length - (maxSessions - 1)) := by
  have holdest : s.history.oldest = (s.sys.sessions.map Prod.fst).take
      (s.sys.sessions.length - (maxSessions - 1)) := by
    have hkeys : (s.history.ledger.filter Granted.present).map (·.digest)
        = s.sys.sessions.map Prod.fst := by
      rw [h.sessions, History.sessions, List.map_map]
      rfl
    rw [History.oldest, hkeys, List.length_map]
  rw [← filter_take_eq_drop h.nodup_sessions, ← holdest, h.sessions]
  refine sessions_mark s.history _ _ _ (fun g => rfl) fun g _ => ?_
  by_cases hg : g.digest ∈ s.history.oldest
  · simp [Granted.present, Granted.valid, Granted.entry, hg]
  · simp [Granted.entry, hg]

/-- A new record has all its fields. -/
theorem usable_newRecord (trust label id : String) (now : Time) :
    (newRecord trust label id now).Usable env := by
  refine ⟨rfl, rfl, rfl, ⟨_, _, rfl, rfl⟩, fun value hvalue hne => ?_⟩
  obtain rfl : expiryOf trust now = value := Option.some.inj hvalue
  unfold expiryOf at hne ⊢
  split
  · exact ⟨_, rfl⟩
  · split
    · exact ⟨_, rfl⟩
    · rw [if_neg ‹_›, if_neg ‹_›] at hne
      exact absurd rfl hne

theorem session_of_usable {record : Record} (h : record.Usable env) (token : String) :
    ∃ found, session env token record = .ok found := by
  obtain ⟨id, hid⟩ := Option.isSome_iff_exists.mp h.id
  obtain ⟨label, hlabel⟩ := Option.isSome_iff_exists.mp h.label
  obtain ⟨trust, htrust⟩ := Option.isSome_iff_exists.mp h.trust
  have hexpires : ∃ expires, expiresOf env record = .ok expires := by
    unfold expiresOf
    split
    · exact ⟨none, rfl⟩
    · exact ⟨none, rfl⟩
    · next value hne hvalue =>
      obtain ⟨expires, hexpires⟩ := h.expires value hvalue hne
      exact ⟨some expires, by rw [hexpires]; rfl⟩
  obtain ⟨expires, hexpires⟩ := hexpires
  refine ⟨⟨token, id, trust, label, expires⟩, ?_⟩
  rw [session, hid, hlabel, htrust, hexpires]
  rfl

/-- A later look at the clock, after which nothing is dropped. -/
theorem Inv.later (h : Inv env s) {stamp : Time} (hle : s.history.clock ≤ stamp) :
    Inv env ⟨s.sys, { s.history with clock := stamp }⟩ := by
  exact ⟨h.toSound.later hle, h.sessions, h.stored, h.pairings, h.exchanged,
    fun peer later hlater => h.attempts peer later (le_trans hle hlater)⟩

/-- A code is issued that was not issued before. -/
theorem Inv.issue (h : Inv env s) {now stamp : Time} {draws : List String}
    (hfresh : Fresh env s (.issue now stamp draws)) : ∃ code ∈ draws, ∃ after,
    issuePairing env now stamp draws s.sys = (.ok code, after)
      ∧ Inv env ⟨after, s.history.next env (.issue now stamp draws) (.ok (.code code))⟩ := by
  obtain ⟨hclock, hstamp, hne, hnew⟩ := hfresh
  obtain ⟨after, hprune, hafter, -⟩ := h.look hclock
  obtain ⟨code, rest, rfl⟩ := List.exists_cons_of_ne_nil hne
  have hcode := hnew code List.mem_cons_self
  let kept := after.pairings.drop (after.pairings.length - (maxPairings - 1))
  have hkept : ∀ e ∈ kept, e ∈ s.history.issued ∧ e.1 ∉ s.history.exchanged :=
    fun e he => hafter.pairings e (List.mem_of_mem_drop he)
  have hunused : code ∉ kept.map Prod.fst := by
    intro hmem
    obtain ⟨e, he, rfl⟩ := List.mem_map.mp hmem
    exact hcode (List.mem_map_of_mem (hkept e he).1)
  have hfind : ((code :: rest).take 32).find? (fun c => c ∉ kept.map Prod.fst) = some code := by
    rw [List.take_succ_cons, List.find?_cons]
    simp only [hunused, not_false_eq_true, decide_true]
  refine ⟨code, List.mem_cons_self,
    { after with pairings := kept ++ [(code, stamp + pairingTtlSeconds)] }, ?_, ?_⟩
  · rw [issuePairing, hprune]
    dsimp only
    rw [hfind]
  · have hlater := hafter.later hstamp
    refine ⟨⟨hlater.usable, hlater.digests, hlater.seen⟩, hlater.sessions, hlater.stored,
      fun e he => ?_, fun c hc => ?_, hlater.attempts⟩
    · rcases List.mem_append.mp he with he | he
      · exact ⟨List.mem_cons_of_mem _ (hkept e he).1, (hkept e he).2⟩
      · obtain rfl := List.mem_singleton.mp he
        exact ⟨List.mem_cons_self, fun hexchanged => hcode (h.exchanged code hexchanged)⟩
    · exact List.mem_cons_of_mem _ (h.exchanged c hc)

/-- The peer of a request has failed too often. -/
def Limited (s : State) (request : Exchange) : Prop :=
  maxPairingAttempts
    ≤ (inWindow request.now (failuresSince request.peer s.history.attempts)).length

theorem inWindow_append (now : Time) (stamps more : List Time) :
    inWindow now (stamps ++ more) = inWindow now stamps ++ inWindow now more := by
  rw [inWindow, List.filter_append]
  rfl

/-- A failed attempt. -/
theorem Inv.failed (h : Inv env s) {request : Exchange} (hle : s.history.clock ≤ request.stamp)
    {pairings : List (String × Time)} (hpairings : ∀ e ∈ pairings, e ∈ s.sys.pairings) :
    Inv env ⟨{ s.sys with
        pairings := pairings
        attempts := Function.update s.sys.attempts request.peer
          (s.sys.attempts request.peer ++ [request.stamp]) },
      s.history.attempt env request false⟩ := by
  have hlater := h.later hle
  refine ⟨⟨hlater.usable, hlater.digests, hlater.seen⟩, hlater.sessions, hlater.stored,
    fun e he => h.pairings e (hpairings e he), h.exchanged, fun peer later hlater => ?_⟩
  have hsame := h.attempts peer later (le_trans hle hlater)
  show inWindow later (Function.update s.sys.attempts request.peer
      (s.sys.attempts request.peer ++ [request.stamp]) peer)
    = inWindow later (failuresSince peer
      ((request.peer, request.stamp, false) :: s.history.attempts))
  by_cases hpeer : peer = request.peer
  · subst hpeer
    rw [Function.update_self, failuresSince, if_pos rfl, if_neg Bool.false_ne_true, inWindow_append,
      inWindow_append, hsame]
  · rw [Function.update_of_ne hpeer, failuresSince, if_neg (Ne.symm hpeer), hsame]

theorem usable_granted (request : Exchange) : (History.granted env request).record.Usable env := by
  rw [History.granted]
  exact usable_newRecord _ _ _ _

theorem sessions_grant (h : History) (request : Exchange) :
    ((h.grant (History.granted env request)).attempt env request true).sessions
      = h.sessions ++ [(env.digest request.token, (History.granted env request).record)] := by
  rw [History.sessions, History.attempt, History.grant, List.filter_append, List.map_append]
  rfl

theorem ledger_grant (h : History) (request : Exchange) :
    ((h.grant (History.granted env request)).attempt env request true).ledger
      = h.ledger ++ [History.granted env request] := rfl

theorem mem_displace {h : History} {g : Granted} (hg : g ∈ h.displace.ledger) :
    ∃ old ∈ h.ledger, g.record = old.record ∧ g.seenExpired = old.seenExpired := by
  unfold History.displace History.mark at hg
  obtain ⟨old, hold, rfl⟩ := List.mem_map.mp hg
  refine ⟨old, hold, ?_⟩
  split
  · exact ⟨rfl, rfl⟩
  · exact ⟨rfl, rfl⟩

theorem digests_displace (h : History) :
    h.displace.ledger.map (·.digest) = h.ledger.map (·.digest) := by
  rw [History.displace]
  exact digests_mark h _ _ fun g => rfl

/-- A session that is given out. -/
theorem Inv.granted (h : Inv env s) {request : Exchange} {expires : Time}
    (hle : s.history.clock ≤ request.stamp)
    (hfresh : env.digest request.token ∉ s.history.ledger.map (·.digest))
    (hcode : (env.normalizeCode request.code, expires) ∈ s.sys.pairings)
    {kept : List (String × Record)} (hkept : kept = s.history.displace.sessions) :
    Inv env ⟨save { s.sys with
        pairings := s.sys.pairings.filter fun e => e.1 ≠ env.normalizeCode request.code
        attempts := Function.update s.sys.attempts request.peer []
        sessions := setSession (env.digest request.token) (History.granted env request).record
          kept },
      (s.history.displace.grant (History.granted env request)).attempt env request true⟩ := by
  have hlater := h.later hle
  refine ⟨⟨fun g hg => ?_, ?_, fun g hg hseen => ?_⟩, ?_, stored_save _, fun e he => ?_,
    fun code hmem => ?_, fun peer later hlater => ?_⟩
  · rw [ledger_grant] at hg
    rcases List.mem_append.mp hg with hg | hg
    · obtain ⟨old, hold, hrecord, -⟩ := mem_displace hg
      rw [hrecord]
      exact h.usable old hold
    · obtain rfl := List.mem_singleton.mp hg
      exact usable_granted request
  · rw [ledger_grant, List.map_append, digests_displace]
    refine List.nodup_append.mpr ⟨h.digests, List.nodup_singleton _, ?_⟩
    intro digest hmem last hlast heq
    rw [heq, List.mem_singleton.mp hlast] at hmem
    exact hfresh hmem
  · rw [ledger_grant] at hg
    rcases List.mem_append.mp hg with hg | hg
    · obtain ⟨old, hold, hrecord, hold'⟩ := mem_displace hg
      rw [hold'] at hseen
      rw [hrecord]
      exact hlater.seen old hold hseen
    · obtain rfl := List.mem_singleton.mp hg
      exact absurd hseen (by simp [History.granted])
  · have hnew : env.digest request.token ∉ kept.map Prod.fst := by
      intro hmem
      obtain ⟨e, he, heq⟩ := List.mem_map.mp hmem
      obtain ⟨g, hg, -, rfl⟩ := mem_sessions.mp (hkept ▸ he)
      have hdigest : g.digest ∈ s.history.displace.ledger.map (·.digest) := List.mem_map_of_mem hg
      rw [digests_displace] at hdigest
      exact hfresh (heq ▸ hdigest)
    rw [sessions_grant, ← hkept]
    exact setSession_of_new _ hnew
  · obtain ⟨hmem, hother⟩ := List.mem_filter.mp he
    refine ⟨(h.pairings e hmem).1, fun hexchanged => ?_⟩
    rcases List.mem_cons.mp hexchanged with heq | hold
    · exact absurd heq (of_decide_eq_true hother)
    · exact (h.pairings e hmem).2 hold
  · rcases List.mem_cons.mp hmem with rfl | hold
    · exact List.mem_map_of_mem (h.pairings _ hcode).1
    · exact h.exchanged code hold
  · have hsame := h.attempts peer later (le_trans hle hlater)
    show inWindow later (Function.update s.sys.attempts request.peer [] peer)
      = inWindow later (failuresSince peer
        ((request.peer, request.stamp, true) :: s.history.attempts))
    by_cases hpeer : peer = request.peer
    · subst hpeer
      rw [Function.update_self, failuresSince, if_pos rfl, if_pos rfl]
    · rw [Function.update_of_ne hpeer, failuresSince, if_neg (Ne.symm hpeer), hsame]

/-- What an exchange returns, and what it leaves. -/
theorem Inv.exchange (h : Inv env s) {request : Exchange}
    (hfresh : Fresh env s (.exchange request))
    (htrust : env.normalizeTrust request.trust ∈ trustModes) :
    (Limited s request ∧ ∃ after, exchangePairing env request s.sys
        = (.error .pairingRateLimited, after)
      ∧ Inv env ⟨after, s.history.look env request.now⟩)
    ∨ ¬ Limited s request ∧ ∃ found after, exchangePairing env request s.sys = (.ok found, after)
      ∧ Inv env ⟨after, s.history.next env (.exchange request) (.ok (.session found))⟩
      ∧ (found.isSome → env.normalizeCode request.code ∉ s.history.exchanged
        ∧ ∃ expires, (env.normalizeCode request.code, expires) ∈ s.history.issued
          ∧ request.check < expires) := by
  obtain ⟨hclock, hcheck, hstamp, hnew⟩ := hfresh
  obtain ⟨after, hprune, hafter, hattempts⟩ := h.look hclock
  unfold exchangePairing
  rw [if_neg (not_not_intro htrust), hprune]
  dsimp only
  have hiff : Limited s request ↔ maxPairingAttempts ≤ (after.attempts request.peer).length := by
    rw [Limited, hattempts]
  by_cases hlimited : maxPairingAttempts ≤ (after.attempts request.peer).length
  · rw [if_pos hlimited]
    exact Or.inl ⟨hiff.mpr hlimited, _, rfl, hafter⟩
  rw [if_neg hlimited]
  refine Or.inr ⟨fun h => hlimited (hiff.mp h), ?_⟩
  have hle : request.now ≤ request.stamp := le_trans hcheck hstamp
  cases hlookup : after.pairings.lookup (env.normalizeCode request.code) with
  | none =>
    refine ⟨none, _, rfl, ?_, fun h => absurd h (by simp)⟩
    exact hafter.failed hle fun e he => List.mem_of_mem_filter he
  | some expires =>
    obtain ⟨front, back, hsplit, -⟩ := List.lookup_eq_some_iff.mp hlookup
    have hmem : (env.normalizeCode request.code, expires) ∈ after.pairings := by
      rw [hsplit]
      exact List.mem_append_right _ List.mem_cons_self
    rw [Option.any_some]
    by_cases hexpired : request.check < expires
    · rw [if_pos (decide_eq_true hexpired)]
      obtain ⟨session, hsession⟩ :=
        session_of_usable (@usable_granted env request) request.token
      refine ⟨some session, save { after with
        pairings := after.pairings.filter fun e => e.1 ≠ env.normalizeCode request.code
        attempts := Function.update after.attempts request.peer []
        sessions := setSession (env.digest request.token) (History.granted env request).record
          (after.sessions.drop (after.sessions.length - (maxSessions - 1))) }, ?_, ?_, fun _ => ?_⟩
      · rw [createSession]
        rw [History.granted] at hsession
        dsimp only at hsession ⊢
        rw [hsession]
        rfl
      · have hdigest : env.digest request.token
            ∉ (s.history.look env request.now).ledger.map (·.digest) := by
          have hsame := digests_mark s.history (fun g => !live env request.now g.record)
            (fun g => { g with seenExpired := true }) fun g => rfl
          exact fun hin => hnew (hsame ▸ hin)
        exact hafter.granted hle hdigest hmem hafter.displace.symm
      · exact ⟨(hafter.pairings _ hmem).2, expires, (hafter.pairings _ hmem).1, hexpired⟩
    · rw [if_neg (by simpa using hexpired)]
      refine ⟨none, _, rfl, ?_, fun h => absurd h (by simp)⟩
      exact hafter.failed hle fun e he => List.mem_of_mem_filter he

/-! ### Reading sessions -/

theorem listed_of_usable {sessions : List (String × Record)} (currentDigest : String)
    (h : ∀ e ∈ sessions, e.2.Usable env) :
    ∃ items, sessions.mapM (listed env currentDigest) = .ok items := by
  induction sessions with
  | nil => exact ⟨[], rfl⟩
  | cons e rest ih =>
    obtain ⟨hfirst, hrest⟩ := List.forall_mem_cons.mp h
    obtain ⟨items, hitems⟩ := ih hrest
    obtain ⟨id, hid⟩ := Option.isSome_iff_exists.mp hfirst.id
    obtain ⟨label, hlabel⟩ := Option.isSome_iff_exists.mp hfirst.label
    obtain ⟨trust, htrust⟩ := Option.isSome_iff_exists.mp hfirst.trust
    obtain ⟨value, created, hvalue, hcreated⟩ := hfirst.created
    have hitem : listed env currentDigest e
        = .ok ⟨id, label, trust, created, e.2.expiresAt, e.1 = currentDigest⟩ := by
      rw [listed, hid, hlabel, htrust, hvalue]
      show (toFloat env value >>= _) = _
      rw [hcreated]
      rfl
    refine ⟨⟨id, label, trust, created, e.2.expiresAt, e.1 = currentDigest⟩ :: items, ?_⟩
    rw [List.mapM_cons, hitem, hitems]
    rfl

/-- The session of a token was given out or stored, is not revoked, displaced or expired, and if it
    is not remembered, the registry was not restarted since. -/
def Entitled (env : Env) (h : History) (now : Time) (token : String) : Prop :=
  ∃ g ∈ h.ledger, g.digest = env.digest token ∧ g.revoked = false ∧ g.displaced = false
    ∧ (g.record.trust = some (.text "session") → g.restarted = false)
    ∧ live env now g.record = true

theorem valid_iff {g : Granted} : g.valid = true ↔ g.revoked = false ∧ g.displaced = false
    ∧ (g.record.trust = some (.text "session") → g.restarted = false) := by
  unfold Granted.valid Record.remembered
  cases g.revoked <;> cases g.displaced <;> cases g.restarted <;> simp

/-- The registry has a session after the clock was looked at exactly if there is access. -/
theorem Inv.mem_look_iff (h : Inv env s) (hclock : s.history.clock ≤ now) (token : String) :
    (∃ e ∈ (s.history.look env now).sessions, e.1 = env.digest token)
      ↔ Entitled env s.history now token := by
  rw [sessions_look]
  constructor
  · rintro ⟨e, he, heq⟩
    obtain ⟨hmem, hlive⟩ := List.mem_filter.mp he
    obtain ⟨g, hg, hpresent, rfl⟩ := mem_sessions.mp hmem
    have hvalid : g.valid = true := (Bool.and_eq_true_iff.mp hpresent).1
    obtain ⟨hrevoked, hdisplaced, hrestarted⟩ := valid_iff.mp hvalid
    exact ⟨g, hg, heq, hrevoked, hdisplaced, hrestarted, hlive⟩
  · rintro ⟨g, hg, hdigest, hrevoked, hdisplaced, hrestarted, hlive⟩
    have hseen : g.seenExpired = false := by
      rw [Bool.eq_false_iff]
      intro hseen
      exact absurd ((h.seen g hg hseen).symm.trans (live_of_le hclock hlive)) (by simp)
    have hvalid : g.valid = true := valid_iff.mpr ⟨hrevoked, hdisplaced, hrestarted⟩
    refine ⟨g.entry, List.mem_filter.mpr ⟨mem_sessions.mpr ⟨g, hg, ?_, rfl⟩, hlive⟩, hdigest⟩
    rw [Granted.present, hvalid, hseen]
    rfl

/-- `authenticate` is told from the history. -/
theorem Inv.authenticate (h : Inv env s) (hclock : s.history.clock ≤ now) (token : String) :
    ∃ found after, authenticate env now token s.sys = (.ok found, after)
      ∧ Inv env ⟨after, s.history.look env now⟩
      ∧ (found.isSome ↔ Entitled env s.history now token) := by
  obtain ⟨after, hprune, hafter, -⟩ := h.look hclock
  rw [← h.mem_look_iff hclock token, ← hafter.sessions, Web.authenticate, hprune]
  dsimp only
  cases hlookup : after.sessions.lookup (env.digest token) with
  | none =>
    refine ⟨none, after, rfl, hafter, iff_of_false (by simp) ?_⟩
    rintro ⟨e, he, heq⟩
    have hne := List.lookup_eq_none_iff.mp hlookup e he
    exact absurd heq.symm (by simpa using hne)
  | some record =>
    obtain ⟨front, back, hsplit, -⟩ := List.lookup_eq_some_iff.mp hlookup
    have hmem : (env.digest token, record) ∈ after.sessions := by
      rw [hsplit]
      exact List.mem_append_right _ List.mem_cons_self
    have husable : record.Usable env := hafter.usable_sessions _ hmem
    obtain ⟨found, hfound⟩ := session_of_usable husable token
    refine ⟨some found, after, ?_, hafter, iff_of_true rfl ⟨_, hmem, rfl⟩⟩
    dsimp only
    rw [hfound]
    rfl

/-! ### Restarts -/

theorem remembered_of_rememberedOf {members : List (String × Option Record)}
    {e : String × Record} (he : e ∈ rememberedOf members) : e.2.remembered = true := by
  obtain ⟨⟨key, record⟩, -, hfound⟩ := List.mem_filterMap.mp he
  cases record with
  | none => exact absurd hfound (by simp)
  | some record =>
    by_cases hremembered : record.remembered = true
    · simp only [hremembered, if_true, Option.some.injEq] at hfound
      rw [← hfound]
      exact hremembered
    · exact absurd hfound (by simp [hremembered])

theorem filter_stored (file : StateFile) :
    (storedSessions file).filter (fun e => e.2.remembered) = storedSessions file := by
  rw [List.filter_eq_self]
  intro e he
  cases file with
  | document members => exact remembered_of_rememberedOf he
  | unreadable => exact absurd he List.not_mem_nil
  | notObject => exact absurd he List.not_mem_nil
  | noSessions => exact absurd he List.not_mem_nil

/-- A registry that starts has the stored sessions that have not expired. -/
theorem load_spec {file : StateFile} (hfile : file ≠ .notObject)
    (h : ∀ e ∈ storedSessions file, e.2.Usable env) : ∃ after, load env now file = (.ok (), after)
      ∧ after.pairings = [] ∧ (∀ peer, after.attempts peer = [])
      ∧ after.sessions = (storedSessions file).filter (fun e => live env now e.2)
      ∧ Stored after := by
  have hread : ∃ after, prune env now ⟨[], storedSessions file, fun _ => [], file⟩ = (.ok (), after)
      ∧ after.pairings = [] ∧ (∀ peer, after.attempts peer = [])
      ∧ after.sessions = (storedSessions file).filter (fun e => live env now e.2)
      ∧ Stored after := by
    obtain ⟨after, hprune, hpairings, hattempts, hsessions, hstored⟩ :=
      @prune_spec env now ⟨[], storedSessions file, fun _ => [], file⟩ h
    refine ⟨after, hprune, hpairings, fun peer => ?_, hsessions, hstored ⟨hfile, ?_⟩⟩
    · rw [hattempts]
      rfl
    · exact (filter_stored file).symm
  cases file with
  | unreadable => exact ⟨_, rfl, rfl, fun _ => rfl, rfl, hfile, rfl⟩
  | notObject => exact absurd rfl hfile
  | noSessions => exact hread
  | document members =>
    obtain ⟨after, hprune, hafter⟩ := hread
    refine ⟨after, ?_, hafter⟩
    have hprune : prune env now ⟨[], rememberedOf members, fun _ => [], .document members⟩
        = (.ok (), after) := hprune
    rw [load]
    dsimp only
    rw [hprune]

theorem Usable.stored {file : StateFile} (h : Usable env file) : file ≠ .notObject
    ∧ ((storedSessions file).map Prod.fst).Nodup
    ∧ ∀ e ∈ storedSessions file, e.2.Usable env := by
  cases file with
  | unreadable => exact ⟨by simp, List.nodup_nil, fun e he => absurd he List.not_mem_nil⟩
  | notObject => exact absurd h id
  | noSessions => exact ⟨by simp, List.nodup_nil, fun e he => absurd he List.not_mem_nil⟩
  | document members => exact ⟨by simp, h.1, h.2⟩

/-- The ledger of the stored sessions. -/
def storedLedger (file : StateFile) : List Granted :=
  (storedSessions file).map fun e => { digest := e.1, record := e.2 }

theorem sessions_storedLedger (file : StateFile) :
    ((storedLedger file).filter Granted.present).map Granted.entry = storedSessions file := by
  have hall : (storedLedger file).filter Granted.present = storedLedger file := by
    rw [List.filter_eq_self]
    intro g hg
    obtain ⟨e, -, rfl⟩ := List.mem_map.mp hg
    rfl
  rw [hall, storedLedger, List.map_map]
  exact List.map_id _

/-- A registry starts with any usable state file. -/
theorem inv_start {file : StateFile} (h : Usable env file) :
    (load env now file).1 = .ok ()
      ∧ Inv env ⟨(load env now file).2, startHistory env now file⟩ := by
  obtain ⟨hfile, hnodup, husable⟩ := h.stored
  obtain ⟨after, hload, hpairings, hattempts, hsessions, hstored⟩ :=
    @load_spec env now file hfile husable
  have hledger : History.Sound env ⟨now, [], [], [], storedLedger file⟩ := by
    refine ⟨fun g hg => ?_, ?_, fun g hg hseen => ?_⟩
    · obtain ⟨e, he, rfl⟩ := List.mem_map.mp hg
      exact husable e he
    · rw [storedLedger, List.map_map]
      exact hnodup
    · obtain ⟨e, -, rfl⟩ := List.mem_map.mp hg
      exact absurd hseen Bool.false_ne_true
  rw [hload]
  refine ⟨rfl, ⟨hledger.look le_rfl, ?_, hstored, fun e he => ?_,
    fun code hcode => absurd hcode List.not_mem_nil, fun peer later _ => ?_⟩⟩
  · rw [startHistory, sessions_look]
    exact hsessions.trans (congrArg _ (sessions_storedLedger file).symm)
  · exact absurd (hpairings ▸ he) List.not_mem_nil
  · rw [hattempts]
    rfl

/-- A restart is told from the history. -/
theorem Inv.restart (h : Inv env s) (hclock : s.history.clock ≤ now) : ∃ after,
    load env now s.sys.file = (.ok (), after)
      ∧ Inv env ⟨after, s.history.next env (.restart now) (.ok .nothing)⟩ := by
  obtain ⟨hfile, hstored⟩ := h.stored
  have husable : ∀ e ∈ storedSessions s.sys.file, e.2.Usable env := by
    rw [hstored]
    exact fun e he => h.usable_sessions e (List.mem_of_mem_filter he)
  obtain ⟨after, hload, hpairings, hattempts, hsessions, hafter⟩ :=
    @load_spec env now s.sys.file hfile husable
  let restarted := s.history.mark (fun _ => true) fun g => { g with restarted := true }
  have hdropped : restarted.sessions = s.history.sessions.filter fun e => e.2.remembered := by
    refine sessions_mark s.history (fun _ => true) (fun g => { g with restarted := true })
      (fun e => e.2.remembered) (fun g => rfl) fun g _ => ?_
    cases hremembered : g.record.remembered <;> cases g.restarted <;>
      simp [Granted.present, Granted.valid, Granted.entry, hremembered]
  have hmarked : restarted.Sound env :=
    h.toSound.mark (fun _ => true) _ (fun g => rfl) fun g => rfl
  have hlooked := hmarked.look hclock
  refine ⟨after, hload, ⟨⟨hlooked.usable, hlooked.digests, hlooked.seen⟩, ?_, hafter,
    fun e he => ?_, h.exchanged, fun peer later _ => ?_⟩⟩
  · have hlook : (restarted.look env now).sessions
        = restarted.sessions.filter fun e => live env now e.2 := sessions_look
    refine hsessions.trans ?_
    rw [hstored, h.sessions, ← hdropped]
    exact hlook.symm
  · exact absurd (hpairings ▸ he) List.not_mem_nil
  · rw [hattempts]
    rfl

/-! ### Runs -/

/-- What a call of a registry is to return. -/
def Meets (env : Env) (s : State) (event : Event) (outcome : Except Raised Result) : Prop :=
  match event with
  | .restart _ => outcome = .ok .nothing
  | .issue _ _ draws => ∃ code ∈ draws, outcome = .ok (.code code)
  | .exchange request =>
    (env.normalizeTrust request.trust ∉ trustModes ∧ outcome = .error .valueError)
    ∨ (env.normalizeTrust request.trust ∈ trustModes ∧ Limited s request
      ∧ outcome = .error .pairingRateLimited)
    ∨ (env.normalizeTrust request.trust ∈ trustModes ∧ ¬ Limited s request
      ∧ ∃ found, outcome = .ok (.session found)
        -- a code is exchanged before it expires, and for the first time
        ∧ (found.isSome → env.normalizeCode request.code ∉ s.history.exchanged
          ∧ ∃ expires, (env.normalizeCode request.code, expires) ∈ s.history.issued
            ∧ request.check < expires))
  | .authenticate now token => ∃ found, outcome = .ok (.session found)
      ∧ (found.isSome ↔ Entitled env s.history now token)
      ∧ ((∃ g ∈ s.history.ledger, g.digest = env.digest token ∧ g.revoked = true) → found = none)
  | .list _ _ => ∃ items, outcome = .ok (.listing items)
  | .revoke _ => outcome = .ok .nothing
  | .revokeId _ => ∃ found, outcome = .ok (.found found)
  | .revokeAll => ∃ count, outcome = .ok (.count count)

/-- A revoked token has no access. -/
theorem Inv.not_entitled (h : Inv env s) {token : String} {g : Granted}
    (hg : g ∈ s.history.ledger) (hdigest : g.digest = env.digest token)
    (hrevoked : g.revoked = true) : ¬ Entitled env s.history now token := by
  -- a digest is in the ledger once
  rintro ⟨other, hother, hsame, hvalid, -⟩
  obtain rfl := List.inj_on_of_nodup_map h.digests hg hother (hdigest.trans hsame.symm)
  exact absurd (hrevoked.symm.trans hvalid) (by simp)

/-- Every call returns what it is to return, and leaves what the history tells. -/
theorem Inv.step (h : Inv env s) {event : Event} (hfresh : Fresh env s event) :
    Meets env s event (run env event s.sys).1
      ∧ Inv env ⟨(run env event s.sys).2, s.history.next env event (run env event s.sys).1⟩ := by
  cases event with
  | restart now =>
    obtain ⟨sys, hload, hinv⟩ := h.restart hfresh
    rw [run, hload]
    exact ⟨rfl, hinv⟩
  | issue now stamp draws =>
    obtain ⟨code, hcode, sys, hissue, hinv⟩ := h.issue hfresh
    rw [run, hissue]
    exact ⟨⟨code, hcode, rfl⟩, hinv⟩
  | exchange request =>
    by_cases htrust : env.normalizeTrust request.trust ∈ trustModes
    · rcases h.exchange hfresh htrust with
        ⟨hlimited, sys, hrun, hinv⟩ | ⟨hlimited, found, sys, hrun, hinv, hcode⟩
      · rw [run, hrun]
        exact ⟨Or.inr (Or.inl ⟨htrust, hlimited, rfl⟩), hinv⟩
      · rw [run, hrun]
        exact ⟨Or.inr (Or.inr ⟨htrust, hlimited, found, rfl, hcode⟩), hinv⟩
    · rw [run, exchangePairing, if_pos htrust]
      exact ⟨Or.inl ⟨htrust, rfl⟩, h⟩
  | authenticate now token =>
    obtain ⟨found, sys, hrun, hinv, hfound⟩ := h.authenticate hfresh token
    rw [run, hrun]
    refine ⟨⟨found, rfl, hfound, ?_⟩, hinv⟩
    rintro ⟨g, hg, hdigest, hrevoked⟩
    by_contra hsome
    exact h.not_entitled hg hdigest hrevoked (hfound.mp (Option.isSome_iff_ne_none.mpr hsome))
  | list now currentToken =>
    obtain ⟨sys, hprune, hinv, -⟩ := h.look hfresh
    obtain ⟨items, hitems⟩ := listed_of_usable
      (if currentToken = "" then "" else env.digest currentToken) hinv.usable_sessions
    rw [run, listSessions, hprune]
    dsimp only
    rw [hitems]
    exact ⟨⟨items, rfl⟩, hinv⟩
  | revoke token =>
    exact ⟨rfl, h.revoke (fun g => g.digest = env.digest token) _ fun g => decide_not⟩
  | revokeId id =>
    obtain ⟨found, sys, hrun, hinv⟩ := h.revokeId id
    rw [run, hrun]
    exact ⟨⟨found, rfl⟩, hinv⟩
  | revokeAll =>
    have hinv := h.revoke (fun _ => true) (fun _ => false) fun g => rfl
    rw [List.filter_false] at hinv
    exact ⟨⟨_, rfl⟩, hinv⟩

theorem inv_of_reach (h : (access env).Reach (Fresh env) s) : Inv env s := by
  refine h.invariant (fun s hs => ?_) fun s event after _ hinv hfresh hstep => ?_
  · obtain ⟨file, now, husable, rfl⟩ := hs
    exact (inv_start husable).2
  · obtain rfl := Option.some.inj hstep
    exact (hinv.step hfresh).2

/-- **Browser access.** A registry starts with every usable state file.  In every run with times
    that do not go back and fresh codes and tokens, every call returns, but for exchanges with an
    unknown trust mode or from a peer with too many failures since its last success; a code yields
    at most one session, before it expires; and a token has access exactly if it was given out or
    stored and is not expired, revoked or displaced, and remembered if the registry was
    restarted. -/
theorem browser_access (env : Env) :
    (∀ file now, Usable env file → (load env now file).1 = .ok ())
      ∧ ∀ s event, (access env).Reach (Fresh env) s → Fresh env s event →
        Meets env s event (run env event s.sys).1 :=
  ⟨fun _ _ h => (inv_start h).1, fun _ _ h hfresh => ((inv_of_reach h).step hfresh).1⟩

/-! ### A registry that starts without a state file -/

/-- Texts are their own digests, and are left as they are. -/
def plainEnv : Env := ⟨id, id, id, fun _ => none⟩

def blankState : State := ⟨(load plainEnv 0 .unreadable).2, startHistory plainEnv 0 .unreadable⟩

theorem reach_blankState : (access plainEnv).Reach (Fresh plainEnv) blankState :=
  .init ⟨.unreadable, 0, trivial, rfl⟩

/-- An exchange of one peer at the time 0. -/
def exchangeOf (code token : String) : Exchange :=
  ⟨code, "10.0.0.2", "session", "", token, token, 0, 0, 0⟩

theorem paired_access : ∃ s, (access plainEnv).Reach (Fresh plainEnv) s
    ∧ s.history.issued.map Prod.fst = ["ABCD"]
    ∧ Meets plainEnv s (.exchange (exchangeOf "ABCD" "token"))
      (run plainEnv (.exchange (exchangeOf "ABCD" "token")) s.sys).1 := by
  have hdrive : ((access plainEnv).drive (Fresh plainEnv) blankState [.issue 0 0 ["ABCD"]]).any
      (fun s => s.history.issued.map Prod.fst = ["ABCD"]
        && decide (Fresh plainEnv s (.exchange (exchangeOf "ABCD" "token")))) = true := by
    decide +kernel
  obtain ⟨s, hs, hcheck⟩ := Machine.exists_reach_of_drive reach_blankState hdrive
  obtain ⟨hissued, hfresh⟩ := Bool.and_eq_true_iff.mp hcheck
  exact ⟨s, hs, of_decide_eq_true hissued,
    (browser_access plainEnv).2 s _ hs (of_decide_eq_true hfresh)⟩

/-- The failures of a peer in the window before a time. -/
def failuresIn (now : Time) (peer : String) (attempts : List (String × Time × Bool)) : ℕ :=
  (inWindow now ((attempts.filter fun a => a.1 = peer ∧ a.2.2 = false).map fun a => a.2.1)).length

/-- The session that an exchange granted. -/
def grantedOf : Except Raised Result → Option BrowserSession
  | .ok (.session granted) => granted
  | _ => none

theorem eq_of_grantedOf {result : Except Raised Result} {session : BrowserSession}
    (h : grantedOf result = some session) : result = .ok (.session (some session)) := by
  unfold grantedOf at h
  split at h
  · rw [h]
  · cases h

/-- A success makes the failures before it forgotten: a peer gets a session after eight failures in
    the last minute. -/
theorem success_forgets : ∃ s, (access plainEnv).Reach (Fresh plainEnv) s
    ∧ maxPairingAttempts ≤ failuresIn 0 "10.0.0.2" s.history.attempts
    ∧ Fresh plainEnv s (.exchange (exchangeOf "EFGH" "other"))
    ∧ ∃ session, (run plainEnv (.exchange (exchangeOf "EFGH" "other")) s.sys).1
        = .ok (.session (some session)) := by
  have hdrive : ((access plainEnv).drive (Fresh plainEnv) blankState
      ([.issue 0 0 ["ABCD"]] ++ List.replicate 4 (.exchange (exchangeOf "wrong" "unused"))
        ++ [.exchange (exchangeOf "ABCD" "token"), .issue 0 0 ["EFGH"]]
        ++ List.replicate 4 (.exchange (exchangeOf "wrong" "unused")))).any
      (fun s => decide (maxPairingAttempts ≤ failuresIn 0 "10.0.0.2" s.history.attempts)
        && decide (Fresh plainEnv s (.exchange (exchangeOf "EFGH" "other")))
        && (grantedOf (run plainEnv (.exchange (exchangeOf "EFGH" "other")) s.sys).1).isSome)
      = true := by
    decide +kernel
  obtain ⟨s, hs, hcheck⟩ := Machine.exists_reach_of_drive reach_blankState hdrive
  obtain ⟨hcheck, hsession⟩ := Bool.and_eq_true_iff.mp hcheck
  obtain ⟨hfailures, hfresh⟩ := Bool.and_eq_true_iff.mp hcheck
  refine ⟨s, hs, of_decide_eq_true hfailures, of_decide_eq_true hfresh, ?_⟩
  obtain ⟨session, hgranted⟩ := Option.isSome_iff_exists.mp hsession
  exact ⟨session, eq_of_grantedOf hgranted⟩

end RomCloud.Web
