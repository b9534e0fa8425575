import RomCloud.Lib.Machine
import RomCloud.Web.Auth

namespace RomCloud.Web

open Lib

/-!
# Who has access

What was given out and taken back, told from the calls and their results alone.

* `Event`, `run` — the calls of a registry, and its restart;
* `Granted`, `History` — the sessions that were ever given out or stored, the codes that were issued
  and exchanged, and all attempts;
* `History.next` — what a call and its result add to the history;
* `Usable` — the state files whose sessions have the fields that are read of them;
* `access` — the runs of a registry, with times that do not go back and fresh codes and tokens.
-/

variable (env : Env)

/-! ### Calls -/

inductive Event
  | restart (now : Time)
  | issue (now stamp : Time) (draws : List String)
  | exchange (request : Exchange)
  | authenticate (now : Time) (token : String)
  | list (now : Time) (currentToken : String)
  | revoke (token : String)
  | revokeId (id : String)
  | revokeAll

/-- What a call returns. -/
inductive Result
  | nothing
  | code (code : String)
  | session (session : Option BrowserSession)
  | listing (items : List Listed)
  | found (found : Bool)
  | count (count : ℕ)

/-- The outcome of a call, and the state after it. -/
def run (event : Event) (s : Sys) : Except Raised Result × Sys :=
  match event with
  | .restart now => let (r, s) := load env now s.file; (r.map fun _ => .nothing, s)
  | .issue now stamp draws => let (r, s) := issuePairing env now stamp draws s; (r.map .code, s)
  | .exchange request => let (r, s) := exchangePairing env request s; (r.map .session, s)
  | .authenticate now token => let (r, s) := authenticate env now token s; (r.map .session, s)
  | .list now currentToken => let (r, s) := listSessions env now currentToken s; (r.map .listing, s)
  | .revoke token => (.ok .nothing, revoke env token s)
  | .revokeId id => let (r, s) := revokeId id s; (r.map .found, s)
  | .revokeAll => let (n, s) := revokeAll s; (.ok (.count n), s)

/-! ### The history -/

/-- A session that was given out, or was in the first state file. -/
structure Granted where
  digest : String
  record : Record
  revoked : Bool := false
  displaced : Bool := false
  restarted : Bool := false
  /-- A call has looked at the clock after the session had expired. -/
  seenExpired : Bool := false

/-- The session has not expired. -/
def live (now : Time) (record : Record) : Bool :=
  match unexpired env now record with
  | .ok live => live
  | .error _ => false

/-- The session was not taken back. -/
def Granted.valid (g : Granted) : Bool :=
  !g.revoked && !g.displaced && (!g.restarted || g.record.remembered)

/-- The session was not taken back, and was not seen expired. -/
def Granted.present (g : Granted) : Bool := g.valid && !g.seenExpired

structure History where
  clock : Time
  /-- The codes, with the times until which they can be exchanged. -/
  issued : List (String × Time)
  exchanged : List String
  /-- The attempts since the registry was started, latest first: who, when, and whether a session
      was given out. -/
  attempts : List (String × Time × Bool)
  ledger : List Granted

/-- The failures of a peer since its last success. -/
def failuresSince (peer : String) : List (String × Time × Bool) → List Time
  | [] => []
  | (who, stamp, success) :: rest =>
    if who = peer then if success then [] else failuresSince peer rest ++ [stamp]
    else failuresSince peer rest

/-- The stamps that lie in the window before a time. -/
def inWindow (now : Time) (stamps : List Time) : List Time :=
  stamps.filter fun stamp => now < stamp + pairingAttemptWindowSeconds

namespace History

variable (h : History)

/-- Some sessions are marked. -/
def mark (condition : Granted → Bool) (flag : Granted → Granted) : History :=
  { h with ledger := h.ledger.map fun g => if condition g then flag g else g }

/-- The clock is looked at. -/
def look (now : Time) : History :=
  { h.mark (fun g => !live env now g.record) (fun g => { g with seenExpired := true }) with
    clock := now }

def revoke (condition : Granted → Bool) : History :=
  h.mark condition fun g => { g with revoked := true }

/-- The digests of the sessions that make room for a new one: the oldest, until 127 are left. -/
def oldest : List String :=
  let present := (h.ledger.filter Granted.present).map (·.digest)
  present.take (present.length - (maxSessions - 1))

def displace : History :=
  h.mark (fun g => g.digest ∈ h.oldest) fun g => { g with displaced := true }

def grant (g : Granted) : History := { h with ledger := h.ledger ++ [g] }

/-- An attempt that was neither refused for its trust mode nor for its peer. -/
def attempt (request : Exchange) (success : Bool) : History :=
  { h with
    clock := request.stamp
    exchanged := if success then env.normalizeCode request.code :: h.exchanged else h.exchanged
    attempts := (request.peer, request.stamp, success) :: h.attempts }

/-- The session that an exchange gives out. -/
def granted (request : Exchange) : Granted where
  digest := env.digest request.token
  record := newRecord (env.normalizeTrust request.trust)
    (if request.label = "" then "Browser at " ++ request.peer else request.label)
    request.id request.stamp

/-- What a call and its result add to the history. -/
def next (event : Event) (outcome : Except Raised Result) : History :=
  match event, outcome with
  | .restart now, _ =>
    let h := (h.mark (fun _ => true) fun g => { g with restarted := true }).look env now
    { h with attempts := [] }
  | .issue now stamp _, .ok (.code code) =>
    let h := h.look env now
    { h with clock := stamp, issued := (code, stamp + pairingTtlSeconds) :: h.issued }
  | .issue now stamp _, _ => { h.look env now with clock := stamp }
  | .exchange request, .ok (.session (some _)) =>
    ((h.look env request.now).displace.grant (granted env request)).attempt env request true
  | .exchange request, .ok _ => (h.look env request.now).attempt env request false
  | .exchange _, .error .valueError => h
  | .exchange request, .error _ => h.look env request.now
  | .authenticate now _, _ => h.look env now
  | .list now _, _ => h.look env now
  | .revoke token, _ => h.revoke fun g => g.digest = env.digest token
  | .revokeId id, _ =>
    -- ids are random texts: the first one is meant, should the first state file have two
    match (h.ledger.filter Granted.present).find? fun g => g.record.id = some (.text id) with
    | some first => h.revoke fun g => g.digest = first.digest
    | none => h
  | .revokeAll, _ => h.revoke fun _ => true

end History

/-! ### Runs -/

/-- The fields of the session are there and can be read. -/
structure Record.Usable (record : Record) : Prop where
  id : record.id.isSome
  label : record.label.isSome
  trust : record.trust.isSome
  created : ∃ value created, record.createdAt = some value ∧ toFloat env value = .ok created
  expires : ∀ value, record.expiresAt = some value → value ≠ .null →
    ∃ expires, toFloat env value = .ok expires

/-- The state file is not there, cannot be read, or is an object whose remembered sessions have the
    fields that are read of them. -/
def Usable (file : StateFile) : Prop :=
  match file with
  | .unreadable => True
  | .notObject => False
  | .noSessions => True
  | .document members => ((rememberedOf members).map Prod.fst).Nodup
      ∧ ∀ e ∈ rememberedOf members, e.2.Usable env

structure State where
  sys : Sys
  history : History

/-- The remembered sessions of a state file. -/
def storedSessions (file : StateFile) : List (String × Record) :=
  match file with
  | .document members => rememberedOf members
  | _ => []

/-- The history at the start of a registry. -/
def startHistory (now : Time) (file : StateFile) : History :=
  History.look env
    { clock := now
      issued := []
      exchanged := []
      attempts := []
      ledger := (storedSessions file).map fun e => { digest := e.1, record := e.2 } } now

/-- Times do not go back; codes and tokens are fresh. -/
def Fresh (s : State) (event : Event) : Prop :=
  match event with
  | .restart now => s.history.clock ≤ now
  | .issue now stamp draws => s.history.clock ≤ now ∧ now ≤ stamp ∧ draws ≠ []
      ∧ ∀ code ∈ draws, code ∉ s.history.issued.map Prod.fst
  | .exchange request => s.history.clock ≤ request.now ∧ request.now ≤ request.check
      ∧ request.check ≤ request.stamp
      ∧ env.digest request.token ∉ s.history.ledger.map (·.digest)
  | .authenticate now _ => s.history.clock ≤ now
  | .list now _ => s.history.clock ≤ now
  | .revoke _ => True
  | .revokeId _ => True
  | .revokeAll => True

instance (s : State) (event : Event) : Decidable (Fresh env s event) :=
  match event with
  | .restart now => inferInstanceAs (Decidable (s.history.clock ≤ now))
  | .issue _ _ _ => inferInstanceAs (Decidable (_ ∧ _ ∧ _ ∧ _))
  | .exchange _ => inferInstanceAs (Decidable (_ ∧ _ ∧ _ ∧ _))
  | .authenticate now _ => inferInstanceAs (Decidable (s.history.clock ≤ now))
  | .list now _ => inferInstanceAs (Decidable (s.history.clock ≤ now))
  | .revoke _ => .isTrue trivial
  | .revokeId _ => .isTrue trivial
  | .revokeAll => .isTrue trivial

/-- The runs of a registry, from any usable state file on. -/
def access : Machine State Event where
  init s := ∃ file now, Usable env file
    ∧ s = ⟨(load env now file).2, startHistory env now file⟩
  step s event :=
    let outcome := run env event s.sys
    some ⟨outcome.2, s.history.next env event outcome.1⟩

end RomCloud.Web
