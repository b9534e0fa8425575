import Mathlib.Algebra.Order.Ring.Rat
import Mathlib.Data.String.Basic

namespace RomCloud.Web

/-!
# Browser sessions

The registry of the web server: pairing codes, failed attempts, and sessions, of which the
remembered ones are kept in a state file.

* `Value`, `Record` — what `json.loads` makes of a field, and the fields of a session;
* `StateFile` — what is in the state file;
* `prune`, `save`, `load` — expiry, and the state file;
* `issuePairing`, `exchangePairing`, `authenticate`, `listSessions`, `revoke`, `revokeId`,
  `revokeAll` — the calls of the registry.

A call is given what it reads from the clock, and the random texts it draws.  Digests, the upper and
lower case of a text and the numbers that `float` reads in a text are parameters.
-/

/-- What the clock shows, in seconds. -/
abbrev Time := ℚ

def pairingTtlSeconds : Time := 120
def sessionTtlSeconds : Time := 12 * 60 * 60
def remember90DaysSeconds : Time := 90 * 24 * 60 * 60
def pairingAttemptWindowSeconds : Time := 60
def maxPairingAttempts : ℕ := 5
def maxPairings : ℕ := 8
def maxSessions : ℕ := 128

def trustModes : List String := ["session", "90-days", "until-revoked"]

/-- What is raised. -/
inductive Raised
  | valueError
  | typeError
  | overflowError
  | keyError
  | attributeError
  | runtimeError
  | pairingRateLimited
deriving DecidableEq

/-! ### Values -/

inductive PyFloat
  | finite (value : ℚ)
  | infinity
  | negInfinity
  | nan
deriving DecidableEq

/-- `value > now`. -/
def PyFloat.after (value : PyFloat) (now : Time) : Bool :=
  match value with
  | finite value => now < value
  | infinity => true
  | _ => false

/-- A JSON value; nothing reads what is in an array or an object. -/
inductive Value
  | null
  | bool (value : Bool)
  | int (value : ℤ)
  | float (value : PyFloat)
  | text (value : String)
  | array
  | object
deriving DecidableEq

/-- The functions of the language and its library that the registry calls. -/
structure Env where
  /-- `_token_digest`. -/
  digest : String → String
  /-- `code.strip().upper().replace("-", "").replace(" ", "")`. -/
  normalizeCode : String → String
  /-- `trust.strip().lower()`. -/
  normalizeTrust : String → String
  /-- The number that `float` reads in a text, if there is one. -/
  parseFloat : String → Option PyFloat

variable (env : Env)

/-- `float(value)`. -/
def toFloat : Value → Except Raised PyFloat
  | .null => .error .typeError
  | .bool value => .ok (.finite (if value then 1 else 0))
  | .int value =>
    if value.natAbs < 2 ^ 1024 - 2 ^ 970 then .ok (.finite value) else .error .overflowError
  | .float value => .ok value
  | .text value =>
    match env.parseFloat value with
    | some value => .ok value
    | none => .error .valueError
  | .array => .error .typeError
  | .object => .error .typeError

/-- A session, as far as its fields are there. -/
structure Record where
  id : Option Value
  label : Option Value
  trust : Option Value
  createdAt : Option Value
  expiresAt : Option Value
deriving DecidableEq

/-- The session is kept in the state file. -/
def Record.remembered (record : Record) : Bool := record.trust ≠ some (.text "session")

/-- `record[key]`. -/
def field : Option Value → Except Raised Value
  | some value => .ok value
  | none => .error .keyError

/-- What is in the state file: nothing that can be read as JSON, a value that is not an object, an
    object without an object of sessions, or with one. -/
inductive StateFile
  | unreadable
  | notObject
  | noSessions
  | document (sessions : List (String × Option Record))

/-- The state of the registry, and the state file. -/
structure Sys where
  pairings : List (String × Time)
  sessions : List (String × Record)
  attempts : String → List Time
  file : StateFile

/-- `BrowserSession`; the texts are those that `str` makes of the values. -/
structure BrowserSession where
  token : String
  id : Value
  trust : Value
  label : Value
  expiresAt : Option PyFloat
deriving DecidableEq

/-! ### Expiry and the state file -/

/-- A session without an expiry lives on. -/
def unexpired (now : Time) (record : Record) : Except Raised Bool :=
  match record.expiresAt with
  | none => .ok true
  | some .null => .ok true
  | some value => (toFloat env value).map fun expires => expires.after now

/-- The sessions that have not expired. -/
def keepUnexpired (now : Time) : List (String × Record) → Except Raised (List (String × Record))
  | [] => .ok []
  | (key, record) :: rest =>
    match unexpired env now record with
    | .error raised => .error raised
    | .ok keep =>
      match keepUnexpired now rest with
      | .error raised => .error raised
      | .ok kept => .ok (if keep then (key, record) :: kept else kept)

/-- `_save`. -/
def save (s : Sys) : Sys :=
  { s with file := .document ((s.sessions.filter fun e => e.2.remembered).map fun e =>
      (e.1, some e.2)) }

/-- `_prune`. -/
def prune (now : Time) (s : Sys) : Except Raised Unit × Sys :=
  let s := { s with
    pairings := s.pairings.filter fun e => now < e.2
    attempts := fun peer => (s.attempts peer).filter fun stamp =>
      now < stamp + pairingAttemptWindowSeconds }
  match keepUnexpired env now s.sessions with
  | .error raised => (.error raised, s)
  | .ok kept =>
    let pruned := { s with sessions := kept }
    (.ok (), if kept.length ≠ s.sessions.length then save pruned else pruned)

/-- The remembered sessions among the members of an object. -/
def rememberedOf (members : List (String × Option Record)) : List (String × Record) :=
  members.filterMap fun e =>
    match e.2 with
    | some record => if record.remembered then some (e.1, record) else none
    | none => none

/-- `__init__`, with `_load`: `OSError`, `ValueError` and `TypeError` leave no session. -/
def load (now : Time) (file : StateFile) : Except Raised Unit × Sys :=
  let s : Sys := ⟨[], [], fun _ => [], file⟩
  match file with
  | .unreadable => (.ok (), s)
  | .notObject => (.error .attributeError, s)
  | .noSessions => prune env now s
  | .document members =>
    match prune env now { s with sessions := rememberedOf members } with
    | (.ok (), s) => (.ok (), s)
    | (.error .valueError, s) => (.ok (), { s with sessions := [] })
    | (.error .typeError, s) => (.ok (), { s with sessions := [] })
    | (.error raised, s) => (.error raised, s)

/-! ### Calls -/

/-- When a session expires, if it does. -/
def expiresOf (record : Record) : Except Raised (Option PyFloat) :=
  match record.expiresAt with
  | none => .ok none
  | some .null => .ok none
  | some value => (toFloat env value).map some

/-- `_session`. -/
def session (token : String) (record : Record) : Except Raised BrowserSession := do
  let id ← field record.id
  let trust ← field record.trust
  let label ← field record.label
  let expires ← expiresOf env record
  return ⟨token, id, trust, label, expires⟩

/-- `issue_pairing`: the oldest codes make room, and up to 32 texts are drawn. -/
def issuePairing (now stamp : Time) (draws : List String) (s : Sys) :
    Except Raised String × Sys :=
  match prune env now s with
  | (.error raised, s) => (.error raised, s)
  | (.ok (), s) =>
    let s := { s with pairings := s.pairings.drop (s.pairings.length - (maxPairings - 1)) }
    match (draws.take 32).find? fun code => code ∉ s.pairings.map Prod.fst with
    | some code =>
      (.ok code, { s with pairings := s.pairings ++ [(code, stamp + pairingTtlSeconds)] })
    | none => (.error .runtimeError, s)

/-- `self._sessions[key] = record`. -/
def setSession (key : String) (record : Record) (sessions : List (String × Record)) :
    List (String × Record) :=
  if key ∈ sessions.map Prod.fst then
    sessions.map fun e => if e.1 = key then (key, record) else e
  else sessions ++ [(key, record)]

/-- When a new session expires. -/
def expiryOf (trust : String) (now : Time) : Value :=
  if trust = "session" then .float (.finite (now + sessionTtlSeconds))
  else if trust = "90-days" then .float (.finite (now + remember90DaysSeconds))
  else .null

/-- The fields of a new session. -/
def newRecord (trust label id : String) (now : Time) : Record where
  id := some (.text id)
  label := some (.text (String.ofList (label.toList.take 160)))
  trust := some (.text trust)
  createdAt := some (.float (.finite now))
  expiresAt := some (expiryOf trust now)

/-- `_create_session`: the oldest sessions make room. -/
def createSession (trust label token id : String) (now : Time) (s : Sys) :
    Except Raised BrowserSession × Sys :=
  let record := newRecord trust label id now
  let kept := s.sessions.drop (s.sessions.length - (maxSessions - 1))
  (session env token record,
    save { s with sessions := setSession (env.digest token) record kept })

/-- An exchange, with what it reads from the clock and draws. -/
structure Exchange where
  code : String
  peer : String
  trust : String
  label : String
  token : String
  id : String
  now : Time
  check : Time
  stamp : Time

/-- `exchange_pairing`. -/
def exchangePairing (request : Exchange) (s : Sys) :
    Except Raised (Option BrowserSession) × Sys :=
  let trust := env.normalizeTrust request.trust
  if trust ∉ trustModes then (.error .valueError, s)
  else
    let normalized := env.normalizeCode request.code
    match prune env request.now s with
    | (.error raised, s) => (.error raised, s)
    | (.ok (), s) =>
      if maxPairingAttempts ≤ (s.attempts request.peer).length then (.error .pairingRateLimited, s)
      else
        let expires := s.pairings.lookup normalized
        let s := { s with pairings := s.pairings.filter fun e => e.1 ≠ normalized }
        if expires.any fun expires => request.check < expires then
          let s := { s with attempts := Function.update s.attempts request.peer [] }
          let label := if request.label = "" then "Browser at " ++ request.peer else request.label
          match createSession env trust label request.token request.id request.stamp s with
          | (.error raised, s) => (.error raised, s)
          | (.ok session, s) => (.ok (some session), s)
        else (.ok none, { s with
          attempts := Function.update s.attempts request.peer
            (s.attempts request.peer ++ [request.stamp]) })

/-- `authenticate`. -/
def authenticate (now : Time) (token : String) (s : Sys) :
    Except Raised (Option BrowserSession) × Sys :=
  match prune env now s with
  | (.error raised, s) => (.error raised, s)
  | (.ok (), s) =>
    match s.sessions.lookup (env.digest token) with
    | none => (.ok none, s)
    | some record => ((session env token record).map some, s)

/-- An item of `list_sessions`. -/
structure Listed where
  id : Value
  label : Value
  trust : Value
  createdAt : PyFloat
  expiresAt : Option Value
  current : Bool

/-- The item of a session. -/
def listed (currentDigest : String) (e : String × Record) : Except Raised Listed := do
  let id ← field e.2.id
  let label ← field e.2.label
  let trust ← field e.2.trust
  let created ← field e.2.createdAt
  let createdAt ← toFloat env created
  return ⟨id, label, trust, createdAt, e.2.expiresAt, e.1 = currentDigest⟩

/-- `list_sessions`. -/
def listSessions (now : Time) (currentToken : String) (s : Sys) :
    Except Raised (List Listed) × Sys :=
  match prune env now s with
  | (.error raised, s) => (.error raised, s)
  | (.ok (), s) =>
    let current := if currentToken = "" then "" else env.digest currentToken
    (s.sessions.mapM (listed env current), s)

/-- `revoke`. -/
def revoke (token : String) (s : Sys) : Sys :=
  save { s with sessions := s.sessions.filter fun e => e.1 ≠ env.digest token }

/-- The key of the first session with an id. -/
def findId (id : String) : List (String × Record) → Except Raised (Option String)
  | [] => .ok none
  | (key, record) :: rest =>
    match field record.id with
    | .error raised => .error raised
    | .ok found => if found = .text id then .ok (some key) else findId id rest

/-- `revoke_id`. -/
def revokeId (id : String) (s : Sys) : Except Raised Bool × Sys :=
  match findId id s.sessions with
  | .error raised => (.error raised, s)
  | .ok none => (.ok false, s)
  | .ok (some key) => (.ok true, save { s with sessions := s.sessions.filter fun e => e.1 ≠ key })

/-- `revoke_all`. -/
def revokeAll (s : Sys) : ℕ × Sys :=
  (s.sessions.length, save { s with sessions := [] })

end RomCloud.Web
