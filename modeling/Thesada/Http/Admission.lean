import Thesada.Http.LoginRate
import Thesada.Http.Tokens
import Thesada.Http.WsAuth
import Thesada.Secret.Store

/-!
# Who the admin surface lets in

A request shows a Basic credential or the token of an earlier login. The credential is the one in
force when the request is checked: `web.user` and the fallback of `web.password` from a snapshot of
the configuration, and the stored secret over the fallback. While it is the shipped default, or
does not fit, nothing is let in.

A run starts at a boot. It records every request with its answer and every terminal that was
opened.
-/

namespace Thesada.Http

open CString Machine Secret

/-! ## Shell mode -/

inductive ShellMode where
  | full
  | serialOnly
  | mqttOnly
  | off
  deriving DecidableEq

def shellModeParse (s : Str) : ShellMode :=
  if s = [] then .full
  else if s = "full".toList then .full
  else if s = "serial-only".toList then .serialOnly
  else if s = "mqtt-only".toList then .mqttOnly
  else .off

/-- From whether `shell.mode` is there and its value as a string. -/
def shellModeResolve (keyPresent : Bool) (stringValue : Option Str) : ShellMode :=
  if !keyPresent then .full
  else match stringValue with
    | none => .off
    | some s => shellModeParse s

def shellModeHttpAllowed (m : ShellMode) : Bool := m = .full

inductive HttpSurface where
  | cmd
  | terminal
  | fileWrite
  | configPush
  | ota
  deriving DecidableEq

def shellModeHttpSurfaceAllowed (m : ShellMode) : HttpSurface → Bool
  | .configPush | .ota => true
  | .cmd | .terminal | .fileWrite => shellModeHttpAllowed m

/-! ## Credentials -/

def WEB_SNAP_USER_CAP : Nat := 64
def WEB_SNAP_PASS_CAP : Nat := 160
def WEB_SNAP_NAME_CAP : Nat := 64
def WEB_SNAP_NAME_DEFAULT : Str := "thesada-node".toList

structure WebSnap where
  /-- False when `web.user` is too long. -/
  userFits : Bool
  /-- False when the fallback of `web.password` is too long. -/
  passFits : Bool
  user : Str
  passCfg : Str
  devName : Str

/-- The copy, empty when it does not fit, and whether it fits. -/
def webSnapCopy (cap : Nat) (src : Str) : Str × Bool :=
  if cap ≤ src.length then ([], false) else (src, true)

def webSnapFill (user passCfg devName : Str) : WebSnap :=
  let (user, userFits) := webSnapCopy WEB_SNAP_USER_CAP user
  let (passCfg, passFits) := webSnapCopy WEB_SNAP_PASS_CAP passCfg
  let (devName, nameFits) := webSnapCopy WEB_SNAP_NAME_CAP devName
  { userFits, passFits, user, passCfg
    devName := if nameFits then devName else WEB_SNAP_NAME_DEFAULT }

inductive WebCredState where
  | ok
  | default
  | tooLong
  deriving DecidableEq

def webAuthPassIsDefault (pass : Str) : Bool := pass = [] || pass = "changeme".toList

def webCredState (s : WebSnap) (effectivePass : Str) : WebCredState :=
  if !s.userFits then .tooLong
  else if !s.passFits && effectivePass = [] then .tooLong
  else if webAuthPassIsDefault effectivePass then .default
  else .ok

/-- What is in force when a request is checked. -/
structure WebCred where
  state : WebCredState
  user : Str
  pass : Str

/-! ## Requests -/

/-- The routes that ask for a credential. A route of the last kind does its own work once it is
let in, which some of them do in some shell modes only. -/
inductive Route where
  | authCheck
  | login (random : Fin TOKEN_LEN → UInt8)
  | wsToken
  | admin (method : Str) (surface : Option HttpSurface)

namespace Route

def method : Route → Str
  | authCheck | wsToken => "GET".toList
  | login _ => "POST".toList
  | admin method _ => method

/-- A `GET` that changes state all the same. -/
def hasSideEffect : Route → Bool
  | authCheck | wsToken => true
  | login _ | admin .. => false

end Route

def webAuthMethodChangesState (method : Str) : Bool :=
  !(method = "GET".toList || method = "HEAD".toList || method = "OPTIONS".toList)

def Route.stateChanging (route : Route) : Bool :=
  route.hasSideEffect || webAuthMethodChangesState route.method

structure WebRequest where
  ip : IPv4
  authorization : Option Str
  secFetchSite : Option Str

namespace WebRequest

def bearer (r : WebRequest) : Option Str :=
  r.authorization.bind fun h => if "Bearer ".toList.isPrefixOf h then some (h.drop 7) else none

def basicOffered (r : WebRequest) : Bool :=
  r.bearer.isNone && r.authorization.any fun h => "Basic ".toList.isPrefixOf h

end WebRequest

def webAuthBasicAllowed (stateChanging : Bool) (secFetchSite : Option Str) : Bool :=
  match secFetchSite with
  | none => true
  | some site => site = [] || !stateChanging || site ≠ "cross-site".toList

def webAuthAllowed (passIsDefault bearerValid basicOk : Bool) : Bool :=
  if passIsDefault then false else bearerValid || basicOk

def webAuthCountsAsGuess (allowed basicAllowed credentialOffered : Bool) : Bool :=
  !allowed && basicAllowed && credentialOffered

/-- Whether the namespace of the secrets opens, at the look for a lock and at the check. -/
structure WebIo where
  lockOpens : Bool
  opens : Bool

inductive Answer where
  | limited
  | locked (state : WebCredState)
  | unauthorized
  | modeCloses (surface : HttpSurface)
  | ok
  | token (token : Str)
  /-- The rest of the answer is the route's. -/
  | served
  deriving DecidableEq

namespace Answer

def letsIn : Answer → Bool
  | ok | token _ | served => true
  | limited | locked _ | unauthorized | modeCloses _ => false

/-- The status and the body that are sent. -/
def reply : Answer → Option (Nat × Str)
  | limited =>
      some (429, "\x7b\"ok\":false,\"error\":\"Too many attempts - wait 30s\"\x7d".toList)
  | locked .tooLong =>
      some (403, ("\x7b\"ok\":false,\"error\":\"web.user (max 63) or the config web.password " ++
        "(max 159) is too long - admin locked. Shorten it, or set the password " ++
        "via 'secret.set web.password'\"\x7d").toList)
  | locked _ =>
      some (403, ("\x7b\"ok\":false,\"error\":\"web.password is default/empty - admin locked. " ++
        "Set it via 'secret.set web.password' on the serial console\"\x7d").toList)
  | unauthorized => some (401, "\x7b\"ok\":false,\"error\":\"Unauthorized\"\x7d".toList)
  | modeCloses .cmd => some (403,
      "\x7b\"ok\":false,\"error\":\"shell.mode closes the HTTP command surface\"\x7d".toList)
  | modeCloses _ => some (403,
      "\x7b\"ok\":false,\"error\":\"shell.mode closes file writes over HTTP\"\x7d".toList)
  | ok => some (200, "\x7b\"ok\":true\x7d".toList)
  | token t => some (200, "\x7b\"ok\":true,\"token\":\"".toList ++ t ++
      "\",\"expires_in\":3600\x7d".toList)
  | served => none

end Answer

/-- A request, what was in force when it was checked, and its answer. -/
structure Answered where
  route : Route
  request : WebRequest
  uptime : Nat
  cred : WebCred
  mode : ShellMode
  answer : Answer

/-- A terminal that was opened. -/
structure Terminal where
  ip : IPv4
  since : Nat
  mode : ShellMode

/-! ## The unit -/

structure AdminUnit (N : Nat) where
  /-- `_uptimeMs`. -/
  clock : Nat
  snap : WebSnap
  secrets : SecretStore
  mode : ShellMode
  tokens : TokenTable
  limiter : LoginRateTable N
  ws : WsTable
  /-- Newest first. -/
  answers : List Answered
  terminals : List Terminal

inductive AdminEvent where
  | waits (ms : Nat)
  /-- The configuration changed: its user, fallback password and name. -/
  | snapshot (user passCfg devName : Str)
  | shellMode (keyPresent : Bool) (stringValue : Option Str)
  | secret (call : SecretCall)
  | request (route : Route) (request : WebRequest) (io : WebIo)
  /-- A client opens the terminal. -/
  | connects (ip : IPv4)

namespace AdminUnit

variable {N : Nat}

def boot (snap : WebSnap) (secrets : SecretStore) (mode : ShellMode) : AdminUnit N where
  clock := 0
  snap
  secrets
  mode
  tokens := noTokens
  limiter := noLogins N
  ws := fun _ => ⟨[], 0⟩
  answers := []
  terminals := []

/-- `_webCred`. A namespace that does not open leaves the fallback. -/
def webCred (s : AdminUnit N) (opens : Bool) : WebCred :=
  let pass :=
    if opens then s.secrets.resolve "web_password".toList s.snap.passCfg Secret.MAX_LEN
    else s.snap.passCfg.take (Secret.MAX_LEN - 1)
  ⟨webCredState s.snap pass, s.snap.user, pass⟩

/-- What `_checkAuth` answers, and whether a credential was offered and wrong. -/
structure AuthCheck where
  allowed : Bool
  guessed : Bool

variable (authenticate : (request : WebRequest) → (user pass : Str) → Bool)

def bearerValid (s : AdminUnit N) (r : WebRequest) : Bool :=
  r.bearer.any fun token => validateToken s.tokens token s.clock

/-- `_checkAuth`. `authenticate` is the check of a Basic credential in the server library. -/
def checkAuth (s : AdminUnit N) (route : Route) (r : WebRequest) (opens : Bool) : AuthCheck :=
  let cred := s.webCred opens
  let passIsDefault := decide (cred.state ≠ .ok)
  let bearerValid := s.bearerValid r
  let basicAllowed := webAuthBasicAllowed route.stateChanging r.secFetchSite
  let basicOk := !passIsDefault && !bearerValid && basicAllowed &&
    authenticate r cred.user cred.pass
  let allowed := webAuthAllowed passIsDefault bearerValid basicOk
  { allowed
    guessed := webAuthCountsAsGuess allowed (basicAllowed && !passIsDefault)
      (r.basicOffered || r.bearer.isSome) }

/-- What `/api/auth/check` and `/api/login` have in common. -/
def tryLogin (s : AdminUnit N) (route : Route) (r : WebRequest) (io : WebIo) :
    AdminUnit N × Answer :=
  let (limiter, serve) := s.limiter.allow r.ip.text s.clock
  let s := { s with limiter }
  if !serve then (s, .limited)
  else if (s.webCred io.lockOpens).state ≠ .ok then (s, .locked (s.webCred io.lockOpens).state)
  else
    let auth := s.checkAuth authenticate route r io.opens
    if !auth.allowed then
      (if auth.guessed then { s with limiter := s.limiter.fail r.ip.text s.clock } else s,
        .unauthorized)
    else ({ s with limiter := s.limiter.reset r.ip.text }, .ok)

def handle (s : AdminUnit N) (route : Route) (r : WebRequest) (io : WebIo) :
    AdminUnit N × Answer :=
  match route with
  | .authCheck => s.tryLogin authenticate .authCheck r io
  | .login random =>
      match s.tryLogin authenticate (.login random) r io with
      | (s, .ok) =>
          ({ s with tokens := createToken s.tokens random s.clock }, .token (genToken random))
      | refused => refused
  | .wsToken =>
      if !(s.checkAuth authenticate .wsToken r io.opens).allowed then (s, .unauthorized)
      else ({ s with ws := grantWsAuth s.ws r.ip.text s.clock }, .ok)
  | .admin method surface =>
      if !(s.checkAuth authenticate (.admin method surface) r io.opens).allowed then
        (s, .unauthorized)
      else match surface with
        | none => (s, .served)
        | some surface =>
            if !shellModeHttpSurfaceAllowed s.mode surface then (s, .modeCloses surface)
            else (s, .served)

/-- `WS_EVT_CONNECT`. -/
def connect (s : AdminUnit N) (ip : IPv4) : AdminUnit N :=
  if !shellModeHttpSurfaceAllowed s.mode .terminal then s
  else
    let (ws, authorized) := consumeWsAuth s.ws ip.text s.clock
    if !authorized then { s with ws }
    else { s with ws, terminals := ⟨ip, s.clock, s.mode⟩ :: s.terminals }

end AdminUnit

def adminStep {N : Nat} (authenticate : WebRequest → Str → Str → Bool) (s : AdminUnit N) :
    AdminEvent → AdminUnit N
  | .waits ms => { s with clock := s.clock + ms }
  | .snapshot user passCfg devName => { s with snap := webSnapFill user passCfg devName }
  | .shellMode keyPresent stringValue =>
      { s with mode := shellModeResolve keyPresent stringValue }
  | .secret call => { s with secrets := secretStep s.secrets call }
  | .request route request io =>
      let (s', answer) := s.handle authenticate route request io
      let answered := ⟨route, request, s.clock, s.webCred io.opens, s.mode, answer⟩
      { s' with answers := answered :: s'.answers }
  | .connects ip => s.connect ip

/-! ## What a step does -/

section Step

variable {N : Nat} {authenticate : WebRequest → Str → Str → Bool} {s : AdminUnit N}

namespace AdminUnit

theorem checkAuth_allowed {route : Route} {r : WebRequest} {opens : Bool} :
    (s.checkAuth authenticate route r opens).allowed = true ↔
      (s.webCred opens).state = .ok ∧ (s.bearerValid r = true ∨
        webAuthBasicAllowed route.stateChanging r.secFetchSite = true ∧
          authenticate r (s.webCred opens).user (s.webCred opens).pass = true) := by
  simp only [checkAuth, webAuthAllowed]
  by_cases inForce : (s.webCred opens).state = .ok
  · cases s.bearerValid r <;> simp [inForce]
  · simp [inForce]

theorem tryLogin_cases (authenticate) (s : AdminUnit N) (route : Route) (r : WebRequest)
    (io : WebIo) :
    ∃ limiter answer, s.tryLogin authenticate route r io = ({ s with limiter }, answer) ∧
      (answer.letsIn = false ∨
        answer = .ok ∧ (s.checkAuth authenticate route r io.opens).allowed = true) := by
  simp only [tryLogin]
  split
  · exact ⟨_, _, rfl, .inl rfl⟩
  · split
    · exact ⟨_, _, rfl, .inl rfl⟩
    · split
      · split <;> exact ⟨_, _, rfl, .inl rfl⟩
      next admitted =>
        rw [Bool.not_eq_true', Bool.not_eq_false] at admitted
        exact ⟨_, _, rfl, .inr ⟨rfl, admitted⟩⟩

/-- A request is refused, or its route does its work. -/
theorem handle_cases (authenticate) (s : AdminUnit N) (route : Route) (r : WebRequest)
    (io : WebIo) :
    (∃ limiter answer, s.handle authenticate route r io = ({ s with limiter }, answer) ∧
      answer.letsIn = false) ∨
    (s.checkAuth authenticate route r io.opens).allowed = true ∧
      ((∃ limiter, route = .authCheck ∧
          s.handle authenticate route r io = ({ s with limiter }, .ok)) ∨
        (∃ limiter random, route = .login random ∧ s.handle authenticate route r io =
          ({ s with limiter, tokens := createToken s.tokens random s.clock },
            .token (genToken random))) ∨
        (route = .wsToken ∧ s.handle authenticate route r io =
          ({ s with ws := grantWsAuth s.ws r.ip.text s.clock }, .ok)) ∨
        ∃ method surface, route = .admin method surface ∧
          s.handle authenticate route r io = (s, .served) ∧
          ∀ x ∈ surface, shellModeHttpSurfaceAllowed s.mode x = true) := by
  cases route with
  | authCheck =>
      obtain ⟨limiter, answer, tried, refused | ⟨rfl, admitted⟩⟩ :=
        s.tryLogin_cases authenticate .authCheck r io
      · exact .inl ⟨limiter, answer, tried, refused⟩
      · exact .inr ⟨admitted, .inl ⟨limiter, rfl, tried⟩⟩
  | login random =>
      obtain ⟨limiter, answer, tried, refused | ⟨rfl, admitted⟩⟩ :=
        s.tryLogin_cases authenticate (.login random) r io
      · refine .inl ⟨limiter, answer, ?_, refused⟩
        simp only [handle, tried]
        cases answer <;> first | rfl | cases refused
      · refine .inr ⟨admitted, .inr (.inl ⟨limiter, random, rfl, ?_⟩)⟩
        simp only [handle, tried]
  | wsToken =>
      by_cases admitted : (s.checkAuth authenticate .wsToken r io.opens).allowed = true
      · exact .inr ⟨admitted, .inr (.inr (.inl ⟨rfl, by simp [handle, admitted]⟩))⟩
      · exact .inl ⟨s.limiter, .unauthorized, by simp [handle, admitted], rfl⟩
  | admin method surface =>
      by_cases admitted :
          (s.checkAuth authenticate (.admin method surface) r io.opens).allowed = true
      · by_cases opened : ∀ x ∈ surface, shellModeHttpSurfaceAllowed s.mode x = true
        · refine .inr ⟨admitted, .inr (.inr (.inr ⟨_, _, rfl, ?_, opened⟩))⟩
          cases surface with
          | none => simp [handle, admitted]
          | some surface => simp [handle, admitted, opened surface rfl]
        · cases surface with
          | none => exact absurd nofun opened
          | some surface =>
              have closed : shellModeHttpSurfaceAllowed s.mode surface = false := by
                simpa using opened
              exact .inl ⟨s.limiter, .modeCloses surface, by simp [handle, admitted, closed], rfl⟩
      · exact .inl ⟨s.limiter, .unauthorized, by simp [handle, admitted], rfl⟩

/-- A client is let in by the grant in a slot, which it uses up. -/
theorem connect_cases (s : AdminUnit N) (ip : IPv4) :
    s.connect ip = s ∨ shellModeHttpSurfaceAllowed s.mode .terminal = true ∧
      ∃ i, consumeSlot s.clock s.ws ip.text = some i ∧ s.connect ip =
        { s with
          ws := Function.update s.ws i { s.ws i with expiry := 0 }
          terminals := ⟨ip, s.clock, s.mode⟩ :: s.terminals } := by
  simp only [connect]
  split
  · exact .inl rfl
  next opened =>
    rw [Bool.not_eq_true', Bool.not_eq_false] at opened
    cases found : consumeSlot s.clock s.ws ip.text with
    | none => exact .inl (by simp [consumeWsAuth, found])
    | some i => exact .inr ⟨opened, i, rfl, by simp [consumeWsAuth, found]⟩

end AdminUnit

end Step

/-! ## What backs an answer -/

section Backing

variable (authenticate : WebRequest → Str → Str → Bool)

/-- A request was let in by the credential in force, or by a token that a login issued less than an
hour before, which was let in the same way. Each time the credential was one that can be used. -/
inductive Backed (log : List Answered) : Answered → Prop
  | basic {a : Answered} (usable : a.cred.state = .ok)
      (known : authenticate a.request a.cred.user a.cred.pass = true)
      (site : webAuthBasicAllowed a.route.stateChanging a.request.secFetchSite = true) :
      Backed log a
  | bearer {a b : Answered} {token : Str} (usable : a.cred.state = .ok)
      (shown : a.request.bearer = some token) (mem : b ∈ log) (issued : b.answer = .token token)
      (since : b.uptime ≤ a.uptime) (fresh : a.uptime < b.uptime + TOKEN_TTL_MS)
      (login : Backed log b) : Backed log a

variable {authenticate}

theorem Backed.mono {log log' : List Answered} (more : log ⊆ log') {a : Answered}
    (backed : Backed authenticate log a) : Backed authenticate log' a := by
  induction backed with
  | basic usable known site => exact .basic usable known site
  | bearer usable shown mem issued since fresh _ ih =>
      exact .bearer usable shown (more mem) issued since fresh ih

/-- The answer grants the terminal to an address. -/
def Answered.grants (a : Answered) : Bool :=
  match a.route, a.answer with
  | .wsToken, .ok => true
  | _, _ => false

theorem Answered.letsIn_of_grants {a : Answered} (grants : a.grants = true) :
    a.answer.letsIn = true := by
  unfold Answered.grants at grants
  split at grants
  next ok =>
    rw [ok]
    rfl
  · cases grants

/-- A request of the log lets the address in for 30 s. -/
def GrantedAt (log : List Answered) (ip : IPv4) (since : Nat) : Prop :=
  ∃ b ∈ log, b.grants = true ∧ b.request.ip = ip ∧ b.uptime = since

/-- The slots that hold a grant. -/
def heldGrants (ws : WsTable) : Finset (Fin WS_AUTH_SLOTS) := {i | (ws i).expiry ≠ 0}

theorem heldGrants_put (ws : WsTable) (i : Fin WS_AUTH_SLOTS) (e : WsAuth) :
    (heldGrants (Function.update ws i e)).card ≤ (heldGrants ws).card + 1 := by
  refine le_trans (Finset.card_le_card ?_) (Finset.card_insert_le i _)
  intro j held
  by_cases same : j = i
  · exact same ▸ Finset.mem_insert_self ..
  · refine Finset.mem_insert_of_mem ?_
    simpa [heldGrants, Function.update_of_ne same] using held

theorem heldGrants_used {ws : WsTable} {i : Fin WS_AUTH_SLOTS} (held : (ws i).expiry ≠ 0) :
    (heldGrants (Function.update ws i { ws i with expiry := 0 })).card + 1 =
      (heldGrants ws).card := by
  have mem : i ∈ heldGrants ws := by simpa [heldGrants] using held
  rw [← Finset.card_erase_add_one mem]
  congr 2
  ext j
  by_cases same : j = i
  · subst same
    simp [heldGrants]
  · simp [heldGrants, same]

variable (authenticate) in
/-- Tokens and grants that can still be used come from answers of the run. -/
structure AdminInv {N : Nat} (s : AdminUnit N) : Prop where
  past : ∀ a ∈ s.answers, a.uptime ≤ s.clock
  backed : ∀ a ∈ s.answers, a.answer.letsIn = true → Backed authenticate s.answers a
  surface : ∀ a ∈ s.answers, a.answer = .served → ∀ method x, a.route = .admin method (some x) →
    shellModeHttpSurfaceAllowed a.mode x = true
  issued : ∀ i, (s.tokens i).expiry ≠ 0 → ∃ b ∈ s.answers, b.answer = .token (s.tokens i).token ∧
    (s.tokens i).expiry = b.uptime + TOKEN_TTL_MS
  granted : ∀ i, (s.ws i).expiry ≠ 0 → ∃ ip since, GrantedAt s.answers ip since ∧
    s.ws i = ⟨ip.text, since + WS_AUTH_TTL_MS⟩
  opened : ∀ t ∈ s.terminals, shellModeHttpSurfaceAllowed t.mode .terminal = true ∧
    ∃ since, GrantedAt s.answers t.ip since ∧ since ≤ t.since ∧ t.since < since + WS_AUTH_TTL_MS
  few : (heldGrants s.ws).card + s.terminals.length ≤
    (s.answers.filter Answered.grants).length

theorem GrantedAt.mono {log log' : List Answered} (more : log ⊆ log') {ip : IPv4} {since : Nat}
    (granted : GrantedAt log ip since) : GrantedAt log' ip since := by
  obtain ⟨b, mem, rest⟩ := granted
  exact ⟨b, more mem, rest⟩

variable {N : Nat} {s : AdminUnit N}

theorem boot_adminInv (snap : WebSnap) (secrets : SecretStore) (mode : ShellMode) :
    AdminInv authenticate (AdminUnit.boot snap secrets mode : AdminUnit N) where
  past := by simp [AdminUnit.boot]
  backed := by simp [AdminUnit.boot]
  surface := by simp [AdminUnit.boot]
  issued := by simp [AdminUnit.boot, noTokens]
  granted := by simp [AdminUnit.boot]
  opened := by simp [AdminUnit.boot]
  few := by simp [AdminUnit.boot, heldGrants]

theorem AdminInv.waits (h : AdminInv authenticate s) (ms : Nat) :
    AdminInv authenticate { s with clock := s.clock + ms } :=
  { h with past := fun a mem => Nat.le_add_right_of_le (h.past a mem) }

/-- A bearer token that validates was issued by an answer of the run. -/
theorem AdminInv.bearer (h : AdminInv authenticate s) {r : WebRequest}
    (valid : s.bearerValid r = true) : ∃ token, r.bearer = some token ∧
      ∃ b ∈ s.answers, b.answer = .token token ∧ s.clock < b.uptime + TOKEN_TTL_MS := by
  simp only [AdminUnit.bearerValid, Option.any_eq_true] at valid
  obtain ⟨token, shown, valid⟩ := valid
  obtain ⟨-, i, live, rfl⟩ := validateToken_iff.mp valid
  obtain ⟨b, mem, issued, expiry⟩ := h.issued i live.1
  exact ⟨_, shown, b, mem, issued, expiry ▸ live.2⟩

/-- What lets a request in backs its answer. -/
theorem AdminInv.admits (h : AdminInv authenticate s) {a : Answered} {opens : Bool}
    (now : a.uptime = s.clock) (cred : a.cred = s.webCred opens)
    (allowed : (s.checkAuth authenticate a.route a.request opens).allowed = true) :
    Backed authenticate s.answers a := by
  rw [AdminUnit.checkAuth_allowed, ← cred] at allowed
  obtain ⟨usable, valid | ⟨site, known⟩⟩ := allowed
  · obtain ⟨token, shown, b, mem, issued, fresh⟩ := h.bearer valid
    exact .bearer usable shown mem issued (now ▸ h.past b mem) (now ▸ fresh)
      (h.backed b mem (by rw [issued]; rfl))
  · exact .basic usable known site

/-- The log grows by an answer that is backed. -/
theorem AdminInv.answer (h : AdminInv authenticate s) {a : Answered} (now : a.uptime = s.clock)
    (backed : a.answer.letsIn = true → Backed authenticate s.answers a)
    (surface : a.answer = .served → ∀ method x, a.route = .admin method (some x) →
      shellModeHttpSurfaceAllowed a.mode x = true) (limiter : LoginRateTable N) :
    AdminInv authenticate { s with limiter, answers := a :: s.answers } where
  past := List.forall_mem_cons.mpr ⟨now.le, h.past⟩
  backed := List.forall_mem_cons.mpr
    ⟨fun letsIn => (backed letsIn).mono (List.subset_cons_self ..),
      fun b mem letsIn => (h.backed b mem letsIn).mono (List.subset_cons_self ..)⟩
  surface := List.forall_mem_cons.mpr ⟨surface, h.surface⟩
  issued := by
    intro i live
    obtain ⟨b, mem, rest⟩ := h.issued i live
    exact ⟨b, List.mem_cons_of_mem _ mem, rest⟩
  granted := by
    intro i live
    obtain ⟨ip, since, granted, rest⟩ := h.granted i live
    exact ⟨ip, since, granted.mono (List.subset_cons_self ..), rest⟩
  opened := by
    intro t mem
    obtain ⟨mode, since, granted, rest⟩ := h.opened t mem
    exact ⟨mode, since, granted.mono (List.subset_cons_self ..), rest⟩
  few := by
    have more := List.Sublist.length_le
      (List.Sublist.filter Answered.grants (List.sublist_cons_self a s.answers))
    exact h.few.trans more

theorem AdminInv.issue (h : AdminInv authenticate s) {a : Answered} (mem : a ∈ s.answers)
    (now : a.uptime = s.clock) {random : Fin TOKEN_LEN → UInt8}
    (answer : a.answer = .token (genToken random)) :
    AdminInv authenticate { s with tokens := createToken s.tokens random s.clock } :=
  { h with
    issued := by
      intro i live
      simp only [createToken, Function.update_apply] at live ⊢
      split_ifs at live ⊢
      · exact ⟨a, mem, answer, by rw [now]⟩
      · exact h.issued i live }

theorem AdminInv.grant (h : AdminInv authenticate s) {a : Answered} (now : a.uptime = s.clock)
    (grants : a.grants = true) (backed : Backed authenticate s.answers a)
    (surface : a.answer ≠ .served) :
    AdminInv authenticate
      { s with
        ws := grantWsAuth s.ws a.request.ip.text s.clock
        answers := a :: s.answers } :=
  { h.answer now (fun _ => backed) (fun served => absurd served surface) s.limiter with
    granted := by
      intro i live
      simp only [grantWsAuth, Function.update_apply] at live ⊢
      split_ifs at live ⊢
      · exact ⟨a.request.ip, s.clock, ⟨a, List.mem_cons_self, grants, rfl, now⟩,
          by rw [IPv4.text_take]⟩
      · obtain ⟨ip, since, granted, rest⟩ := h.granted i live
        exact ⟨ip, since, granted.mono (List.subset_cons_self ..), rest⟩
    few := by
      have put := heldGrants_put s.ws (grantSlot s.clock s.ws)
        ⟨a.request.ip.text.take (WS_IP_CAP - 1), s.clock + WS_AUTH_TTL_MS⟩
      have few := h.few
      rw [List.filter_cons_of_pos grants, List.length_cons]
      simp only [grantWsAuth]
      omega }

theorem AdminInv.connects (h : AdminInv authenticate s) (ip : IPv4) :
    AdminInv authenticate (s.connect ip) := by
  obtain same | ⟨mode, i, found, connected⟩ := s.connect_cases ip
  · rw [same]
    exact h
  · obtain ⟨live, sameIp⟩ := consumeSlot_some found
    simp only [ttlActive, Bool.and_eq_true, decide_eq_true_eq] at live
    rw [connected]
    obtain ⟨granted, since, given, slot⟩ := h.granted i live.1
    obtain rfl : granted = ip := IPv4.text_inj (by rw [← sameIp, slot])
    rw [slot] at live
    refine { h with granted := ?_, opened := ?_, few := ?_ }
    · intro j liveJ
      simp only [Function.update_apply] at liveJ ⊢
      split_ifs at liveJ ⊢
      · exact absurd rfl liveJ
      · exact h.granted j liveJ
    · refine List.forall_mem_cons.mpr ⟨⟨mode, since, given, ?_, live.2⟩, h.opened⟩
      obtain ⟨b, mem, -, -, at_⟩ := given
      exact at_ ▸ h.past b mem
    · have held : (s.ws i).expiry ≠ 0 := by
        rw [slot]
        exact live.1
      have few := h.few
      rw [← heldGrants_used held] at few
      rw [List.length_cons]
      exact le_of_eq_of_le (by ac_rfl) few

theorem adminStep_inv (s : AdminUnit N) (e : AdminEvent) (h : AdminInv authenticate s) :
    AdminInv authenticate (adminStep authenticate s e) := by
  cases e with
  | waits ms => exact h.waits ms
  | snapshot | shellMode | secret => exact { h with }
  | connects ip => exact h.connects ip
  | request route r io =>
      simp only [adminStep]
      obtain ⟨limiter, answer, handled, refused⟩ | ⟨allowed, work⟩ :=
        s.handle_cases authenticate route r io
      · rw [handled]
        refine h.answer rfl ?_ ?_ limiter
        · intro letsIn
          rw [refused] at letsIn
          cases letsIn
        · intro served
          rw [show answer = .served from served] at refused
          cases refused
      · have backed (answer : Answer) : Backed authenticate s.answers
            ⟨route, r, s.clock, s.webCred io.opens, s.mode, answer⟩ := h.admits rfl rfl allowed
        obtain ⟨limiter, rfl, handled⟩ | ⟨limiter, random, rfl, handled⟩ | ⟨rfl, handled⟩ |
          ⟨method, surface, rfl, handled, opened⟩ := work
        · rw [handled]
          exact h.answer rfl (fun _ => backed .ok) (fun served => nomatch served) limiter
        · rw [handled]
          have grown := h.answer rfl (fun _ => backed (.token (genToken random)))
            (fun served => nomatch served) limiter
          exact grown.issue List.mem_cons_self rfl rfl
        · rw [handled]
          exact h.grant rfl rfl (backed .ok) (fun served => nomatch served)
        · rw [handled]
          refine h.answer rfl (fun _ => backed .served) ?_ s.limiter
          rintro - _ x ⟨⟩
          exact opened x rfl

end Backing

end Thesada.Http
