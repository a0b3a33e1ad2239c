import Mathlib.Algebra.Group.Nat.Defs
import Thesada.Library.CString

/-!
# Which inbound commands may run

The pure gate in front of every MQTT command: what a session that presented a client
certificate may run, and what the shared password credential may. A null pointer is `none`.
-/

namespace Thesada.Cli

open CString

/-- How the session of a command authenticated. -/
inductive CliAuthMode where
  | password
  | mtls
  deriving DecidableEq

/-- ASCII case-insensitive equality. -/
def cliAuthzCmdEq (a b : Option Str) : Bool :=
  match a, b with
  | some a, some b => strcaseeq a b
  | _, _ => false

def CLI_AUTHZ_PW_CONFIG_KEY : Str := "mqtt.port".toList

def isBlank (c : Char) : Bool := c == ' ' || c == '\t'

def isTokenEnd (c : Char) : Bool := c == ' ' || c == '\t' || c == '\n' || c == '\r'

def skipBlanks (s : Str) : Str := s.dropWhile isBlank

/-- The first blank-delimited token of `payload` is `key`. -/
def cliAuthzFirstTokenIs (payload : Option Str) (key : Str) : Bool :=
  match payload with
  | none => false
  | some payload =>
      let payload := skipBlanks payload
      if key.isEmpty then false
      else if !key.isPrefixOf payload then false
      else
        match payload.drop key.length with
        | [] => true
        | after :: _ => isTokenEnd after

/-! ## Secrets -/

/-- 32-bit FNV-1a over the bytes of a string. -/
def fnv1a (s : Str) : Nat :=
  s.foldl (fun h c => (Nat.xor h (c.toNat % 256) * 16777619) % 2 ^ 32) 2166136261

def hexDigit (n : Nat) : Char := Nat.digitChar (n % 16)

/-- `%06x` of a 24-bit number. -/
def hex6 (n : Nat) : Str :=
  [hexDigit (n / 1048576), hexDigit (n / 65536), hexDigit (n / 4096), hexDigit (n / 256),
    hexDigit (n / 16), hexDigit n]

def secretWifiKey (ssid : Str) : Str := "wifi_pw_".toList ++ hex6 (fnv1a ssid % 16777216)

def secretKeyMap : List (Str × Str) :=
  [("enroll.claim_code".toList, "claim_code".toList),
    ("mqtt.password".toList, "mqtt_password".toList),
    ("telegram.bot_token".toList, "telegram_token".toList),
    ("web.password".toList, "web_password".toList),
    ("wifi.ap_password".toList, "ap_password".toList)]

def secretWifiPrefix : Str := "wifi.password:".toList

/-- The NVS key of a logical field, when the field is known and the key fits the buffer. -/
def secretNvsKeyFor (field : Str) (maxLen : Nat) : Option Str :=
  match secretKeyMap.lookup field with
  | some key => if key.length < maxLen then some key else none
  | none =>
      if secretWifiPrefix.isPrefixOf field ∧ field.length ≠ secretWifiPrefix.length then
        let key := secretWifiKey (field.drop secretWifiPrefix.length)
        if key.length < maxLen then some key else none
      else none

/-! ## What each mode may run -/

/-- The commands of a password session besides `config.set` and `secret.set`. -/
def passwordCommands : List Str :=
  ["cert.set".toList, "cert.apply".toList, "cert.info".toList, "secret.set".toList,
    "restart".toList, "version".toList, "chip.info".toList, "heap".toList]

def cliAuthzPasswordCmdAllowed (cmd : Option Str) (storedCertBroken : Bool) : Bool :=
  match cmd with
  | none => false
  | some _ =>
      if storedCertBroken && cliAuthzCmdEq cmd (some "cert.clear".toList) then true
      else passwordCommands.any fun allowed => cliAuthzCmdEq cmd (some allowed)

/-- The field of a `secret.set` payload, unless it overflows its buffer. -/
def cliAuthzSecretFieldAllowed (payload : Option Str) : Bool :=
  match payload with
  | none => true
  | some payload =>
      let field := (skipBlanks payload).takeWhile fun c => !isTokenEnd c
      if 48 ≤ field.length then false
      else if field.isEmpty then true
      else if field = "enroll.claim_code".toList then false
      else (secretNvsKeyFor field 16).isSome

/-- The token after the key is a plain decimal port in 1..65535, and nothing follows it. -/
def cliAuthzPortValueOk (payload : Option Str) (key : Str) : Bool :=
  if !cliAuthzFirstTokenIs payload key then false
  else
    let v := skipBlanks ((skipBlanks (payload.getD [])).drop key.length)
    let digits := v.takeWhile Char.isDigit
    if digits.isEmpty then false
    else if 5 < digits.length then false
    else if !((v.dropWhile Char.isDigit).dropWhile isTokenEnd).isEmpty then false
    else 1 ≤ decimal digits && decimal digits ≤ 65535

/-- A port value the unit does not come back from. A bare key is left to its usage line. -/
def cliAuthzPortValueBad (payload : Option Str) : Bool :=
  if !cliAuthzFirstTokenIs payload CLI_AUTHZ_PW_CONFIG_KEY then false
  else
    let v := (skipBlanks (payload.getD [])).drop CLI_AUTHZ_PW_CONFIG_KEY.length
    if (v.dropWhile isTokenEnd).isEmpty then false
    else !cliAuthzPortValueOk payload CLI_AUTHZ_PW_CONFIG_KEY

/-- The gate. -/
def cliAuthzAllowed (mode : CliAuthMode) (cmd payload : Option Str) (storedCertBroken : Bool) :
    Bool :=
  match cmd with
  | none => false
  | some [] => false
  | some _ =>
      let isConfigSet := cliAuthzCmdEq cmd (some "config.set".toList)
      if isConfigSet && cliAuthzPortValueBad payload then false
      else if mode = .mtls then true
      else if isConfigSet then cliAuthzPortValueOk payload CLI_AUTHZ_PW_CONFIG_KEY
      else if cliAuthzCmdEq cmd (some "secret.set".toList) then cliAuthzSecretFieldAllowed payload
      else cliAuthzPasswordCmdAllowed cmd storedCertBroken

/-! ## Clearing the certificate -/

theorem cliAuthzCmdEq_iff {a b : Str} :
    cliAuthzCmdEq (some a) (some b) = true ↔ a.map Char.toLower = b.map Char.toLower :=
  strcaseeq_iff

/-- Two commands equal to one in the gate's sense have the same lower-case form. -/
theorem cliAuthzCmdEq_right {cmd a b : Str} (h : cliAuthzCmdEq (some cmd) (some a) = true) :
    cliAuthzCmdEq (some cmd) (some b) = decide (a.map Char.toLower = b.map Char.toLower) := by
  have same := cliAuthzCmdEq_iff.mp h
  rw [← same]
  apply Bool.eq_iff_iff.mpr
  simp [cliAuthzCmdEq_iff]

theorem certClear_no_other {cmd : Str}
    (clear : cliAuthzCmdEq (some cmd) (some "cert.clear".toList) = true) :
    cliAuthzCmdEq (some cmd) (some "config.set".toList) = false ∧
      cliAuthzCmdEq (some cmd) (some "secret.set".toList) = false ∧
      (passwordCommands.any fun allowed => cliAuthzCmdEq (some cmd) (some allowed)) = false := by
  simp only [passwordCommands, List.any_cons, List.any_nil, cliAuthzCmdEq_right clear]
  decide +kernel

/-- A password session is let through to `cert.clear` exactly while the stored pair is judged
broken. -/
theorem certClear_allowed {cmd : Str} {payload : Option Str} {broken : Bool}
    (clear : cliAuthzCmdEq (some cmd) (some "cert.clear".toList) = true) :
    cliAuthzAllowed .password (some cmd) payload broken = broken := by
  obtain ⟨configSet, secretSet, others⟩ := certClear_no_other clear
  cases cmd with
  | nil => exact absurd clear (by decide +kernel)
  | cons c rest =>
      simp only [cliAuthzAllowed, configSet, secretSet, cliAuthzPasswordCmdAllowed, clear, others]
      cases broken <;> rfl

end Thesada.Cli
