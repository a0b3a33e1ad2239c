import Thesada.Library.CString
import Thesada.Library.JsonText

/-!
# The connection-critical mqtt settings

Broker, port, user and password are read from the config document in four places: the dial
target of `begin`, the credentials of `connect`, the snapshot and the check that the snapshot
was proven by a session. Each place has its own defaults and caps.

The snapshot is kept as JSON text. The JSON library is a codec of these four settings whose
reader undoes its writer; `arduinoJson` is one.
-/

namespace Thesada.Mqtt

open CString JsonText

def MQTT_BROKER_HOST_CAP : Nat := 96
def LG_MAX_LEN : Nat := 384
def SECRET_MAX_LEN : Nat := 160

/-- The members of the `mqtt` object as `is<T>` reads them: `none` for an absent member and for
one of another type. -/
structure MqttKeys where
  broker : Option Str
  port : Option Int
  user : Option Str
  password : Option Str
  maxExhaustReboots : Option Int
  rebootAfterFails : Option Int
  deriving DecidableEq

/-- The `mqtt` object of a config document, if it has one. -/
abbrev MqttDoc := Option MqttKeys

/-- Conversions of an `int` to the unsigned types. -/
def toUint8 (n : Int) : Nat := (n % 256).toNat

def toUint16 (n : Int) : Nat := (n % 65536).toNat

def toUnsigned (n : Int) : Nat := (n % 4294967296).toNat

namespace MqttDoc

def broker (d : MqttDoc) : Str := (d.bind (·.broker)).getD []

/-- `m["port"] | default`. -/
def portOr (d : MqttDoc) (default : Int) : Int := (d.bind (·.port)).getD default

def user (d : MqttDoc) : Str := (d.bind (·.user)).getD []

def password (d : MqttDoc) : Str := (d.bind (·.password)).getD []

def maxReboots (d : MqttDoc) : Nat := toUint8 ((d.bind (·.maxExhaustReboots)).getD 3)

def rebootAfter (d : MqttDoc) : Nat := toUint8 ((d.bind (·.rebootAfterFails)).getD 30)

end MqttDoc

/-- What the snapshot holds. -/
structure Critical where
  broker : Str
  port : Int
  user : Str
  password : Str
  deriving DecidableEq

def critical (d : MqttDoc) : Critical where
  broker := d.broker
  port := d.portOr 0
  user := d.user
  password := d.password

/-- The JSON library at the snapshot's four keys. -/
structure CriticalCodec where
  render : Critical → Str
  parse : Str → Option Critical
  parse_render : ∀ c, parse (render c) = some c

/-- The serialized settings, unless they overflow the buffer. -/
def mqttCriticalJson (codec : CriticalCodec) (d : MqttDoc) : Option Str :=
  let out := codec.render (critical d)
  if 0 < out.length ∧ out.length < LG_MAX_LEN then some out else none

/-- The four members set from a snapshot. Without an `mqtt` object there is nothing to set. -/
def restore (lg : Critical) (d : MqttDoc) : MqttDoc :=
  d.map fun m =>
    { m with
      broker := some lg.broker, port := some lg.port, user := some lg.user,
      password := some lg.password }

/-! ## The pure policies -/

def mqttRollbackShould (lg : Str) (haveLg : Bool) (rbCfg cur : Str) : Bool :=
  if !haveLg || lg.isEmpty then false
  else if rbCfg.isEmpty then false
  else if cur ≠ rbCfg then false
  else if cur = lg then false
  else true

def mqttSnapshotProven (cfgHost : Str) (cfgPort : Nat) (liveHost : Str) (livePort : Nat) : Bool :=
  if liveHost.isEmpty then false else cfgPort = livePort && cfgHost = liveHost

def mqttDefragRebootDue (retryCount : Nat) (resolved : Bool) (rc : Int) (maxAllocHeap : Nat)
    (halted : Bool) : Bool :=
  3 ≤ retryCount && resolved && rc = -2 && maxAllocHeap < 40000 && !halted

def mqttHostFits (host : Str) (cap : Nat) : Bool := host.length < cap

/-! ## The dial target and the credentials -/

/-- `_brokerHost` and `_brokerPort`: a host that fits its buffer, and a `uint16_t`. -/
structure Broker where
  host : Str
  port : Nat
  fits : host.length < MQTT_BROKER_HOST_CAP
  isPort : port < 65536
  deriving DecidableEq

/-- Before `begin`. -/
def noBroker : Broker where
  host := []
  port := 0
  fits := by decide
  isPort := by decide

theorem toUint16_lt (n : Int) : toUint16 n < 65536 := by
  simp only [toUint16]
  omega

/-- `mqttHostCopy` and the port that goes with it: a host that does not fit leaves the target
as it was. -/
def Broker.refresh (b : Broker) (d : MqttDoc) : Broker :=
  if fits : mqttHostFits d.broker MQTT_BROKER_HOST_CAP then
    { host := d.broker
      port := toUint16 (d.portOr 8883)
      fits := of_decide_eq_true fits
      isPort := toUint16_lt _ }
  else b

/-- The target `begin` sets. An empty host returns before the copy. -/
def Broker.begin (b : Broker) (d : MqttDoc) : Broker := if d.broker = [] then b else b.refresh d

/-- `Secret::resolve` of the password: a stored secret wins, else the document's value clipped
to the buffer. -/
def resolvePassword (stored : Option Str) (d : MqttDoc) : Str :=
  match stored with
  | some secret =>
      if secret.length < SECRET_MAX_LEN ∧ secret ≠ [] then secret
      else d.password.take (SECRET_MAX_LEN - 1)
  | none => d.password.take (SECRET_MAX_LEN - 1)

/-! ## Facts about the snapshot -/

theorem mqttCriticalJson_eq_some {codec : CriticalCodec} {d : MqttDoc} {out : Str}
    (h : mqttCriticalJson codec d = some out) :
    out = codec.render (critical d) ∧ out ≠ [] ∧ out.length < LG_MAX_LEN := by
  simp only [mqttCriticalJson] at h
  split_ifs at h with fits
  obtain rfl := Option.some.inj h
  exact ⟨rfl, List.ne_nil_of_length_pos fits.1, fits.2⟩

theorem CriticalCodec.render_injective (codec : CriticalCodec) {c c' : Critical}
    (h : codec.render c = codec.render c') : c = c' := by
  have parsed : codec.parse (codec.render c) = codec.parse (codec.render c') := by rw [h]
  rw [codec.parse_render, codec.parse_render] at parsed
  exact Option.some.inj parsed

theorem mqttRollbackShould_iff {lg rbCfg cur : Str} {haveLg : Bool} :
    mqttRollbackShould lg haveLg rbCfg cur = true ↔
      haveLg = true ∧ lg ≠ [] ∧ rbCfg ≠ [] ∧ cur = rbCfg ∧ cur ≠ lg := by
  cases haveLg with
  | false => simp [mqttRollbackShould]
  | true =>
      simp only [mqttRollbackShould, Bool.not_true, Bool.false_or, List.isEmpty_iff]
      split_ifs <;> simp_all

theorem mqttSnapshotProven_iff {cfgHost liveHost : Str} {cfgPort livePort : Nat} :
    mqttSnapshotProven cfgHost cfgPort liveHost livePort = true ↔
      liveHost ≠ [] ∧ cfgPort = livePort ∧ cfgHost = liveHost := by
  simp only [mqttSnapshotProven, List.isEmpty_iff]
  split_ifs <;> simp_all

/-- A restored document reads as the snapshot. -/
theorem critical_restore (lg : Critical) (m : MqttKeys) : critical (restore lg (some m)) = lg :=
  rfl

/-! ## The snapshot text -/

/-- Takes a fixed text off the front. -/
def expect (lit s : Str) : Option Str :=
  if lit.isPrefixOf s then some (s.drop lit.length) else none

theorem expect_append (lit rest : Str) : expect lit (lit ++ rest) = some rest := by
  simp [expect]

def brokerKey : Str := "\x7b\"broker\":".toList
def portKey : Str := ",\"port\":".toList
def userKey : Str := ",\"user\":".toList
def passwordKey : Str := ",\"password\":".toList

def renderCritical (c : Critical) : Str :=
  brokerKey ++ (quoted c.broker ++ (portKey ++ (integer c.port ++
    (userKey ++ (quoted c.user ++ (passwordKey ++ (quoted c.password ++ ['}'])))))))

def parseCritical (s : Str) : Option Critical := do
  let s ← expect brokerKey s
  let (broker, s) ← readQuoted s
  let s ← expect portKey s
  let (port, s) ← readInteger s
  let s ← expect userKey s
  let (user, s) ← readQuoted s
  let s ← expect passwordKey s
  let (password, s) ← readQuoted s
  let _ ← expect ['}'] s
  return { broker, port, user, password }

theorem parse_renderCritical (c : Critical) : parseCritical (renderCritical c) = some c := by
  have ends (rest : Str) : EndsNumber (userKey ++ rest) := by
    intro d first
    have : some ',' = some d := first
    obtain rfl := Option.some.inj this
    decide
  have close : expect ['}'] ['}'] = some [] := rfl
  simp only [renderCritical, parseCritical, expect_append, readQuoted_quoted,
    readInteger_integer _ (ends _), close, Option.bind_eq_bind, Option.bind_some, Option.pure_def]

/-- The text ArduinoJson writes for these keys, and its reader on such a text. -/
def arduinoJson : CriticalCodec where
  render := renderCritical
  parse := parseCritical
  parse_render := parse_renderCritical

example : arduinoJson.render { broker := "b".toList, port := 8883, user := [], password := [] } =
    "\x7b\"broker\":\"b\",\"port\":8883,\"user\":\"\",\"password\":\"\"\x7d".toList := by decide

end Thesada.Mqtt
