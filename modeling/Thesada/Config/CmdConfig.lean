import Thesada.Library.JsonGrammar
import Thesada.Config.Store
import Thesada.Mqtt.CriticalConfig

/-!
# The scan of a pushed config document

A `cmd/config` payload is scanned for its shape and its broker before it is staged. The scan
moves an index over the payload; here it carries the bytes from the index to the end. A read at
the end, and a loop that turns more often than there are bytes, stop it with a fault of their
own.

The three object walkers share one loop. They differ in what they do with a member, which is
the parameter of `walkMembers`.
-/

namespace Thesada.Config

open CString JsonGrammar
open ConfigUnit (docPrefix)
open Mqtt (MQTT_BROKER_HOST_CAP mqttHostFits)

def CMD_CONFIG_MAX : Nat := 4096
def CMD_CONFIG_MAX_DEPTH : Nat := 8

inductive CmdConfigVerdict where
  | ok
  | refuseTls
  | refuseShape
  | refuseBroker
  deriving DecidableEq

/-- `p.s` from `p.i` to `p.n`, and `p.depth`. -/
structure CmdConfigScan where
  rest : Bytes
  depth : Nat
  deriving DecidableEq

inductive Stop where
  | refused
  /-- A byte at or past `p.n` was read. -/
  | outside
  /-- A loop did not end. -/
  | endless
  deriving DecidableEq

abbrev Scanned := Except Stop

namespace CmdConfigScan

/-- `p.s[p.i]`. -/
def read (p : CmdConfigScan) : Scanned UInt8 :=
  match p.rest with
  | [] => .error .outside
  | c :: _ => .ok c

/-- `p.i++`. -/
def next (p : CmdConfigScan) : Scanned CmdConfigScan :=
  match p.rest with
  | [] => .error .outside
  | _ :: s => .ok { p with rest := s }

end CmdConfigScan

def cmdConfigWs (c : UInt8) : Bool := c = 0x20 || c = 0x09 || c = 0x0A || c = 0x0D

/-- The scan after white space, and whether anything is left. -/
def cmdConfigSkipWs (p : CmdConfigScan) : CmdConfigScan × Bool :=
  let p := { p with rest := p.rest.dropWhile cmdConfigWs }
  (p, !p.rest.isEmpty)

/-- `if (!cmdConfigSkipWs(p)) return false`. -/
def skipped (p : CmdConfigScan) : Scanned CmdConfigScan :=
  let (p, more) := cmdConfigSkipWs p
  if more then .ok p else .error .refused

/-- `if (!cmdConfigSkipWs(p) || p.s[p.i] != c) return false`. -/
def skippedTo (c : UInt8) (p : CmdConfigScan) : Scanned CmdConfigScan := do
  let p ← skipped p
  if (← p.read) = c then .ok p else .error .refused

def cmdConfigLiteral (p : CmdConfigScan) : Bytes → Scanned CmdConfigScan
  | [] => .ok p
  | l :: lit =>
      match p.rest with
      | [] => .error .refused
      | c :: s => if c = l then cmdConfigLiteral { p with rest := s } lit else .error .refused

/-- What follows the closing quote, and the unescaped length on top of `nch`. -/
def stringBody : Bytes → Nat → Option (Bytes × Nat)
  | [], _ => none
  | c :: s, nch =>
      if c = BACKSLASH then
        match s with
        | [] => none
        | _ :: s => stringBody s (nch + 1)
      else if c = QUOTE then some (s, nch)
      else if c < 0x20 then none
      else stringBody s (nch + 1)

def cmdConfigString (p : CmdConfigScan) : Scanned (Nat × CmdConfigScan) :=
  match p.rest with
  | [] => .error .refused
  | c :: s =>
      if c ≠ QUOTE then .error .refused
      else
        match stringBody s 0 with
        | none => .error .refused
        | some (rest, chars) => .ok (chars, { p with rest := rest })

/-- A name of the payload against a literal. -/
def cmdConfigKeyIs : Bytes → Bytes → Bool
  | name, [] => name.isEmpty
  | [], _ :: _ => false
  | c :: name, l :: lit => c = l && cmdConfigKeyIs name lit

/-! ## Numbers -/

def someDigits : Bytes → Option Bytes
  | [] => none
  | c :: s => if isDigit c then some (s.dropWhile isDigit) else none

def numberSign : Bytes → Bytes
  | [] => []
  | c :: s => if c = 0x2D then s else c :: s

def numberInt : Bytes → Option Bytes
  | [] => none
  | c :: s =>
      if !isDigit c then none else if c = 0x30 then some s else some (s.dropWhile isDigit)

def numberFrac : Bytes → Option Bytes
  | [] => some []
  | c :: s => if c = 0x2E then someDigits s else some (c :: s)

def expSign : Bytes → Bytes
  | [] => []
  | c :: s => if c = 0x2B ∨ c = 0x2D then s else c :: s

def numberExp : Bytes → Option Bytes
  | [] => some []
  | c :: s => if c = 0x65 ∨ c = 0x45 then someDigits (expSign s) else some (c :: s)

def cmdConfigNumber (p : CmdConfigScan) : Scanned CmdConfigScan :=
  match ((numberInt (numberSign p.rest)).bind numberFrac).bind numberExp with
  | none => .error .refused
  | some rest =>
      if rest.length < p.rest.length then .ok { p with rest := rest } else .error .refused

/-! ## Containers -/

/-- A name with its quotes and its colon: the bytes from `ks` to `ke`. -/
def memberName (p : CmdConfigScan) : Scanned (Bytes × CmdConfigScan) := do
  if (← p.read) = QUOTE then
    let (_, q) ← cmdConfigString p
    let name := (p.rest.drop 1).take (p.rest.length - q.rest.length - 2)
    let q ← skippedTo COLON q
    .ok (name, ← q.next)
  else .error .refused

/-- An element of an array has no name. -/
def memberLabel (named : Bool) (p : CmdConfigScan) : Scanned (Bytes × CmdConfigScan) :=
  if named then memberName p else .ok ([], p)

variable {σ : Type}

/-- The loop of a walker from a member on: its fuel is a bound on the turns. -/
def walkMembers (named : Bool) (member : Bytes → σ → CmdConfigScan → Scanned (σ × CmdConfigScan)) :
    Nat → σ → CmdConfigScan → Scanned (σ × CmdConfigScan)
  | 0, _, _ => .error .endless
  | fuel + 1, st, p => do
      let (name, p) ← memberLabel named p
      let (st, p) ← member name st p
      let p ← skipped p
      let c ← p.read
      if c = COMMA then
        let p ← p.next
        let p ← skipped p
        walkMembers named member fuel st p
      else if c = closing named then
        let p ← p.next
        .ok (st, { p with depth := p.depth - 1 })
      else .error .refused

/-- A walker from the opening bracket on. -/
def walkContainer (named : Bool)
    (member : Bytes → σ → CmdConfigScan → Scanned (σ × CmdConfigScan)) (st : σ)
    (p : CmdConfigScan) : Scanned (σ × CmdConfigScan) := do
  let p := { p with depth := p.depth + 1 }
  if CMD_CONFIG_MAX_DEPTH < p.depth then .error .refused
  else
    let p ← p.next
    let p ← skipped p
    if (← p.read) = closing named then
      let p ← p.next
      .ok (st, { p with depth := p.depth - 1 })
    else walkMembers named member p.rest.length st p

def cmdConfigContainer (value : CmdConfigScan → Scanned (Unit × CmdConfigScan)) (named : Bool)
    (p : CmdConfigScan) : Scanned (Unit × CmdConfigScan) :=
  walkContainer named (fun _ _ p => value p) () p

/-- The fuel bounds the recursion through containers. -/
def cmdConfigValue : Nat → CmdConfigScan → Scanned (Unit × CmdConfigScan)
  | 0, _ => .error .endless
  | fuel + 1, p => do
      let p ← skipped p
      let c ← p.read
      if c = QUOTE then
        let (_, p) ← cmdConfigString p
        .ok ((), p)
      else if c = 0x7B then cmdConfigContainer (cmdConfigValue fuel) true p
      else if c = 0x5B then cmdConfigContainer (cmdConfigValue fuel) false p
      else if c = 0x74 then .ok ((), ← cmdConfigLiteral p [0x74, 0x72, 0x75, 0x65])
      else if c = 0x66 then .ok ((), ← cmdConfigLiteral p [0x66, 0x61, 0x6C, 0x73, 0x65])
      else if c = 0x6E then .ok ((), ← cmdConfigLiteral p [0x6E, 0x75, 0x6C, 0x6C])
      else .ok ((), ← cmdConfigNumber p)

/-- The bytes of an ASCII name. -/
def ascii (k : Str) : Bytes := k.map Char.toUInt8

/-- `sawMqtt` and `broker` of the top level, `saw` and `found` of the `mqtt` object. -/
abbrev Found := Bool × Nat

/-- A member of a walker that looks for one name: `found` reads the value of that name. -/
def soughtMember (lit : Bytes) (found : CmdConfigScan → Scanned (Nat × CmdConfigScan))
    (name : Bytes) (st : Found) (p : CmdConfigScan) : Scanned (Found × CmdConfigScan) := do
  if cmdConfigKeyIs name lit then
    if st.1 then .error .refused
    else
      let (value, p) ← found p
      .ok ((true, value), p)
  else
    let (_, p) ← cmdConfigValue (CMD_CONFIG_MAX_DEPTH + 1) p
    .ok (st, p)

/-- The broker's value: a string, and whether it has characters. -/
def brokerValue (p : CmdConfigScan) : Scanned (Nat × CmdConfigScan) := do
  let p ← skippedTo QUOTE p
  let (chars, p) ← cmdConfigString p
  .ok (if 0 < chars then 1 else 0, p)

def cmdConfigMqttObject (p : CmdConfigScan) : Scanned (Nat × CmdConfigScan) := do
  let (st, p) ← walkContainer true (soughtMember (ascii K_BROKER) brokerValue) (false, 0) p
  .ok (st.2, p)

/-- `cmdConfigMqttObject` behind its check for an object. -/
def mqttValue (p : CmdConfigScan) : Scanned (Nat × CmdConfigScan) := do
  let p ← skippedTo 0x7B p
  cmdConfigMqttObject p

def cmdConfigScanBroker (p : CmdConfigScan) : Scanned Nat := do
  let p ← skippedTo 0x7B p
  let (st, p) ← walkContainer true (soughtMember (ascii K_MQTT) mqttValue) (false, 0)
    { p with depth := 0 }
  if (cmdConfigSkipWs p).2 then .error .refused else .ok st.2

/-- `payload` and its length; a null pointer is `none`. -/
def cmdConfigVerdict (tlsVerified : Bool) (payload : Option Bytes) : Scanned CmdConfigVerdict :=
  match payload with
  | none => .ok .refuseShape
  | some bytes =>
      if bytes.length = 0 ∨ CMD_CONFIG_MAX ≤ bytes.length then .ok .refuseShape
      else if !tlsVerified then .ok .refuseTls
      else
        match cmdConfigScanBroker { rest := bytes, depth := 0 } with
        | .error .refused => .ok .refuseShape
        | .error stop => .error stop
        | .ok 0 => .ok .refuseBroker
        | .ok (_ + 1) => .ok .ok

/-! ## The staged document applied -/

inductive CmdConfigRefusal where
  | json
  | broker
  | brokerTooLong
  | prefixType
  | prefixLength
  | persist
  deriving DecidableEq

def DEFAULT_TOPIC_PREFIX : Str := "thesada/node".toList
def CMD_CONFIG_SUFFIX : Str := "/cmd/config".toList

/-- `doc["mqtt"]["broker"] | ""`. -/
def docBroker (doc : Json) : Str := ((doc.member K_MQTT).member K_BROKER).asStr.getD []

/-- `doc["mqtt"]["topic_prefix"] | "thesada/node"`. -/
def topicPrefixOr (doc : Json) : Str :=
  ((doc.member K_MQTT).member K_TOPIC_PREFIX).asStr.getD DEFAULT_TOPIC_PREFIX

/-- The unit after the call, and why it refused if it did. -/
def mqttApplyCmdConfig (deserializeJson : Reader) (c : ConfigUnit) (json : Str) (write : WriteIo)
    (load : LoadIo) : ConfigUnit × Except CmdConfigRefusal Unit :=
  match deserializeJson json with
  | .error _ => (c, .error .json)
  | .ok doc =>
      if !doc.isObject then (c, .error .json)
      else if docBroker doc = [] then (c, .error .broker)
      else if !mqttHostFits (docBroker doc) MQTT_BROKER_HOST_CAP then (c, .error .brokerTooLong)
      else
        let prefixLive := topicPrefixOr c.live
        match docPrefix doc with
        | none => (c, .error .prefixType)
        | some incoming =>
            let incoming := incoming.getD DEFAULT_TOPIC_PREFIX
            if TOPIC_PREFIX_CAP ≤ prefixLive.length ∨
                TOPIC_PREFIX_CAP ≤ incoming.length + CMD_CONFIG_SUFFIX.length then
              (c, .error .prefixLength)
            else
              let (c, done) := c.replace deserializeJson json write load
              if !done then (c, .error .persist)
              else if topicPrefixOr c.live ≠ prefixLive then
                ((c.holdTopicPrefix prefixLive).1, .ok ())
              else (c, .ok ())

end Thesada.Config
