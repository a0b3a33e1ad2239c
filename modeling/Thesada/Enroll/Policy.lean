import Thesada.Identity.Keypair

/-!
# Enrollment policy

`enroll_policy.h`: which URL, claim code, reply and serial are usable, when an answer means that
the certificate is revoked, and which step follows an answer.
-/

namespace Thesada.Enroll

open CString Thesada.Identity

def ENROLL_CLAIM_CODE_LEN : Nat := 8
def ENROLL_URL_CAP : Nat := 128
def ENROLL_HOST_CAP : Nat := 96
def ENROLL_POLL_MS : Nat := 150000
def ENROLL_BACKOFF_MIN_MS : Nat := 150000
def ENROLL_BACKOFF_MAX_MS : Nat := 1800000
def ENROLL_SERIAL_HEX_CAP : Nat := 41
def ENROLL_STATUS_FIRST_MS : Nat := 300000
def ENROLL_STATUS_EVERY_MS : Nat := 21600000

/-! ## Texts -/

/-- The length of a lowercase hex text. -/
def enrollHexLen (s : Str) : Option Nat := if s.all isIdHex then some s.length else none

def enrollClaimCodeValid (code : Str) : Bool :=
  code.all (fun c => '0' ≤ c && c ≤ '9') && code.length = ENROLL_CLAIM_CODE_LEN

def urlScheme : Str := "https://".toList

def enrollUrlUsable (url : Str) : Bool :=
  if !urlScheme.isPrefixOf url then false
  else if ENROLL_URL_CAP ≤ url.length then false
  else
    match url.drop urlScheme.length with
    | [] => false
    | c :: _ =>
        if c = '/' ∨ c = ':' then false
        else url.all fun c => '!' ≤ c && c ≤ '~' && c ≠ '?' && c ≠ '#' && c ≠ '@'

def isHostChar (c : Char) : Bool := c.isAlpha || c.isDigit || c = '.' || c = '-'

def enrollHostUsable (host : Str) : Bool :=
  match host with
  | [] => false
  | c :: _ =>
      if c = '.' ∨ c = '-' then false
      else host.all isHostChar && host.length < ENROLL_HOST_CAP

def longestCommand : Str := "/cmd/config".toList

def enrollPrefixUsable (topicPrefix : Str) (prefixCap : Nat) : Bool :=
  match topicPrefix with
  | [] => false
  | c :: _ =>
      if c = '/' then false
      else if !topicPrefix.all (fun c => '!' ≤ c && c ≤ '~' && c ≠ '+' && c ≠ '#') then false
      else if topicPrefix.getLast? = some '/' then false
      else topicPrefix.length + longestCommand.length < prefixCap

def enrollReplyUsable (ourId replyId host : Str) (port : Int) (topicPrefix : Str)
    (prefixCap : Nat) : Bool :=
  if ourId ≠ replyId then false
  else if port < 1 ∨ 65535 < port then false
  else enrollHostUsable host && enrollPrefixUsable topicPrefix prefixCap

/-! ## Serials and revocation -/

/-- Leading zeros dropped, all but the last digit. -/
def dropZeros : Str → Str
  | '0' :: c :: rest => dropZeros (c :: rest)
  | s => s

def enrollSerialCanonical (raw : Str) (cap : Nat) : Option Str :=
  match enrollHexLen raw with
  | none => none
  | some 0 => none
  | some _ =>
      let serial := dropZeros raw
      if cap ≤ serial.length then none else some serial

def enrollSerialValid (serial : Str) : Bool :=
  match enrollHexLen serial with
  | none => false
  | some n =>
      if n = 0 ∨ ENROLL_SERIAL_HEX_CAP ≤ n then false
      else !(serial.head? = some '0' && 1 < n)

def revoked : Str := "revoked".toList

def enrollStatusRevoked (httpStatus : Int) (status replySerial ourSerial : Str) : Bool :=
  if httpStatus ≠ 200 then false
  else if !enrollSerialValid ourSerial then false
  else status = revoked && replySerial = ourSerial

/-! ## Steps -/

inductive EnrollStep where
  | announce
  | verify
  | poll
  | awaitMtls
  | ack
  | done
  deriving DecidableEq

/-- The delay doubled once for each failure, below the cap. -/
def backoffBase : Nat → Nat
  | 0 => ENROLL_BACKOFF_MIN_MS
  | n + 1 => if backoffBase n < ENROLL_BACKOFF_MAX_MS then backoffBase n * 2 else backoffBase n

def enrollBackoffMs (failures rnd : Nat) : Nat :=
  let d := min (backoffBase failures) ENROLL_BACKOFF_MAX_MS
  d + rnd % (d / 4 + 1)

def enrollStatusCadenceMs (rnd : Nat) : Nat :=
  ENROLL_STATUS_EVERY_MS + rnd % (ENROLL_STATUS_EVERY_MS / 8 + 1)

def enrollStartStep (hasCert ackPending : Bool) : EnrollStep :=
  if !hasCert then .announce else if ackPending then .awaitMtls else .done

structure EnrollAction where
  next : EnrollStep
  delayMs : Nat
  progressed : Bool

def enrollOnResponse (step : EnrollStep) (status : Int) (failures rnd : Nat) : EnrollAction :=
  let back := enrollBackoffMs failures rnd
  match step with
  | .announce => if status = 200 then ⟨.verify, 0, true⟩ else ⟨.announce, back, false⟩
  | .verify => if status = 200 then ⟨.poll, 0, true⟩ else ⟨.announce, back, false⟩
  | .poll =>
      if status = 204 then ⟨.poll, ENROLL_POLL_MS, true⟩
      else if status = 200 then ⟨.awaitMtls, 0, true⟩
      else if status = 403 then ⟨.announce, back, false⟩
      else ⟨.poll, back, false⟩
  | .ack => if status = 200 then ⟨.done, 0, true⟩ else ⟨.ack, back, false⟩
  | .awaitMtls => ⟨.awaitMtls, 0, false⟩
  | .done => ⟨.done, 0, false⟩

end Thesada.Enroll
