import Thesada.Enroll.CertReply
import Thesada.Library.Machine
import Thesada.Library.Word32

/-!
# The enrollment client

One request at a time runs on its own task: an enrollment step or a revocation status check. The
main loop applies what a finished request brought, gives up on one that overran, and starts the
next. A request that overran is kept aside until its task ends and its answer is dropped.

The answers, the clock and the outcome of every call are part of the events; a boot, `cert.set`,
`cert.apply` and `cert.clear` are events beside the loop turns.
-/

namespace Thesada.Enroll

open CString Json Machine Thesada.Config Thesada.Mqtt Thesada.Identity

def JOB_CEILING_MS : Nat := 60000
def ENROLL_CHALLENGE_HEX_LEN : Nat := 64

def ST_LOCAL : Int := -1
def ST_UNUSABLE : Int := -3

/-- One request, and what its task brought. -/
structure EnrollJob where
  isStatusCheck : Bool
  done : Bool
  status : Int
  reply : Str
  deriving DecidableEq

structure StatusCheck where
  due : Bool
  dueAt : Nat
  failures : Nat
  lastStatus : Int
  serial : Str

structure EnrollUnit where
  stores : EnrollStores
  /-- This boot found a usable URL and a claim code. -/
  bootFound : Bool
  active : Bool
  step : EnrollStep
  failures : Nat
  nextAt : Nat
  lastStatus : Int
  job : Option EnrollJob
  stale : Option EnrollJob
  jobAt : Nat
  check : StatusCheck
  certRebootPending : Bool

/-- What a request needs before its task runs. -/
structure StartIo where
  allocates : Bool
  builds : Bool
  taskStarts : Bool

/-- The read of the certificate's serial for a check. -/
structure SerialIo where
  allocates : Bool
  opens : Bool
  reads : Bool

structure TurnIo where
  now : Nat
  rnd : Nat
  deviceId : Str
  connected : Bool
  ntpSynced : Bool
  mtlsSessionUp : Bool
  signs : Bool
  cert : CertIo
  ackClear : AckIo
  wipe : ClearCertIo
  wipeAck : AckIo
  start : StartIo
  serial : SerialIo

structure BootIo where
  now : Nat
  hasIdentity : Bool
  load : Config.LoadIo
  has : HasIo
  ackOpens : Bool
  ackClear : AckIo
  url : Str
  claimCode : Str

namespace EnrollUnit

variable (deserializeJson : Reader) (tls : Mbedtls) (serialOf : Str → Option Str)

/-- The serial of the stored certificate in the form the app has it. `serialOf` is the hex the
certificate library reads off a certificate, if it reads one. -/
def storedSerial (n : CertNvs) : Option Str :=
  (n.cert.bind fun cert => serialOf cert.1).bind fun raw =>
    enrollSerialCanonical raw ENROLL_SERIAL_HEX_CAP

def scheduleCheck (u : EnrollUnit) (now delayMs : Nat) : EnrollUnit :=
  { u with check := { u.check with due := true, dueAt := Word32.add now delayMs } }

/-! ## Requests -/

def advance (u : EnrollUnit) (status : Int) (now rnd : Nat) : EnrollUnit :=
  let a := enrollOnResponse u.step status u.failures rnd
  let u := { u with
    failures := if a.progressed then 0 else min (u.failures + 1) 255
    step := a.next
    nextAt := Word32.add now a.delayMs
    lastStatus := status }
  if u.step = .done then { u with active := false }.scheduleCheck now ENROLL_STATUS_EVERY_MS
  else u

/-- `onChallenge`: whether a signature is stored for the next step. -/
def onChallenge (reply : Str) (signs : Bool) : Bool :=
  match deserializeJson reply with
  | .error _ => false
  | .ok doc => enrollHexLen (strMember doc "challenge") = some ENROLL_CHALLENGE_HEX_LEN && signs

/-- `onOk`: what a 200 brings to the stores, and whether it was applied. -/
def onOk (u : EnrollUnit) (reply : Str) (io : TurnIo) : EnrollUnit × Bool :=
  match u.step with
  | .announce => (u, onChallenge deserializeJson reply io.signs)
  | .poll =>
      let (stores, ok) := onCert deserializeJson tls io.deviceId u.stores reply io.cert
      ({ u with stores, certRebootPending := u.certRebootPending || ok }, ok)
  | .ack =>
      let (ackPending, ok) := ackPendingSet u.stores.ackPending false io.ackClear
      ({ u with stores := { u.stores with ackPending } }, ok)
  | _ => (u, true)

def finishEnroll (u : EnrollUnit) (job : EnrollJob) (io : TurnIo) : EnrollUnit :=
  if job.status = 200 then
    let (u, ok) := u.onOk deserializeJson tls job.reply io
    u.advance (if ok then 200 else ST_UNUSABLE) io.now io.rnd
  else u.advance job.status io.now io.rnd

def startJob (u : EnrollUnit) (io : TurnIo) : EnrollUnit :=
  if u.stale.isSome then u
  else if !io.start.allocates then u.advance ST_LOCAL io.now io.rnd
  else if !io.start.builds then { u with active := false }
  else if !io.start.taskStarts then u.advance ST_LOCAL io.now io.rnd
  else
    { u with
      job := some { isStatusCheck := false, done := false, status := ST_LOCAL, reply := [] }
      jobAt := io.now }

/-! ## Status checks -/

def checkUnanswered (u : EnrollUnit) (status : Int) (now rnd : Nat) : EnrollUnit :=
  let failures := min (u.check.failures + 1) 255
  { u with check := { u.check with failures, lastStatus := status } }.scheduleCheck now
    (enrollBackoffMs failures rnd)

/-- The serial `getCertInfo` prints. -/
def readSerial (n : CertNvs) (io : SerialIo) : Option Str :=
  if io.allocates && io.opens && io.reads then n.cert.bind fun cert => serialOf cert.1 else none

def startCheck (u : EnrollUnit) (io : TurnIo) : EnrollUnit :=
  let u := { u with check := { u.check with due := false } }
  match readSerial serialOf u.stores.cert.nvs io.serial with
  | none => u
  | some raw =>
      match enrollSerialCanonical raw ENROLL_SERIAL_HEX_CAP with
      | none => { u with check := { u.check with serial := [] } }
      | some serial =>
          let u := { u with check := { u.check with serial } }
          if !io.start.builds || !io.start.allocates || !io.start.taskStarts then
            u.checkUnanswered ST_LOCAL io.now io.rnd
          else
            { u with
              job := some { isStatusCheck := true, done := false, status := ST_LOCAL, reply := [] }
              jobAt := io.now }

/-- A finished check that the app answered. -/
def applyAnswer (u : EnrollUnit) (doc : Json) (io : TurnIo) : EnrollUnit :=
  let u := { u with check := { u.check with failures := 0, lastStatus := 200 } }
  if enrollStatusRevoked 200 (strMember doc "status") (strMember doc "serial") u.check.serial then
    let (cert, cleared) := u.stores.cert.clearClientCert io.wipe
    let u := { u with stores := { u.stores with cert } }
    if cleared then
      let ackPending := (ackPendingSet u.stores.ackPending false io.wipeAck).1
      { u with stores := { u.stores with ackPending }, certRebootPending := true }
    else u.checkUnanswered ST_UNUSABLE io.now io.rnd
  else u.scheduleCheck io.now (enrollStatusCadenceMs io.rnd)

def finishCheck (u : EnrollUnit) (job : EnrollJob) (io : TurnIo) : EnrollUnit :=
  if job.status = 200 then
    match deserializeJson job.reply with
    | .error _ => u.checkUnanswered ST_UNUSABLE io.now io.rnd
    | .ok doc => u.applyAnswer doc io
  else u.checkUnanswered job.status io.now io.rnd

/-! ## The loop and the boot -/

def finishJob (u : EnrollUnit) (job : EnrollJob) (io : TurnIo) : EnrollUnit :=
  let u := { u with job := none }
  if job.isStatusCheck then u.finishCheck deserializeJson job io
  else u.finishEnroll deserializeJson tls job io

/-- The request is set aside with its task still running. -/
def overran (u : EnrollUnit) (job : EnrollJob) (io : TurnIo) : EnrollUnit :=
  let u := { u with stale := some job, job := none }
  if job.isStatusCheck then u.checkUnanswered ST_LOCAL io.now io.rnd
  else u.advance ST_LOCAL io.now io.rnd

def reapStale (u : EnrollUnit) : EnrollUnit :=
  if u.stale.any (·.done) then { u with stale := none } else u

/-- `(int32_t)(now - at) >= 0`. -/
def reached (now dueAt : Nat) : Bool := Word32.sub now dueAt < 2 ^ 31

def idleTurn (u : EnrollUnit) (io : TurnIo) : EnrollUnit :=
  if !u.active then
    if u.check.due && !u.certRebootPending && io.connected && io.ntpSynced &&
        reached io.now u.check.dueAt then
      u.startCheck serialOf io
    else u
  else if u.step = .awaitMtls then
    if io.mtlsSessionUp then { u with step := .ack, nextAt := io.now } else u
  else if u.certRebootPending || !io.connected then u
  else if !reached io.now u.nextAt then u
  else u.startJob io

def loop (u : EnrollUnit) (io : TurnIo) : EnrollUnit :=
  let u := u.reapStale
  if u.stale.isSome then u
  else
    match u.job with
    | some job =>
        if job.done then u.finishJob deserializeJson tls job io
        else if JOB_CEILING_MS < Word32.sub io.now u.jobAt then u.overran job io
        else u
    | none => u.idleTurn serialOf io

/-- RAM at power-up over the stored rows. -/
def poweredUp (s : EnrollStores) (load : Config.LoadIo) : EnrollUnit where
  stores := { s with
    config := ({ s.config with live := .null, held := none } : ConfigUnit).load load
    cert := s.cert.restarted }
  bootFound := false
  active := false
  step := .done
  failures := 0
  nextAt := 0
  lastStatus := 0
  job := none
  stale := none
  jobAt := 0
  check := { due := false, dueAt := 0, failures := 0, lastStatus := 0, serial := [] }
  certRebootPending := false

/-- `Enroll::begin` after a power-up. -/
def begin (u : EnrollUnit) (io : BootIo) : EnrollUnit :=
  if !io.hasIdentity then u
  else
    let hasCert := u.stores.cert.hasClientCert io.has
    let ackPending := io.ackOpens && u.stores.ackPending
    let left := if !hasCert && ackPending then
        (ackPendingSet u.stores.ackPending false io.ackClear).1
      else u.stores.ackPending
    let urlOk := enrollUrlUsable io.url
    let haveCode := urlOk && enrollClaimCodeValid io.claimCode
    let u := { u with
      stores := { u.stores with ackPending := left }
      bootFound := haveCode
      step := enrollStartStep hasCert ackPending }
    if u.step = .done then
      if haveCode then u.scheduleCheck io.now ENROLL_STATUS_FIRST_MS else u
    else if !haveCode then u
    else { u with active := true, nextAt := io.now }

end EnrollUnit

inductive EnrollEvent where
  | boot (io : BootIo)
  | loop (io : TurnIo)
  /-- The task of the running request ends. -/
  | answer (status : Int) (reply : Str)
  /-- The task of a request that overran ends. -/
  | lateAnswer (status : Int) (reply : Str)
  /-- `cert.set`, half by half. -/
  | certSet (certPEM keyPEM : Option Str) (io : StoreIo)
  | certApply (has : HasIo) (io : CheckIo)
  | certClear (has : HasIo) (io : ClearCertIo)

/-- A task ends with its answer. -/
def EnrollJob.finished (job : EnrollJob) (status : Int) (reply : Str) : EnrollJob :=
  if job.done then job else { job with done := true, status, reply }

def enrollStep (deserializeJson : Reader) (tls : Mbedtls) (serialOf : Str → Option Str)
    (u : EnrollUnit) : EnrollEvent → EnrollUnit
  | .boot io => (EnrollUnit.poweredUp u.stores io.load).begin io
  | .loop io => u.loop deserializeJson tls serialOf io
  | .answer status reply => { u with job := u.job.map (·.finished status reply) }
  | .lateAnswer status reply => { u with stale := u.stale.map (·.finished status reply) }
  | .certSet certPEM keyPEM io =>
      { u with stores := { u.stores with
        cert := (u.stores.cert.storeClientCert certPEM keyPEM io).1 } }
  | .certApply has io =>
      let (cert, verdict) := u.stores.cert.certApply tls has io
      { u with
        stores := { u.stores with cert }
        certRebootPending := u.certRebootPending || verdict = .reboot }
  | .certClear has io =>
      let (cert, cleared) := u.stores.cert.clearClientCert io
      { u with
        stores := { u.stores with cert }
        certRebootPending :=
          u.certRebootPending || (cleared && u.stores.cert.hasClientCert has) }

end Thesada.Enroll
