import Mathlib.Algebra.Group.Nat.Defs
import Thesada.Library.Machine
import Thesada.Mqtt.CriticalConfig

/-!
# Connecting, giving up and rolling back

A connect that fails may restart the unit, in one of two branches that share one count in the
boot namespace of NVS. A connect that succeeds clears the count and commits the settings it
used as last-good; a boot that finds the settings which restarted it puts last-good back.

Which NVS call fails and what the clock reads is part of the event. `time` and `countedAt` are
the real time and the real time of the last restart whose count landed: the code never sees
either. `committed` is the document and the dial target of the session behind the snapshot.
-/

namespace Thesada.Mqtt

open CString Machine

def CLOCK_FLOOR_SANE_EPOCH : Nat := 1700000000
def RB_STALE_WINDOW_S : Nat := 6 * 3600

/-- The `thesada-boot` namespace; an absent key reads as its default. -/
structure BootNvs where
  count : Nat
  epoch : Nat
  lgSet : Bool
  lg : Str
  rbCfg : Str
  deriving DecidableEq

/-- `getString` into a buffer of `LG_MAX_LEN` that starts empty. -/
def getString (ok : Bool) (s : Str) : Str := if ok ∧ s.length < LG_MAX_LEN then s else []

/-! ## The restart count -/

/-- One read of the count and the bump that may follow it. -/
structure CountIo where
  readOpens : Bool
  readCount : Bool
  readEpoch : Bool
  now : Nat
  bumpOpens : Bool
  putCount : Bool
  putEpoch : Bool
  bumpNow : Nat

/-- The clear of the count. -/
structure ClearIo where
  opens : Bool
  readCount : Bool
  removeCount : Bool
  removeEpoch : Bool

/-- `(uint32_t)now - epoch` in 32 bits. -/
def epochAge (now epoch : Nat) : Nat := (now % 2 ^ 32 + (2 ^ 32 - epoch % 2 ^ 32)) % 2 ^ 32

/-- The epoch `mqttRebootCount` sees. -/
def epochRead (n : BootNvs) (io : CountIo) : Nat := if io.readEpoch then n.epoch else 0

def agedOut (n : BootNvs) (io : CountIo) : Bool :=
  CLOCK_FLOOR_SANE_EPOCH < io.now && 0 < epochRead n io &&
    RB_STALE_WINDOW_S < epochAge io.now (epochRead n io)

def mqttRebootCount (n : BootNvs) (io : CountIo) : Nat :=
  if !io.readOpens then 0
  else
    let count := if io.readCount then n.count else 0
    if 0 < count ∧ agedOut n io then 0 else count

def mqttRebootCountBump (n : BootNvs) (io : CountIo) (newCount : Nat) : BootNvs :=
  if !io.bumpOpens then n
  else
    { n with
      count := if io.putCount then newCount else n.count
      epoch :=
        if io.putEpoch then
          (if CLOCK_FLOOR_SANE_EPOCH < io.bumpNow then io.bumpNow % 2 ^ 32 else 0)
        else n.epoch }

def mqttRebootCountClear (n : BootNvs) (io : ClearIo) : BootNvs :=
  if !io.opens then n
  else if (if io.readCount then n.count else 0) ≠ 0 then
    { n with
      count := if io.removeCount then 0 else n.count
      epoch := if io.removeEpoch then 0 else n.epoch }
  else n

/-- `mqttWriteRbCfg`; `lands` is open and write together. -/
def mqttWriteRbCfg (n : BootNvs) (lands : Bool) (json : Str) : BootNvs :=
  if lands then { n with rbCfg := json } else n

def mqttClearRbCfg (n : BootNvs) (lands : Bool) : BootNvs :=
  if lands then { n with rbCfg := [] } else n

/-! ## The client -/

/-- The session a snapshot was committed by. -/
structure Committed where
  doc : MqttDoc
  broker : Broker

structure Client where
  nvs : BootNvs
  /-- `/config.json`. -/
  file : MqttDoc
  /-- The live document. -/
  live : MqttDoc
  broker : Broker
  retryCount : Nat
  rebootHalted : Bool
  /-- Between a restart and the boot nothing runs. -/
  up : Bool
  time : Nat
  countedAt : Nat
  committed : Option Committed

structure RollbackIo where
  opens : Bool
  readSet : Bool
  readLg : Bool
  readRbCfg : Bool
  /-- `Config::save`. -/
  saved : Bool
  clear : ClearIo
  clearRbCfg : Bool

structure CommitIo where
  clear : ClearIo
  clearRbCfg : Bool
  opens : Bool
  readLg : Bool
  putLg : Bool
  putSet : Bool

/-- A connect that failed: how far it got, the heap, and the NVS calls of both branches. -/
structure Failure where
  resolved : Bool
  rc : Int
  maxAllocHeap : Nat
  defrag : CountIo
  exhaust : CountIo
  writeRbCfg : Bool

namespace Client

variable (codec : CriticalCodec)

/-! ### Rollback at boot -/

/-- What `rollbackIfUncommitted` reads of the snapshot. -/
def lgRead (c : Client) (io : RollbackIo) : Str :=
  if io.readSet && c.nvs.lgSet then getString io.readLg c.nvs.lg else []

/-- The snapshot `rollbackIfUncommitted` goes back to, if it does. -/
def rollbackTarget (c : Client) (io : RollbackIo) : Option Critical :=
  if !io.opens then none
  else
    match mqttCriticalJson codec c.live with
    | none => none
    | some cur =>
        if mqttRollbackShould (c.lgRead io) (io.readSet && c.nvs.lgSet)
            (getString io.readRbCfg c.nvs.rbCfg) cur then
          codec.parse (c.lgRead io)
        else none

def rollbackIfUncommitted (c : Client) (io : RollbackIo) : Client :=
  match c.rollbackTarget codec io with
  | none => c
  | some lg =>
      let c := { c with live := restore lg c.live }
      if io.saved then
        { c with
          file := c.live
          nvs := mqttClearRbCfg (mqttRebootCountClear c.nvs io.clear) io.clearRbCfg }
      else c

/-- `Config::load`, with the RAM of a fresh boot. -/
def load (c : Client) (mounted : Bool) : Client :=
  { c with
    live := if mounted then c.file else none
    broker := noBroker
    retryCount := 0
    rebootHalted := false
    up := true }

/-- `begin` takes the dial target from the document. -/
def begin (c : Client) : Client := { c with broker := c.broker.begin c.live }

def boot (c : Client) (mounted : Bool) (io : RollbackIo) : Client :=
  ((c.load mounted).rollbackIfUncommitted codec io).begin

/-! ### A connect that fails -/

def countFailure (c : Client) : Client := { c with retryCount := (c.retryCount + 1) % 256 }

/-- The low-heap branch restarts. -/
def defragReboots (c : Client) (f : Failure) : Bool :=
  mqttDefragRebootDue c.retryCount f.resolved f.rc f.maxAllocHeap c.rebootHalted &&
    mqttRebootCount c.nvs f.defrag < c.live.maxReboots

/-- Enough failures for the exhaustion branch, and not halted. -/
def exhausted (c : Client) : Bool := c.live.rebootAfter ≤ c.retryCount && !c.rebootHalted

def exhaustReboots (c : Client) (f : Failure) : Bool :=
  c.exhausted && mqttRebootCount c.nvs f.exhaust < c.live.maxReboots

/-- The bump and the restart. -/
def budgetReboot (c : Client) (io : CountIo) : Client :=
  { c with
    nvs := mqttRebootCountBump c.nvs io (mqttRebootCount c.nvs io + 1)
    countedAt := if io.bumpOpens ∧ io.putCount then c.time else c.countedAt
    up := false }

def recordFailing (c : Client) (lands : Bool) : Client :=
  match mqttCriticalJson codec c.live with
  | some failing => { c with nvs := mqttWriteRbCfg c.nvs lands failing }
  | none => c

/-- What a failed connect does after counting itself. -/
def giveUp (c : Client) (f : Failure) : Client :=
  if c.defragReboots f then c.budgetReboot f.defrag
  else if c.exhausted then
    if c.exhaustReboots f then (c.recordFailing codec f.writeRbCfg).budgetReboot f.exhaust
    else { c with rebootHalted := true }
  else c

def connectFailed (c : Client) (f : Failure) : Client := c.countFailure.giveUp codec f

/-! ### A connect that succeeds -/

def snapshotProven (c : Client) : Bool :=
  mqttSnapshotProven c.live.broker (toUnsigned (c.live.portOr 8883)) c.broker.host c.broker.port

/-- `snapshotGoodConfig`. Settings that are last-good already are not written again. -/
def snapshotGoodConfig (c : Client) (io : CommitIo) : Client :=
  if !c.snapshotProven then c
  else
    match mqttCriticalJson codec c.live with
    | none => c
    | some cur =>
        if !io.opens then c
        else if cur = getString io.readLg c.nvs.lg then
          { c with committed := some { doc := c.live, broker := c.broker } }
        else
          { c with
            nvs := { c.nvs with
              lg := if io.putLg then cur else c.nvs.lg
              lgSet := io.putSet || c.nvs.lgSet }
            committed :=
              if io.putLg then some { doc := c.live, broker := c.broker } else c.committed }

def connected (c : Client) (io : CommitIo) : Client :=
  { c with
    retryCount := 0
    rebootHalted := false
    nvs := mqttClearRbCfg (mqttRebootCountClear c.nvs io.clear) io.clearRbCfg
    }.snapshotGoodConfig codec io

end Client

inductive ClientEvent where
  | wait (seconds : Nat)
  | boot (mounted : Bool) (io : RollbackIo)
  | connectFailed (f : Failure)
  | connected (io : CommitIo)
  /-- The deferred reconnect takes host and port from the live document again. -/
  | reinit
  /-- Any writer of the configuration. -/
  | edit (live file : MqttDoc)

/-- One event. While the unit restarts only time passes until it boots. -/
def clientStep (codec : CriticalCodec) (c : Client) : ClientEvent → Client
  | .wait seconds => { c with time := c.time + seconds }
  | .boot mounted io => c.boot codec mounted io
  | .connectFailed f => if c.up then c.connectFailed codec f else c
  | .connected io => if c.up then c.connected codec io else c
  | .reinit => if c.up then { c with broker := c.broker.refresh c.live } else c
  | .edit live file => if c.up then { c with live, file } else c

/-! ## What one step leaves alone -/

namespace Client

variable {codec : CriticalCodec}

/-- A rollback that saves is the only one that touches the count. -/
theorem rollbackIfUncommitted_of_none {c : Client} {io : RollbackIo}
    (h : c.rollbackTarget codec io = none) : c.rollbackIfUncommitted codec io = c := by
  simp only [rollbackIfUncommitted, h]

theorem rollbackIfUncommitted_unsaved {c : Client} {io : RollbackIo} (h : io.saved = false) :
    (c.rollbackIfUncommitted codec io).nvs = c.nvs ∧
      (c.rollbackIfUncommitted codec io).file = c.file := by
  simp only [rollbackIfUncommitted]
  cases c.rollbackTarget codec io with
  | none => exact ⟨rfl, rfl⟩
  | some lg => simp [h]

theorem rollbackIfUncommitted_saved {c : Client} {io : RollbackIo} {lg : Critical}
    (target : c.rollbackTarget codec io = some lg) (h : io.saved = true) :
    c.rollbackIfUncommitted codec io =
      { c with
        live := restore lg c.live
        file := restore lg c.live
        nvs := mqttClearRbCfg (mqttRebootCountClear c.nvs io.clear) io.clearRbCfg } := by
  simp [rollbackIfUncommitted, target, h]

/-- What made a rollback go back to a snapshot. -/
theorem rollbackTarget_eq_some {c : Client} {io : RollbackIo} {lg : Critical}
    (h : c.rollbackTarget codec io = some lg) :
    ∃ cur, mqttCriticalJson codec c.live = some cur ∧ c.nvs.lgSet = true ∧
      codec.parse c.nvs.lg = some lg ∧ cur = c.nvs.rbCfg ∧ cur ≠ c.nvs.lg := by
  simp only [rollbackTarget] at h
  split_ifs at h with opens
  cases json : mqttCriticalJson codec c.live with
  | none => simp [json] at h
  | some cur =>
      simp only [json] at h
      split_ifs at h with should
      obtain ⟨have', lgNe, rbNe, same, differs⟩ := mqttRollbackShould_iff.mp should
      have lgEq : c.lgRead io = c.nvs.lg := by
        simp only [lgRead, have', if_true, getString] at lgNe ⊢
        split_ifs at lgNe ⊢ with fits
        · rfl
        · exact absurd rfl lgNe
      have rbEq : getString io.readRbCfg c.nvs.rbCfg = c.nvs.rbCfg := by
        simp only [getString] at rbNe ⊢
        split_ifs at rbNe ⊢ with fits
        · rfl
        · exact absurd rfl rbNe
      have isSet : c.nvs.lgSet = true := (Bool.and_eq_true _ _ ▸ have').2
      exact ⟨cur, rfl, isSet, lgEq ▸ h, rbEq ▸ same, lgEq ▸ differs⟩

end Client

end Thesada.Mqtt
