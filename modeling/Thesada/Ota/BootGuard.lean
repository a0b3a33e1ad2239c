import Thesada.Library.Machine
import Thesada.Ota.HealthPolicy
import Thesada.Library.CString

/-!
# The boot guard across resets

The guard of `OTAUpdate.cpp` runs once in the Arduino core (`verifyRollbackLater`), twice in
`setup` (`recordBootStreak`, `rollbackIfCrashLoop`) and on every turn of `loop`
(`confirmIfHealthy`). It keeps its records in the NVS namespace `boot`, one marker word in
RTC memory and the image states in otadata.

A boot may end at any point. Each boot is given the number of flash writes it lives to make,
and a write after the last one does not happen. What a call meets (which NVS calls answer,
whether the IDF takes a mark) is part of its event. Log lines, the fled record and the
counts `recordBootStreak` hands to the boot log are left out.
-/

namespace Thesada.Ota

open CString

/-! ## State -/

inductive Slot where
  | app0
  | app1
  deriving DecidableEq, Repr

/-- `esp_ota_get_next_update_partition(NULL)` with two slots. -/
def Slot.other : Slot → Slot
  | .app0 => .app1
  | .app1 => .app0

/-- Partition offsets. -/
def Slot.address : Slot → UInt32
  | .app0 => 0x10000
  | .app1 => 0x350000

structure AppDesc where
  version : Str
  date : Str
  time : Str
  elfSha : ElfSha
  deriving DecidableEq

/-- What a slot holds: its descriptor when it reads, and `esp_image_verify`. -/
structure Image where
  desc : Option AppDesc
  verifies : Bool
  deriving DecidableEq

structure OtaData where
  /-- The slot the bootloader boots next. -/
  bootSlot : Slot
  /-- None is a state that does not read. -/
  state : Slot → Option ImgState
  image : Slot → Image

def OtaData.setState (o : OtaData) (slot : Slot) (state : ImgState) : OtaData :=
  { o with state := fun s => if s = slot then some state else o.state s }

/-- The NVS namespace `boot`. -/
structure BootNvs where
  crashN : Option Nat
  brownoutN : Option Nat
  rescue : Option UInt8
  leftId : Option (List UInt8)
  provenId : Option (List UInt8)
  deriving DecidableEq

/-- Statics of `OTAUpdate.cpp`, zero after every reset. -/
structure BootRam where
  bootRescue : UInt8
  bootPending : Bool
  mqttUp : Bool
  pending : Bool
  stateKnown : Bool
  runState : ImgState
  imageSettled : Bool
  crashStreak : Nat
  streakKnown : Bool
  settleFailMs : Nat
  provenDone : Bool
  deriving DecidableEq

def BootRam.zero : BootRam where
  bootRescue := 0
  bootPending := false
  mqttUp := false
  pending := false
  stateKnown := false
  runState := .new
  imageSettled := false
  crashStreak := 0
  streakKnown := false
  settleFailMs := 0
  provenDone := false

/-- How far a boot has come. `down` waits for the next reset. -/
inductive Phase where
  | core
  | setup
  | rollback
  | loop
  | down
  deriving DecidableEq, Repr

structure Device where
  running : Slot
  /-- `esp_reset_reason` of this boot. -/
  reason : Nat
  /-- The RTC word `_otaPlannedRestart`. -/
  marker : UInt32
  nvs : BootNvs
  ota : OtaData
  ram : BootRam
  phase : Phase
  /-- Flash writes this boot still lives to make. -/
  power : Nat

namespace Device

/-- A landed NVS write. -/
def store (d : Device) (write : BootNvs → BootNvs) : Device :=
  match d.power with
  | 0 => d
  | left + 1 => { d with nvs := write d.nvs, power := left }

/-- A landed otadata write. -/
def mark (d : Device) (write : OtaData → OtaData) : Device :=
  match d.power with
  | 0 => d
  | left + 1 => { d with ota := write d.ota, power := left }

def setRam (d : Device) (write : BootRam → BootRam) : Device := { d with ram := write d.ram }

section Frame

variable (d : Device) (write : BootNvs → BootNvs) (put : OtaData → OtaData)
  (set : BootRam → BootRam)

@[simp] theorem store_running : (d.store write).running = d.running := by
  simp only [store]; split <;> rfl

@[simp] theorem store_reason : (d.store write).reason = d.reason := by
  simp only [store]; split <;> rfl

@[simp] theorem store_marker : (d.store write).marker = d.marker := by
  simp only [store]; split <;> rfl

@[simp] theorem store_ota : (d.store write).ota = d.ota := by
  simp only [store]; split <;> rfl

@[simp] theorem store_ram : (d.store write).ram = d.ram := by
  simp only [store]; split <;> rfl

@[simp] theorem store_phase : (d.store write).phase = d.phase := by
  simp only [store]; split <;> rfl

@[simp] theorem mark_running : (d.mark put).running = d.running := by
  simp only [mark]; split <;> rfl

@[simp] theorem mark_marker : (d.mark put).marker = d.marker := by
  simp only [mark]; split <;> rfl

@[simp] theorem mark_nvs : (d.mark put).nvs = d.nvs := by
  simp only [mark]; split <;> rfl

@[simp] theorem mark_ram : (d.mark put).ram = d.ram := by
  simp only [mark]; split <;> rfl

@[simp] theorem mark_phase : (d.mark put).phase = d.phase := by
  simp only [mark]; split <;> rfl

@[simp] theorem setRam_running : (d.setRam set).running = d.running := rfl
@[simp] theorem setRam_reason : (d.setRam set).reason = d.reason := rfl
@[simp] theorem setRam_marker : (d.setRam set).marker = d.marker := rfl
@[simp] theorem setRam_nvs : (d.setRam set).nvs = d.nvs := rfl
@[simp] theorem setRam_ota : (d.setRam set).ota = d.ota := rfl
@[simp] theorem setRam_ram : (d.setRam set).ram = set d.ram := rfl
@[simp] theorem setRam_phase : (d.setRam set).phase = d.phase := rfl
@[simp] theorem setRam_power : (d.setRam set).power = d.power := rfl

end Frame

/-- What the boot outlived has landed. -/
theorem store_landed {d : Device} {write : BootNvs → BootNvs} (alive : 0 < (d.store write).power) :
    (d.store write).nvs = write d.nvs ∧ 0 < d.power := by
  cases power : d.power with
  | zero => simp [store, power] at alive
  | succ left => simp [store, power]

theorem store_power_le (d : Device) (write : BootNvs → BootNvs) :
    (d.store write).power ≤ d.power := by
  cases power : d.power <;> simp [store, power]

theorem mark_power_le (d : Device) (put : OtaData → OtaData) :
    (d.mark put).power ≤ d.power := by
  cases power : d.power <;> simp [mark, power]

theorem mark_cases (d : Device) (put : OtaData → OtaData) :
    (d.mark put).ota = d.ota ∨ (0 < d.power ∧ (d.mark put).ota = put d.ota) := by
  cases power : d.power with
  | zero => exact .inl (by simp [mark, power])
  | succ left => exact .inr ⟨Nat.succ_pos left, by simp [mark, power]⟩

theorem store_cases (d : Device) (write : BootNvs → BootNvs) :
    (d.store write).nvs = d.nvs ∨ (d.store write).nvs = write d.nvs := by
  cases power : d.power with
  | zero => exact .inl (by simp [store, power])
  | succ left => exact .inr (by simp [store, power])

end Device

/-! ## What a call meets -/

/-- The NVS calls of `verifyRollbackLater`, and the mark of the core after it. -/
structure LaterIo where
  initOk : Bool
  openOk : Bool
  readOk : Bool
  setOk : Bool
  commitOk : Bool
  markOk : Bool

structure RecordIo where
  begins : Bool
  leftRead : Bool
  leftRemove : Bool
  leftPut : Bool
  brownoutRead : Bool
  brownoutPut : Bool
  provenRead : Bool
  crashRead : Bool
  crashPut : Bool

/-- One `Preferences` session with one write. -/
structure PutIo where
  begins : Bool
  put : Bool

structure RollbackIo where
  targetBegins : Bool
  targetRead : Bool
  clear : PutIo
  armBegins : Bool
  armCrash : Bool
  armRescue : Bool
  disarm : PutIo
  /-- The IDF takes the mark, the rollback or the boot slot. -/
  idfOk : Bool

structure ConfirmIo where
  /-- `esp_timer_get_time` in ms; `millis` is its low word. -/
  upMs : Nat
  proven : PutIo
  clear : PutIo
  markOk : Bool

/-! ## The core -/

def runningImageIs (d : Device) (want : ImgState) : Bool := d.ota.state d.running = some want

def runningImageConfirmed (d : Device) : Bool :=
  match d.ota.state d.running with
  | none => false
  | some state => otaHealthStateConfirmed state

/-- `esp_ota_mark_app_valid_cancel_rollback` marks the active entry. -/
def markAppValid (o : OtaData) : OtaData := o.setState o.bootSlot .valid

/-- False confirms in the core, true leaves the health gate. Unreadable NVS defers. -/
def verifyRollbackLater (io : LaterIo) (d : Device) : Bool × Device :=
  if !io.initOk || !io.openOk then (true, d)
  else
    let stored := if io.readOk then d.nvs.rescue.getD 0 else 0
    let rescue := otaHealthRescue stored d.marker
    let d := d.setRam fun ram =>
      { ram with bootRescue := rescue, bootPending := runningImageIs d .pendingVerify }
    if stored ≠ 0 && io.setOk then
      let d := d.store ({ · with rescue := some 0 })
      if io.commitOk then (rescue = 0, d) else (true, d)
    else (true, d)

/-- The core confirms a pending image unless the guard defers. -/
def initArduino (io : LaterIo) (d : Device) : Device :=
  let later := verifyRollbackLater io d
  if !later.1 && runningImageIs later.2 .pendingVerify && io.markOk then
    { later.2.mark markAppValid with phase := .setup }
  else { later.2 with phase := .setup }

/-! ## The streak of a boot -/

/-- `getBytes` into a buffer of 36 bytes takes no longer record. -/
def readRecord (ok : Bool) (stored : Option (List UInt8)) : List UInt8 :=
  match stored with
  | none => []
  | some bytes => if ok && bytes.length ≤ OTA_IMAGE_ID_LEN then bytes else []

def imageId (o : OtaData) (slot : Slot) : Option (List UInt8) :=
  match (o.image slot).desc with
  | none => none
  | some desc => otaHealthImageId slot.address desc.elfSha

def runningImageId (d : Device) : Option (List UInt8) := imageId d.ota d.running

def sameDescStrings (a b : AppDesc) : Bool :=
  a.version = b.version && a.date = b.date && a.time = b.time

/-- The strings of the two slots match; an unreadable own descriptor matches nothing. -/
def sameAsOther (d : Device) : Bool :=
  match (d.ota.image d.running.other).desc, (d.ota.image d.running).desc with
  | some other, some self => sameDescStrings other self
  | _, _ => false

/-- A record that names the running slot is dropped. -/
def dropStaleLeft (io : RecordIo) (d : Device) : Device :=
  if otaHealthLeftIsStale (readRecord io.leftRead d.nvs.leftId) d.running.address &&
      io.leftRemove then
    d.store ({ · with leftId := none })
  else d

/-- On a switch arrival the slot it came from is recorded. -/
def recordArrival (io : RecordIo) (d : Device) : Device :=
  if !otaHealthIsArrival d.ram.bootRescue d.ram.bootPending then d
  else
    match imageId d.ota d.running.other with
    | none => d
    | some id =>
        if !otaHealthRecordArrival d.ram.bootRescue (sameAsOther d) || !io.leftPut then d
        else d.store ({ · with leftId := some id })

def updateLeftRecord (io : RecordIo) (d : Device) : Device :=
  recordArrival io (dropStaleLeft io d)

section LeftFrame

variable (io : RecordIo) (d : Device)

@[simp] theorem updateLeftRecord_running : (updateLeftRecord io d).running = d.running := by
  simp only [updateLeftRecord, recordArrival, dropStaleLeft]
  repeat' split
  all_goals simp

@[simp] theorem updateLeftRecord_reason : (updateLeftRecord io d).reason = d.reason := by
  simp only [updateLeftRecord, recordArrival, dropStaleLeft]
  repeat' split
  all_goals simp

@[simp] theorem updateLeftRecord_marker : (updateLeftRecord io d).marker = d.marker := by
  simp only [updateLeftRecord, recordArrival, dropStaleLeft]
  repeat' split
  all_goals simp

@[simp] theorem updateLeftRecord_ota : (updateLeftRecord io d).ota = d.ota := by
  simp only [updateLeftRecord, recordArrival, dropStaleLeft]
  repeat' split
  all_goals simp

@[simp] theorem updateLeftRecord_ram : (updateLeftRecord io d).ram = d.ram := by
  simp only [updateLeftRecord, recordArrival, dropStaleLeft]
  repeat' split
  all_goals simp

@[simp] theorem updateLeftRecord_phase : (updateLeftRecord io d).phase = d.phase := by
  simp only [updateLeftRecord, recordArrival, dropStaleLeft]
  repeat' split
  all_goals simp

end LeftFrame

/-- A streak that was not read or not stored must not look like zero. -/
def streakUnread (d : Device) : Device :=
  d.setRam ({ · with streakKnown := false, crashStreak := OTA_HEALTH_CRASH_LIMIT })

/-- The running image's proven record is stored. -/
def imageProven (io : RecordIo) (d : Device) : Bool :=
  match runningImageId d with
  | none => false
  | some id => otaHealthImageProven (readRecord io.provenRead d.nvs.provenId) id

/-- The class `recordBootStreak` gives this boot's reset. -/
def bootClass (io : RecordIo) (d : Device) : OtaResetClass :=
  let planned := (otaHealthTakePlanned d.marker).1
  otaHealthBootClass d.reason planned
    (planned ≠ .none && runningImageConfirmed d) (imageProven io d)
    (planned ≠ .none && runningImageIs d .pendingVerify)

/-- A brownout is counted for the boot log. -/
def countBrownout (io : RecordIo) (d : Device) : Device :=
  let brownouts := if io.brownoutRead then d.nvs.brownoutN.getD 0 else 0
  if d.reason = OTA_RST_BROWNOUT then
    d.store ({ · with brownoutN := some (Word32.add brownouts 1) })
  else d

/-- The streak after this boot. -/
def nextStreak (io : RecordIo) (kind : OtaResetClass) (d : Device) : Nat :=
  otaHealthNextCrashStreak (if io.crashRead then d.nvs.crashN.getD 0 else 0) kind

/-- A failed write must not look stored. -/
def storeStreak (io : RecordIo) (kind : OtaResetClass) (d : Device) : Device :=
  let crashes := nextStreak io kind d
  if !io.crashPut then streakUnread d
  else
    (d.store ({ · with crashN := some crashes })).setRam
      ({ · with streakKnown := true, crashStreak := crashes })

/-- Count this boot. One NVS session updates the left record, `brownout_n` and `crash_n`. -/
def recordBootStreak (io : RecordIo) (d : Device) : Device :=
  let kind := bootClass io d
  let proven := imageProven io d
  let d := { d with marker := (otaHealthTakePlanned d.marker).2, phase := .rollback }
  if !io.begins then streakUnread d
  else
    let d := updateLeftRecord io d
    if d.reason = OTA_RST_BROWNOUT && !io.brownoutPut then streakUnread d
    else storeStreak io kind ((countBrownout io d).setRam ({ · with provenDone := proven }))

/-! ## Leaving a crash-looping image -/

def zeroStreak (n : BootNvs) : BootNvs := { n with crashN := some 0 }

/-- True when `crash_n` was stored as zero. -/
def clearCrashStreak (io : PutIo) (d : Device) : Bool × Device :=
  if io.begins && io.put then (true, d.store zeroStreak) else (false, d)

theorem clearCrashStreak_cases (io : PutIo) (d : Device) :
    clearCrashStreak io d = (true, d.store zeroStreak) ∨ clearCrashStreak io d = (false, d) := by
  simp only [clearCrashStreak]
  split
  · exact .inl rfl
  · exact .inr rfl

/-- An unreadable description or NVS must not look like a free slot. -/
def imageAbandoned (io : RollbackIo) (d : Device) (slot : Slot) : Bool :=
  match (d.ota.image slot).desc with
  | none => true
  | some desc =>
      !io.targetBegins ||
        otaHealthIsAbandoned (readRecord io.targetRead d.nvs.leftId) slot.address desc.elfSha

/-- A different valid image that verifies and is not recorded as left. -/
def rollbackTarget (io : RollbackIo) (d : Device) : Option Slot :=
  let other := d.running.other
  if d.ota.state other ≠ some .valid || imageAbandoned io d other ||
      !(d.ota.image other).verifies then none
  else some other

/-- Zero the streak the switch reset adds to, then arm an immediate confirm of the slot
about to boot. -/
def armRescue (io : RollbackIo) (d : Device) : Bool × Device :=
  if !io.armBegins || !io.armCrash then (false, d)
  else
    let d := (d.store zeroStreak).setRam ({ · with crashStreak := 0 })
    if !io.armRescue then (false, d)
    else (true, d.store ({ · with rescue := some OTA_RESCUE_ID }))

def disarmRescue (io : PutIo) (d : Device) : Device :=
  if io.begins && io.put then d.store ({ · with rescue := some 0 }) else d

/-- `esp_ota_set_boot_partition`: the slot boots next, and boots pending. -/
def setBootPartition (slot : Slot) (o : OtaData) : OtaData :=
  { o.setState slot .new with bootSlot := slot }

/-- `esp_ota_mark_app_invalid_rollback_and_reboot`: the other slot boots next. -/
def markAppInvalid (o : OtaData) : OtaData :=
  { o.setState o.bootSlot .invalid with bootSlot := o.bootSlot.other }

/-- The pending half of `rollbackIfCrashLoop`. With no target the image is confirmed even if
the clear fails, since leaving it pending boots the slot just refused. -/
def rollbackPending (io : RollbackIo) (d : Device) : Device :=
  match rollbackTarget io d with
  | none =>
      let cleared := clearCrashStreak io.clear d
      let d := if cleared.1 then cleared.2.setRam ({ · with crashStreak := 0 }) else cleared.2
      if io.idfOk then d.mark markAppValid else d
  | some _ =>
      let cleared := clearCrashStreak io.clear d
      if cleared.1 && io.idfOk then
        { cleared.2.mark markAppInvalid with phase := .down }
      else cleared.2

/-- The valid half: arm the rescue, set the boot slot, restart. -/
def switchSlot (io : RollbackIo) (d : Device) : Device :=
  match rollbackTarget io d with
  | none => d
  | some other =>
      if (runningImageId d).isNone then d
      else
        let armed := armRescue io d
        if !armed.1 then armed.2
        else if !io.idfOk then disarmRescue io.disarm armed.2
        else { armed.2.mark (setBootPartition other) with phase := .down }

def rollbackIfCrashLoop (io : RollbackIo) (d : Device) : Device :=
  let d := { d with phase := .loop }
  if !d.ram.streakKnown || !otaHealthShouldRollback d.ram.crashStreak then d
  else if d.ota.state d.running = some .pendingVerify then rollbackPending io d
  else if d.ota.state d.running = some .valid then switchSlot io d
  else d

/-! ## The loop -/

/-- Store this image's id on its first broker session, one try a boot. -/
def markProvenOnBroker (io : PutIo) (d : Device) : Device :=
  if d.ram.provenDone || !d.ram.mqttUp then d
  else
    let d := d.setRam ({ · with provenDone := true })
    match runningImageId d with
    | none => d
    | some id =>
        if io.begins && io.put then d.store ({ · with provenId := some id }) else d

/-- The otadata state, read until it reads once. -/
def readRunState (d : Device) : Device :=
  if d.ram.stateKnown then d
  else
    match d.ota.state d.running with
    | none => d
    | some state =>
        d.setRam ({ · with stateKnown := true, pending := state = .pendingVerify,
                           runState := state })

/-- The IDF marks the active entry, so this waits while the boot slot is not the running
one. -/
def markUsbImageValid (io : ConfirmIo) (d : Device) : Bool × Device :=
  if d.ota.bootSlot = d.running && io.markOk then (true, d.mark markAppValid) else (false, d)

theorem markUsbImageValid_cases (io : ConfirmIo) (d : Device) :
    (d.ota.bootSlot = d.running ∧ markUsbImageValid io d = (true, d.mark markAppValid)) ∨
      markUsbImageValid io d = (false, d) := by
  simp only [markUsbImageValid]
  split
  · rename_i active
    simp only [Bool.and_eq_true, decide_eq_true_eq] at active
    exact .inl ⟨active.1, rfl⟩
  · exact .inr rfl

/-- The USB mark of an image whose streak is settled. -/
def settleUsb (io : ConfirmIo) (d : Device) : Device :=
  if d.ram.runState ≠ .undefined then d.setRam ({ · with imageSettled := true })
  else if !otaHealthShouldMarkUsbValid d.ram.runState d.ram.streakKnown io.upMs
      d.ram.settleFailMs then d
  else
    let marked := markUsbImageValid io d
    if marked.1 then marked.2.setRam ({ · with imageSettled := true })
    else marked.2.setRam ({ · with settleFailMs := io.upMs })

/-- A valid image clears its streak after an hour up, and a USB-flashed one is then marked. -/
def settleConfirmed (io : ConfirmIo) (d : Device) : Device :=
  if !d.ram.streakKnown || (d.ram.crashStreak = 0 && d.ram.runState ≠ .undefined) then
    d.setRam ({ · with imageSettled := true })
  else if d.ram.crashStreak = 0 then settleUsb io d
  else if !otaHealthShouldClearValid false io.upMs d.ram.crashStreak d.ram.settleFailMs then d
  else
    let cleared := clearCrashStreak io.clear d
    if !cleared.1 then cleared.2.setRam ({ · with settleFailMs := io.upMs })
    else settleUsb io (cleared.2.setRam ({ · with crashStreak := 0 }))

/-- An unread streak leaves a pending image pending. -/
def confirmPending (io : ConfirmIo) (d : Device) : Device :=
  if !d.ram.streakKnown then d
  else if !otaHealthShouldMark true d.ram.mqttUp (io.upMs % Word32.size) d.ram.crashStreak then d
  else
    let cleared := clearCrashStreak io.clear d
    if !cleared.1 then cleared.2
    else if !io.markOk then cleared.2
    else (cleared.2.mark markAppValid).setRam ({ · with imageSettled := true })

def confirmIfHealthy (io : ConfirmIo) (d : Device) : Device :=
  let d := markProvenOnBroker io.proven d
  if d.ram.imageSettled then d
  else
    let d := readRunState d
    if !d.ram.stateKnown then d
    else if d.ram.pending then confirmPending io d
    else settleConfirmed io d

/-! ## The machine -/

inductive BootEvent where
  /-- The bootloader hands over. `rtc` is what RTC memory reads when it was lost. -/
  | reset (reason : Nat) (rtc : Option UInt32) (next : OtaData) (power : Nat)
  | initArduino (io : LaterIo)
  | recordBootStreak (io : RecordIo)
  | rollbackIfCrashLoop (io : RollbackIo)
  | confirmIfHealthy (io : ConfirmIo)
  | noteMqttUp
  | plannedRestart
  | brokerRestart
  /-- An update is written to the other slot and set to boot. -/
  | applyUpdate (image : Image)

/-- A written image is set to boot next. -/
def installUpdate (slot : Slot) (image : Image) (o : OtaData) : OtaData :=
  { setBootPartition slot o with image := fun s => if s = slot then image else o.image s }

def bootStep (d : Device) : BootEvent → Device
  | .reset reason rtc next power =>
      { d with
        running := next.bootSlot, reason, marker := rtc.getD d.marker, ota := next,
        ram := .zero, phase := .core, power }
  | .initArduino io => initArduino io d
  | .recordBootStreak io => recordBootStreak io d
  | .rollbackIfCrashLoop io => rollbackIfCrashLoop io d
  | .confirmIfHealthy io => confirmIfHealthy io d
  | .noteMqttUp => d.setRam ({ · with mqttUp := true })
  | .plannedRestart => { d with marker := OTA_PLANNED_RESTART_MAGIC, phase := .down }
  | .brokerRestart => { d with marker := OTA_PLANNED_BROKER_MAGIC, phase := .down }
  | .applyUpdate image =>
      d.mark (installUpdate d.running.other image)

/-- The order of a boot. A reset may come at any point, and nothing else once the power is
out. -/
def Boots (d : Device) : BootEvent → Prop
  | .reset _ _ _ _ => True
  | .initArduino _ => d.phase = .core ∧ 0 < d.power
  | .recordBootStreak _ => d.phase = .setup ∧ 0 < d.power
  | .rollbackIfCrashLoop _ => d.phase = .rollback ∧ 0 < d.power
  | _ => d.phase = .loop ∧ 0 < d.power

instance (d : Device) : (e : BootEvent) → Decidable (Boots d e)
  | .reset _ _ _ _ => isTrue trivial
  | .initArduino _ | .recordBootStreak _ | .rollbackIfCrashLoop _ | .confirmIfHealthy _
  | .noteMqttUp | .plannedRestart | .brokerRestart | .applyUpdate _ =>
      inferInstanceAs (Decidable (_ ∧ _))

/-! ## A device to run -/

/-- Calls of a device whose flash answers. -/
def LaterIo.lands : LaterIo := ⟨true, true, true, true, true, true⟩

def RecordIo.lands : RecordIo := ⟨true, true, true, true, true, true, true, true, true⟩

def PutIo.lands : PutIo := ⟨true, true⟩

def RollbackIo.lands : RollbackIo := ⟨true, true, .lands, true, true, true, .lands, true⟩

def ConfirmIo.lands (upMs : Nat) : ConfirmIo := ⟨upMs, .lands, .lands, true⟩

/-- A whole image with its own hash in each slot. -/
def sampleImage (slot : Slot) : Image where
  desc := some {
    version := "v4.4.7".toList
    date := "Mar  5 2024".toList
    time := "12:12:53".toList
    elfSha := Vector.replicate 32 (match slot with | .app0 => 1 | .app1 => 2) }
  verifies := true

def sampleOta (bootSlot : Slot) (app0 app1 : ImgState) : OtaData where
  bootSlot := bootSlot
  state := fun s => some (match s with | .app0 => app0 | .app1 => app1)
  image := sampleImage

/-- A device that waits for its reset. -/
def sampleOff (crashN : Nat) (rescue : UInt8) (ota : OtaData) : Device where
  running := ota.bootSlot
  reason := OTA_RST_UNKNOWN
  marker := 0
  nvs := {
    crashN := some crashN, brownoutN := none, rescue := some rescue
    leftId := none, provenId := none }
  ota := ota
  ram := .zero
  phase := .down
  power := 0

/-- The calls of a boot up to its count. -/
def countedBoot (reason : Nat) (ota : OtaData) (io : RecordIo) : List BootEvent :=
  [.reset reason none ota 8, .initArduino .lands, .recordBootStreak io]

end Thesada.Ota
