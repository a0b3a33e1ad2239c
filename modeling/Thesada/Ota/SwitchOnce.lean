import Thesada.Ota.ConfirmGate

/-!
# Two images of this guard switch slots once

The image a switch boots records the slot it came from, on the boot it arrives in. From then
on that slot is no rollback target, so the guard stays where it is. The record is written
after the core has confirmed the image, and a reset between the two leaves it unwritten for
good: the rescue flag is already cleared and the image no longer pending.

The bootloader is not part of the repository. It is modelled by what the guard relies on: a
slot set to boot boots pending, and a pending slot that is reset before its confirm is
aborted and left for the other.
-/

namespace Thesada.Ota

open Device

/-! ## The bootloader -/

def bootable : Option ImgState → Bool
  | some .invalid | some .aborted => false
  | _ => true

def abortPending (o : OtaData) : OtaData :=
  if o.state o.bootSlot = some .pendingVerify then o.setState o.bootSlot .aborted else o

/-- The slot the bootloader takes: the boot slot, or the other when that one is out. -/
def pickSlot (o : OtaData) : Slot :=
  if bootable (o.state o.bootSlot) then o.bootSlot
  else if bootable (o.state o.bootSlot.other) then o.bootSlot.other
  else o.bootSlot

def bootloader (o : OtaData) : OtaData :=
  let o := abortPending o
  let slot := pickSlot o
  if o.state slot = some .new then { o.setState slot .pendingVerify with bootSlot := slot }
  else { o with bootSlot := slot }

/-- The bootloader hands over what it leaves in otadata. -/
def Handover (o next : OtaData) : Prop :=
  next.bootSlot = (bootloader o).bootSlot ∧
    ∀ s, next.state s = (bootloader o).state s ∧ next.image s = (bootloader o).image s

theorem Handover.eq {o next : OtaData} (h : Handover o next) : next = bootloader o := by
  obtain ⟨boot, slots⟩ := h
  generalize bootloader o = handed at boot slots
  obtain ⟨nextBoot, nextState, nextImage⟩ := next
  obtain ⟨bootSlot, state, image⟩ := handed
  have state_eq : nextState = state := funext fun s => (slots s).1
  have image_eq : nextImage = image := funext fun s => (slots s).2
  rw [state_eq, image_eq, show nextBoot = bootSlot from boot]

/-! ## Admissible steps -/

/-- Every NVS call of the step answers. -/
def NvsLands : BootEvent → Prop
  | .initArduino io => io.initOk && io.openOk && io.readOk && io.setOk && io.commitOk
  | .recordBootStreak io =>
      io.begins && io.leftRead && io.leftRemove && io.leftPut && io.brownoutRead &&
        io.brownoutPut && io.provenRead && io.crashRead && io.crashPut
  | .rollbackIfCrashLoop io =>
      io.targetBegins && io.targetRead && io.clear.begins && io.clear.put && io.armBegins &&
        io.armCrash && io.armRescue && io.disarm.begins && io.disarm.put
  | .confirmIfHealthy io => io.proven.begins && io.proven.put && io.clear.begins && io.clear.put
  | _ => True

/-- The left record names the image in a slot. -/
def leftNames (d : Device) (slot : Slot) : Prop :=
  (imageId d.ota slot).isSome ∧ d.nvs.leftId = imageId d.ota slot

/-- A switch has arrived and is confirmed, and the slot it came from is not yet recorded. -/
def LeftUnrecorded (d : Device) : Prop :=
  d.ram.bootRescue = OTA_RESCUE_ID ∧ d.ram.bootPending = true ∧
    d.ota.state d.running = some .valid ∧ ¬ leftNames d d.running.other

/-- No new image, and a reset hands over to the bootloader. RTC memory that was lost does not
read as a planned restart. -/
def SwitchEnv (d : Device) : BootEvent → Prop
  | .reset _ rtc next _ =>
      Handover d.ota next ∧ (otaHealthTakePlanned (rtc.getD 0)).1 = .none
  | .applyUpdate _ => False
  | _ => True

/-- The guard boots the other slot. -/
def switchesSlot (d : Device) (e : BootEvent) : Bool :=
  !e.isReset && (bootStep d e).ota.bootSlot ≠ d.ota.bootSlot

/-- Both slots hold an image of this guard: its descriptor reads and its hash is not empty. -/
def BothHold (o : OtaData) : Prop := ∀ slot, (imageId o slot).isSome

/-- A step of the run the claim is about, taken outside the window in which an arrival is
confirmed but not yet recorded. -/
def Steady (d : Device) (e : BootEvent) : Prop :=
  Boots d e ∧ NvsLands e ∧ SwitchEnv d e ∧ (e.isReset = true → ¬ LeftUnrecorded d)

instance {p : Slot → Prop} [DecidablePred p] : Decidable (∀ s, p s) :=
  decidable_of_iff (p .app0 ∧ p .app1)
    ⟨fun h s => match s with | .app0 => h.1 | .app1 => h.2, fun h => ⟨h _, h _⟩⟩

instance (o next : OtaData) : Decidable (Handover o next) := inferInstanceAs (Decidable (_ ∧ _))

instance (o : OtaData) : Decidable (BothHold o) :=
  inferInstanceAs (Decidable (∀ slot, (imageId o slot).isSome = true))

instance : (e : BootEvent) → Decidable (NvsLands e)
  | .initArduino _ | .recordBootStreak _ | .rollbackIfCrashLoop _ | .confirmIfHealthy _ =>
      inferInstanceAs (Decidable (_ = true))
  | .reset _ _ _ _ | .noteMqttUp | .plannedRestart | .brokerRestart | .applyUpdate _ =>
      isTrue trivial

instance (d : Device) (slot : Slot) : Decidable (leftNames d slot) :=
  inferInstanceAs (Decidable (_ ∧ _))

instance (d : Device) : Decidable (LeftUnrecorded d) := inferInstanceAs (Decidable (_ ∧ _))

instance (d : Device) : (e : BootEvent) → Decidable (SwitchEnv d e)
  | .reset _ _ _ _ => inferInstanceAs (Decidable (_ ∧ _))
  | .applyUpdate _ => isFalse id
  | .initArduino _ | .recordBootStreak _ | .rollbackIfCrashLoop _ | .confirmIfHealthy _
  | .noteMqttUp | .plannedRestart | .brokerRestart => isTrue trivial

instance (d : Device) (e : BootEvent) : Decidable (Steady d e) :=
  inferInstanceAs (Decidable (_ ∧ _))

/-! ## What each call leaves in otadata -/

@[simp] theorem other_other (s : Slot) : s.other.other = s := by cases s <;> rfl

theorem other_ne (s : Slot) : s.other ≠ s := by cases s <;> decide

theorem address_other_ne (s : Slot) : s.other.address ≠ s.address := by cases s <;> decide

theorem mark_cases' {d : Device} (put : OtaData → OtaData) {o : OtaData} (kept : d.ota = o) :
    (d.mark put).ota = o ∨ (d.mark put).ota = put o := by
  obtain same | ⟨-, marked⟩ := mark_cases d put
  · exact .inl (same.trans kept)
  · exact .inr (by rw [marked, kept])

theorem initArduino_ota (io : LaterIo) (d : Device) :
    (initArduino io d).ota = d.ota ∨
      (runningImageIs d .pendingVerify = true ∧ (initArduino io d).ota = markAppValid d.ota) := by
  have ota := verifyRollbackLater_ota io d
  have running := (verifyRollbackLater_frame io d).running
  simp only [initArduino]
  split
  · rename_i confirm
    simp only [Bool.and_eq_true, runningImageIs, ota, running] at confirm
    exact (mark_cases' markAppValid ota).imp_right fun marked => ⟨confirm.1.2, marked⟩
  · exact .inl ota

theorem confirmPending_ota (io : ConfirmIo) (d : Device) :
    (confirmPending io d).ota = d.ota ∨ (confirmPending io d).ota = markAppValid d.ota := by
  have clear := clearCrashStreak_ota io.clear d
  simp only [confirmPending]
  split_ifs
  · exact .inl rfl
  · exact .inl rfl
  · exact .inl clear
  · exact .inl clear
  · exact mark_cases' markAppValid clear

theorem settleUsb_ota (io : ConfirmIo) (d : Device) :
    (settleUsb io d).ota = d.ota ∨ (settleUsb io d).ota = markAppValid d.ota := by
  have marked : (markUsbImageValid io d).2.ota = d.ota ∨
      (markUsbImageValid io d).2.ota = markAppValid d.ota := by
    obtain ⟨-, done⟩ | failed := markUsbImageValid_cases io d
    · rw [done]
      exact mark_cases' markAppValid rfl
    · rw [failed]
      exact .inl rfl
  simp only [settleUsb]
  split_ifs
  · exact .inl rfl
  · exact .inl rfl
  · exact marked
  · exact marked

theorem settleConfirmed_ota (io : ConfirmIo) (d : Device) :
    (settleConfirmed io d).ota = d.ota ∨ (settleConfirmed io d).ota = markAppValid d.ota := by
  have clear := clearCrashStreak_ota io.clear d
  simp only [settleConfirmed]
  split_ifs
  · exact .inl rfl
  · exact settleUsb_ota io d
  · exact .inl rfl
  · exact .inl clear
  · have settled := settleUsb_ota io
      ((clearCrashStreak io.clear d).2.setRam ({ · with crashStreak := 0 }))
    simpa only [setRam_ota, clear] using settled

theorem confirmIfHealthy_ota (io : ConfirmIo) (d : Device) :
    (confirmIfHealthy io d).ota = d.ota ∨ (confirmIfHealthy io d).ota = markAppValid d.ota := by
  have proven := (markProvenOnBroker_keeps io.proven d).1.ota
  have read := (readRunState_keeps (markProvenOnBroker io.proven d)).ota.trans proven
  simp only [confirmIfHealthy]
  split_ifs
  · exact .inl proven
  · exact .inl read
  · rw [← read]
    exact confirmPending_ota io _
  · rw [← read]
    exact settleConfirmed_ota io _

/-- A call of `rollbackIfCrashLoop` leaves otadata, confirms, or boots its target. -/
inductive RollbackOta (io : RollbackIo) (d d' : Device) : Prop where
  | kept (ota : d'.ota = d.ota)
  | confirmed (ota : d'.ota = markAppValid d.ota)
  | abandoned (other : Slot) (target : rollbackTarget io d = some other)
      (down : d'.phase = .down) (ota : d'.ota = markAppInvalid d.ota)
  | switched (other : Slot) (target : rollbackTarget io d = some other)
      (down : d'.phase = .down) (valid : d.ota.state d.running = some .valid)
      (armed : d'.nvs.rescue = some OTA_RESCUE_ID) (ota : d'.ota = setBootPartition other d.ota)

theorem rollbackPending_ota (io : RollbackIo) (d : Device) :
    RollbackOta io d (rollbackPending io d) := by
  have clear := clearCrashStreak_ota io.clear d
  cases target : rollbackTarget io d with
  | none =>
      have marked {d' : Device} (kept : d'.ota = d.ota) : RollbackOta io d (d'.mark markAppValid) :=
        (mark_cases' markAppValid kept).elim .kept .confirmed
      simp only [rollbackPending, target]
      split_ifs
      · exact marked clear
      · exact marked clear
      · exact .kept clear
      · exact .kept clear
  | some other =>
      simp only [rollbackPending, target]
      split
      · obtain same | marked := mark_cases' markAppInvalid clear
        · exact .kept same
        · exact .abandoned other target rfl marked
      · exact .kept clear

theorem switchSlot_ota (io : RollbackIo) {d : Device}
    (valid : d.ota.state d.running = some .valid) : RollbackOta io d (switchSlot io d) := by
  have ota := armRescue_ota io d
  cases target : rollbackTarget io d with
  | none =>
      simp only [switchSlot, target]
      exact .kept rfl
  | some other =>
      simp only [switchSlot, target]
      split_ifs with nameless unarmed failed
      · exact .kept rfl
      · exact .kept ota
      · exact .kept ((disarmRescue_ota io.disarm _).trans ota)
      · obtain same | ⟨alive, marked⟩ := mark_cases (armRescue io d).2 (setBootPartition other)
        · exact .kept (same.trans ota)
        · refine .switched other target rfl valid ?_ (by rw [← ota]; exact marked)
          -- the device lived to set the boot slot, so the flag it armed before has landed
          simp only [mark_nvs]
          simp only [armRescue] at unarmed alive ⊢
          split_ifs at unarmed alive ⊢
          · simp at unarmed
          · simp at unarmed
          · simp [(store_landed alive).1]

theorem rollbackIfCrashLoop_ota (io : RollbackIo) (d : Device) :
    RollbackOta io d (rollbackIfCrashLoop io d) := by
  simp only [rollbackIfCrashLoop]
  split_ifs with gate pending valid
  · exact .kept rfl
  · have h := rollbackPending_ota io { d with phase := .loop }
    cases h with
    | kept ota => exact .kept ota
    | confirmed ota => exact .confirmed ota
    | abandoned other target down ota => exact .abandoned other target down ota
    | switched other target down valid armed ota => exact .switched other target down valid armed ota
  · have h := switchSlot_ota io (d := { d with phase := .loop }) valid
    cases h with
    | kept ota => exact .kept ota
    | confirmed ota => exact .confirmed ota
    | abandoned other target down ota => exact .abandoned other target down ota
    | switched other target down valid armed ota => exact .switched other target down valid armed ota
  · exact .kept rfl

/-! ## The left record and the target -/

theorem readRecord_of_imageId {o : OtaData} {slot : Slot} {id : List UInt8}
    (h : imageId o slot = some id) : readRecord true (some id) = id := by
  simp only [imageId] at h
  split at h
  · cases h
  · simp [readRecord, imageId_length h]

/-- A slot the left record names is no target. -/
theorem target_ne_of_leftNames {io : RollbackIo} {d : Device} (lands : io.targetRead = true)
    (named : leftNames d d.running.other) : rollbackTarget io d = none := by
  obtain ⟨isSome, left⟩ := named
  obtain ⟨id, named⟩ := Option.isSome_iff_exists.mp isSome
  have abandoned : imageAbandoned io d d.running.other = true := by
    rw [named] at left
    have read := readRecord_of_imageId named
    simp only [imageId] at named
    simp only [imageAbandoned]
    split
    · rfl
    · rename_i desc reads
      rw [reads] at named
      rw [left, lands, read, isAbandoned_imageId named]
      simp
  simp [rollbackTarget, abandoned]

theorem target_eq {io : RollbackIo} {d : Device} {other : Slot}
    (h : rollbackTarget io d = some other) :
    other = d.running.other ∧ d.ota.state other = some .valid := by
  simp only [rollbackTarget] at h
  split at h
  · cases h
  · rename_i fit
    simp only [Bool.or_eq_true, not_or, decide_eq_true_eq, not_not] at fit
    cases h
    exact ⟨rfl, fit.1.1⟩

theorem imageId_congr {o o' : OtaData} (same : o'.image = o.image) (slot : Slot) :
    imageId o' slot = imageId o slot := by
  rw [imageId, imageId, same]

theorem bootloader_image (o : OtaData) : (bootloader o).image = o.image := by
  simp only [bootloader, abortPending]
  split_ifs <;> rfl

theorem dropStaleLeft_keeps (io : RecordIo) (d : Device) :
    (dropStaleLeft io d).ota = d.ota ∧ (dropStaleLeft io d).running = d.running ∧
      (dropStaleLeft io d).ram = d.ram ∧ (dropStaleLeft io d).power ≤ d.power := by
  simp only [dropStaleLeft]
  split
  · simp [store_power_le]
  · simp

/-- An arrival that lives past its record has recorded the slot it came from. -/
theorem updateLeftRecord_arrival (io : RecordIo) {d : Device} (lands : io.leftPut = true)
    (rescue : d.ram.bootRescue = OTA_RESCUE_ID) (pending : d.ram.bootPending = true)
    (held : (imageId d.ota d.running.other).isSome)
    (alive : 0 < (updateLeftRecord io d).power) :
    leftNames (updateLeftRecord io d) d.running.other := by
  obtain ⟨id, named⟩ := Option.isSome_iff_exists.mp held
  obtain ⟨ota, running, ram, -⟩ := dropStaleLeft_keeps io d
  refine ⟨by rw [updateLeftRecord_ota]; exact held, ?_⟩
  rw [updateLeftRecord_ota, named]
  have arrival : otaHealthIsArrival (dropStaleLeft io d).ram.bootRescue
      (dropStaleLeft io d).ram.bootPending = true := by
    rw [ram, rescue, pending]
    rfl
  have records (same : Bool) :
      otaHealthRecordArrival (dropStaleLeft io d).ram.bootRescue same = true := by
    rw [ram, rescue]
    rfl
  rw [← ota, ← running] at named
  simp only [updateLeftRecord, recordArrival, arrival, named, records, lands] at alive ⊢
  simp only [Bool.not_true, Bool.or_false, Bool.false_eq_true, if_false] at alive ⊢
  rw [(store_landed alive).1]

/-- A record of the other slot outlives every boot of this one. -/
theorem updateLeftRecord_named (io : RecordIo) {d : Device}
    (named : leftNames d d.running.other) : leftNames (updateLeftRecord io d) d.running.other := by
  obtain ⟨held, left⟩ := named
  obtain ⟨id, named⟩ := Option.isSome_iff_exists.mp held
  have fresh : otaHealthLeftIsStale (readRecord io.leftRead d.nvs.leftId) d.running.address =
      false := by
    cases io.leftRead with
    | false => rw [left, named]; rfl
    | true =>
        rw [left, named, readRecord_of_imageId named]
        simp only [imageId] at named
        split at named
        · cases named
        · rw [leftIsStale_imageId named]
          exact decide_eq_false (address_other_ne d.running)
  have kept : dropStaleLeft io d = d := by
    simp [dropStaleLeft, fresh]
  refine ⟨by rw [updateLeftRecord_ota]; exact held, ?_⟩
  rw [updateLeftRecord_ota, updateLeftRecord, kept, recordArrival, named]
  split
  · rw [left, named]
  · simp only
    split
    · rw [left, named]
    · obtain same | put := store_cases d ({ · with leftId := some id })
      · rw [same, left, named]
      · rw [put]

/-! ## What the bootloader makes of a switch -/

theorem bootloader_of_new {o : OtaData} (new : o.state o.bootSlot = some .new) :
    bootloader o = o.setState o.bootSlot .pendingVerify := by
  have kept : abortPending o = o := by simp [abortPending, new]
  simp [bootloader, kept, pickSlot, new, bootable, OtaData.setState]

theorem bootloader_of_valid {o : OtaData} (valid : o.state o.bootSlot = some .valid) :
    bootloader o = o := by
  have kept : abortPending o = o := by simp [abortPending, valid]
  simp [bootloader, kept, pickSlot, valid, bootable]

/-- A slot that is reset before its confirm is out, and the other one boots. -/
theorem bootloader_of_pending {o : OtaData} (pending : o.state o.bootSlot = some .pendingVerify)
    (other : o.state o.bootSlot.other = some .valid) :
    bootloader o = { o.setState o.bootSlot .aborted with bootSlot := o.bootSlot.other } := by
  have aborted : abortPending o = o.setState o.bootSlot .aborted := by simp [abortPending, pending]
  simp [bootloader, aborted, pickSlot, OtaData.setState, other, bootable, other_ne]

/-! ## After a switch -/

/-- Where a device stands once the guard has left `y.other` for `y`. -/
inductive Switched (y : Slot) (d : Device) : Prop where
  /-- The boot slot is set and the reset has not come. -/
  | inFlight (down : d.phase = .down) (boot : d.ota.bootSlot = y)
      (state : d.ota.state y = some .new) (other : d.ota.state y.other = some .valid)
      (flag : d.nvs.rescue = some OTA_RESCUE_ID)
      (plain : (otaHealthTakePlanned d.marker).1 = .none)
  | arrived (phase : d.phase = .core) (running : d.running = y) (boot : d.ota.bootSlot = y)
      (state : d.ota.state y = some .pendingVerify) (other : d.ota.state y.other = some .valid)
      (flag : d.nvs.rescue = some OTA_RESCUE_ID)
      (plain : (otaHealthTakePlanned d.marker).1 = .none)
  /-- The core has seen the flag; the record is not known to be written. -/
  | arriving (early : d.phase = .setup ∨ d.power = 0) (running : d.running = y)
      (boot : d.ota.bootSlot = y)
      (state : d.ota.state y = some .pendingVerify ∨ d.ota.state y = some .valid)
      (other : d.ota.state y.other = some .valid)
      (rescue : d.ram.bootRescue = OTA_RESCUE_ID) (pending : d.ram.bootPending = true)
  | recorded (running : d.running = y) (boot : d.ota.bootSlot = y)
      (state : d.ota.state y = some .pendingVerify ∨ d.ota.state y = some .valid)
      (other : d.ota.state y.other = some .valid) (named : leftNames d y.other)
  /-- The slot switched to is out for good. -/
  | deadEnd (state : bootable (d.ota.state y) = false) (other : d.ota.state y.other = some .valid)
      (boot : d.ota.bootSlot = y.other) (running : d.running = y.other ∨ d.phase = .down)

theorem markAppValid_state (o : OtaData) (s : Slot) :
    (markAppValid o).state s = if s = o.bootSlot then some .valid else o.state s := rfl

theorem leftNames_congr {d d' : Device} {slot : Slot} (image : d'.ota.image = d.ota.image)
    (left : d'.nvs.leftId = d.nvs.leftId) (named : leftNames d slot) : leftNames d' slot := by
  rw [leftNames, imageId_congr image, left]
  exact named

/-- A pending slot that is reset is out for good. -/
theorem Switched.reset_lost {y : Slot} {d : Device} {reason : Nat} {rtc : Option UInt32}
    {power : Nat} (boot : d.ota.bootSlot = y) (pending : d.ota.state y = some .pendingVerify)
    (other : d.ota.state y.other = some .valid) :
    Switched y (bootStep d (.reset reason rtc (bootloader d.ota) power)) := by
  subst boot
  have aborted := bootloader_of_pending pending other
  refine .deadEnd ?_ ?_ ?_ (.inl ?_)
  · simp [bootStep, aborted, OtaData.setState, bootable]
  · simp [bootStep, aborted, OtaData.setState, other_ne, other]
  · simp [bootStep, aborted]
  · simp [bootStep, aborted]

/-- A confirmed slot is booted again, with the verdict on the other one. -/
theorem Switched.reset_kept {y : Slot} {d : Device} {reason : Nat} {rtc : Option UInt32}
    {power : Nat} (boot : d.ota.bootSlot = y) (valid : d.ota.state y = some .valid)
    (other : d.ota.state y.other = some .valid) (named : leftNames d y.other) :
    Switched y (bootStep d (.reset reason rtc (bootloader d.ota) power)) := by
  have same : bootloader d.ota = d.ota := bootloader_of_valid (by rw [boot]; exact valid)
  refine .recorded ?_ ?_ ?_ ?_ (leftNames_congr (bootloader_image d.ota) rfl named)
  · simp [bootStep, same, boot]
  · simp [bootStep, same, boot]
  · simp [bootStep, same, valid]
  · simp [bootStep, same, other]

/-- Once recorded, a call that at most confirms changes nothing that counts. -/
theorem Switched.recorded_keeps {y : Slot} {d d' : Device} (running : d.running = y)
    (boot : d.ota.bootSlot = y)
    (state : d.ota.state y = some .pendingVerify ∨ d.ota.state y = some .valid)
    (other : d.ota.state y.other = some .valid) (named : leftNames d' y.other)
    (running' : d'.running = d.running)
    (ota : d'.ota = d.ota ∨ d'.ota = markAppValid d.ota) : Switched y d' := by
  refine .recorded (running'.trans running) ?_ ?_ ?_ named
  · obtain same | marked := ota
    · rw [same, boot]
    · rw [marked, ← boot]
      rfl
  · obtain same | marked := ota
    · rw [same]
      exact state
    · rw [marked, markAppValid_state, if_pos boot.symm]
      exact .inr rfl
  · obtain same | marked := ota
    · rw [same]
      exact other
    · rw [marked, markAppValid_state, if_neg (by rw [boot]; exact other_ne y)]
      exact other

theorem Switched.deadEnd_keeps {y : Slot} {d d' : Device} (state : bootable (d.ota.state y) = false)
    (other : d.ota.state y.other = some .valid) (boot : d.ota.bootSlot = y.other)
    (running : d'.running = y.other ∨ d'.phase = .down)
    (ota : d'.ota = d.ota ∨ d'.ota = markAppValid d.ota) : Switched y d' := by
  refine .deadEnd ?_ ?_ ?_ running
  · obtain same | marked := ota
    · rw [same]
      exact state
    · rw [marked, markAppValid_state, if_neg (by rw [boot]; exact (other_ne y).symm)]
      exact state
  · obtain same | marked := ota
    · rw [same]
      exact other
    · rw [marked, markAppValid_state, if_pos boot.symm]
  · obtain same | marked := ota
    · rw [same, boot]
    · rw [marked, ← boot]
      rfl

theorem Switched.after_reset {y : Slot} {d : Device} (h : Switched y d) {reason : Nat}
    {rtc : Option UInt32} {next : OtaData} {power : Nat}
    (steady : Steady d (.reset reason rtc next power)) :
    Switched y (bootStep d (.reset reason rtc next power)) := by
  obtain ⟨-, -, ⟨handover, plainRtc⟩, closed⟩ := steady
  have next_eq := handover.eq
  subst next_eq
  cases h with
  | inFlight down boot state other flag plain =>
      subst boot
      have new := bootloader_of_new state
      refine .arrived rfl ?_ ?_ ?_ ?_ flag ?_
      · simp [bootStep, new, OtaData.setState]
      · simp [bootStep, new, OtaData.setState]
      · simp [bootStep, new, OtaData.setState]
      · simp [bootStep, new, OtaData.setState, other_ne, other]
      · cases rtc with
        | none => exact plain
        | some word => exact plainRtc
  | arrived phase running boot state other flag plain => exact .reset_lost boot state other
  | arriving early running boot state other rescue pending =>
      obtain unconfirmed | valid := state
      · exact .reset_lost boot unconfirmed other
      · have named : leftNames d y.other := by
          by_contra unnamed
          exact closed rfl ⟨rescue, pending, by rw [running]; exact valid, by rw [running]; exact unnamed⟩
        exact .reset_kept boot valid other named
  | recorded running boot state other named =>
      obtain unconfirmed | valid := state
      · exact .reset_lost boot unconfirmed other
      · exact .reset_kept boot valid other named
  | deadEnd state other boot running =>
      have same : bootloader d.ota = d.ota := bootloader_of_valid (by rw [boot]; exact other)
      refine .deadEnd ?_ ?_ ?_ (.inl ?_)
      · simp [bootStep, same, state]
      · simp [bootStep, same, other]
      · simp [bootStep, same, boot]
      · simp [bootStep, same, boot]

/-- The core notes the flag it read and the state it found. -/
theorem initArduino_notes {io : LaterIo} {d : Device}
    (opens : io.initOk = true ∧ io.openOk = true ∧ io.readOk = true) :
    (initArduino io d).ram.bootRescue = otaHealthRescue (d.nvs.rescue.getD 0) d.marker ∧
      (initArduino io d).ram.bootPending = runningImageIs d .pendingVerify := by
  obtain ⟨init, opened, read⟩ := opens
  have later : (verifyRollbackLater io d).2.ram.bootRescue =
        otaHealthRescue (d.nvs.rescue.getD 0) d.marker ∧
      (verifyRollbackLater io d).2.ram.bootPending = runningImageIs d .pendingVerify := by
    simp only [verifyRollbackLater, init, opened, read]
    simp only [Bool.not_true, Bool.or_false, Bool.false_eq_true, if_false, if_true]
    split_ifs <;> simp
  simp only [initArduino]
  split <;> simp [later]

theorem initArduino_phase (io : LaterIo) (d : Device) : (initArduino io d).phase = .setup := by
  simp only [initArduino]
  split <;> rfl

theorem Switched.after_initArduino {y : Slot} {d : Device} (h : Switched y d) {io : LaterIo}
    (steady : Steady d (.initArduino io)) : Switched y (initArduino io d) := by
  obtain ⟨⟨core, power⟩, lands, -, -⟩ := steady
  simp only [NvsLands, Bool.and_eq_true] at lands
  have frame := initArduino_frame io d
  have ota := initArduino_ota io d
  cases h with
  | inFlight down boot state other flag plain => rw [core] at down; cases down
  | arrived phase running boot state other flag plain =>
      obtain ⟨rescue, pending⟩ := initArduino_notes
        (d := d) ⟨lands.1.1.1.1, lands.1.1.1.2, lands.1.1.2⟩
      have marked (s : Slot) : (markAppValid d.ota).state s =
          if s = y then some .valid else d.ota.state s := by
        rw [markAppValid_state, boot]
      refine .arriving (.inl (initArduino_phase io d)) (frame.running.trans running) ?_ ?_ ?_ ?_ ?_
      · obtain same | ⟨-, confirmed⟩ := ota
        · rw [same, boot]
        · rw [confirmed, ← boot]
          rfl
      · obtain same | ⟨-, confirmed⟩ := ota
        · rw [same]
          exact .inl state
        · rw [confirmed, marked, if_pos rfl]
          exact .inr rfl
      · obtain same | ⟨-, confirmed⟩ := ota
        · rw [same]
          exact other
        · rw [confirmed, marked, if_neg (other_ne y)]
          exact other
      · -- no planned restart led here, so the flag is honoured
        rw [rescue, flag]
        simp only [otaHealthTakePlanned] at plain
        split_ifs at plain with notRestart notBroker
        simp [otaHealthRescue, notRestart, notBroker]
      · rw [pending, runningImageIs, running, state]
        rfl
  | arriving early running boot state other rescue pending =>
      obtain setup | dead := early
      · rw [core] at setup
        cases setup
      · omega
  | recorded running boot state other named =>
      refine .recorded_keeps running boot state other ?_ frame.running (ota.imp_right And.right)
      refine leftNames_congr ?_ frame.leftId named
      obtain same | ⟨-, confirmed⟩ := ota
      · rw [same]
      · rw [confirmed]
        rfl
  | deadEnd state other boot running =>
      obtain running | down := running
      · exact .deadEnd_keeps state other boot (.inl (frame.running.trans running))
          (ota.imp_right And.right)
      · rw [core] at down
        cases down

/-- The record of a boot that lives on is the one `updateLeftRecord` left. -/
theorem recordBootStreak_left {io : RecordIo} {d d' : Device} (begins : io.begins = true)
    (start : { d with marker := (otaHealthTakePlanned d.marker).2, phase := .rollback } = d') :
    (recordBootStreak io d).nvs.leftId = (updateLeftRecord io d').nvs.leftId ∧
      (recordBootStreak io d).power ≤ (updateLeftRecord io d').power := by
  have stored (d : Device) (write : BootNvs → BootNvs)
      (left : ∀ n, (write n).leftId = n.leftId) : (d.store write).nvs.leftId = d.nvs.leftId := by
    obtain same | put := store_cases d write
    · rw [same]
    · rw [put, left]
  have brownout : (countBrownout io (updateLeftRecord io d')).nvs.leftId =
        (updateLeftRecord io d').nvs.leftId ∧
      (countBrownout io (updateLeftRecord io d')).power ≤ (updateLeftRecord io d').power := by
    simp only [countBrownout]
    split
    · exact ⟨stored _ _ fun _ => rfl, store_power_le _ _⟩
    · exact ⟨rfl, le_rfl⟩
  simp only [recordBootStreak, begins, start, Bool.not_true, Bool.false_eq_true, if_false]
  generalize updateLeftRecord io d' = left at brownout ⊢
  split
  · exact ⟨rfl, le_rfl⟩
  · simp only [storeStreak]
    split
    · exact brownout
    · refine ⟨?_, ?_⟩
      · rw [setRam_nvs]
        refine (stored _ _ ?_).trans brownout.1
        intro n
        rfl
      · exact (store_power_le _ _).trans brownout.2

theorem recordBootStreak_marker (io : RecordIo) (d : Device) :
    (recordBootStreak io d).marker = (otaHealthTakePlanned d.marker).2 := by
  simp only [recordBootStreak, storeStreak, countBrownout, streakUnread]
  split_ifs <;> simp

theorem recordBootStreak_arrival (io : RecordIo) (d : Device) :
    (recordBootStreak io d).ram.bootRescue = d.ram.bootRescue ∧
      (recordBootStreak io d).ram.bootPending = d.ram.bootPending := by
  simp only [recordBootStreak, storeStreak, countBrownout, streakUnread]
  split_ifs <;> simp

theorem Switched.after_recordBootStreak {y : Slot} {d : Device} (h : Switched y d)
    (held : BothHold d.ota) {io : RecordIo} (steady : Steady d (.recordBootStreak io)) :
    Switched y (recordBootStreak io d) := by
  obtain ⟨⟨setup, -⟩, lands, -, -⟩ := steady
  simp only [NvsLands, Bool.and_eq_true] at lands
  have begins : io.begins = true := lands.1.1.1.1.1.1.1.1
  have put : io.leftPut = true := lands.1.1.1.1.1.2
  obtain ⟨ota, running', -, -⟩ := recordBootStreak_keeps io d
  obtain ⟨left, power⟩ := recordBootStreak_left (d := d) begins rfl
  obtain ⟨rescue', pending'⟩ := recordBootStreak_arrival io d
  cases h with
  | inFlight down boot state other flag plain => rw [setup] at down; cases down
  | arrived phase running boot state other flag plain => rw [setup] at phase; cases phase
  | arriving early running boot state other rescue pending =>
      by_cases alive : 0 < (recordBootStreak io d).power
      · have named := updateLeftRecord_arrival io
          (d := { d with marker := (otaHealthTakePlanned d.marker).2, phase := .rollback })
          put rescue pending (held _) (alive.trans_le power)
        refine .recorded (running'.trans running) ?_ ?_ ?_ ?_
        · rw [ota, boot]
        · rw [ota]
          exact state
        · rw [ota]
          exact other
        · rw [← running]
          exact leftNames_congr (by rw [ota, updateLeftRecord_ota]) left named
      · refine .arriving (.inr (by omega)) (running'.trans running) ?_ ?_ ?_ ?_ ?_
        · rw [ota, boot]
        · rw [ota]
          exact state
        · rw [ota]
          exact other
        · rw [rescue', rescue]
        · rw [pending', pending]
  | recorded running boot state other named =>
      refine .recorded_keeps running boot state other ?_ running' (.inl ota)
      have kept := updateLeftRecord_named io
        (d := { d with marker := (otaHealthTakePlanned d.marker).2, phase := .rollback })
        (by rw [← running] at named; exact named)
      rw [← running]
      exact leftNames_congr (by rw [ota, updateLeftRecord_ota]) left kept
  | deadEnd state other boot running =>
      obtain running | down := running
      · exact .deadEnd_keeps state other boot (.inl (running'.trans running)) (.inl ota)
      · rw [setup] at down
        cases down

theorem Switched.after_rollbackIfCrashLoop {y : Slot} {d : Device} (h : Switched y d)
    {io : RollbackIo} (steady : Steady d (.rollbackIfCrashLoop io)) :
    (rollbackIfCrashLoop io d).ota.bootSlot = d.ota.bootSlot ∧
      Switched y (rollbackIfCrashLoop io d) := by
  obtain ⟨⟨phase, power⟩, lands, -, -⟩ := steady
  simp only [NvsLands, Bool.and_eq_true] at lands
  have read : io.targetRead = true := lands.1.1.1.1.1.1.1.2
  have frame := rollbackIfCrashLoop_frame io d
  have ota := rollbackIfCrashLoop_ota io d
  -- with no target the call at most confirms
  have quiet (none : rollbackTarget io d = none) :
      (rollbackIfCrashLoop io d).ota = d.ota ∨
        (rollbackIfCrashLoop io d).ota = markAppValid d.ota := by
    cases ota with
    | kept ota => exact .inl ota
    | confirmed ota => exact .inr ota
    | abandoned other target => rw [none] at target; cases target
    | switched other target => rw [none] at target; cases target
  have boot (none : rollbackTarget io d = none) :
      (rollbackIfCrashLoop io d).ota.bootSlot = d.ota.bootSlot := by
    obtain same | marked := quiet none
    · rw [same]
    · rw [marked]
      rfl
  cases h with
  | inFlight down boot state other flag plain => rw [phase] at down; cases down
  | arrived core running boot state other flag plain => rw [phase] at core; cases core
  | arriving early running boot state other rescue pending =>
      obtain setup | dead := early
      · rw [phase] at setup
        cases setup
      · omega
  | recorded running bootY state other named =>
      have none := target_ne_of_leftNames (d := d) read (by rw [running]; exact named)
      refine ⟨boot none, .recorded_keeps running bootY state other ?_ frame.running (quiet none)⟩
      refine leftNames_congr ?_ frame.leftId named
      obtain same | marked := quiet none
      · rw [same]
      · rw [marked]
        rfl
  | deadEnd state other bootX running =>
      obtain running | down := running
      · have none : rollbackTarget io d = none := by
          by_contra target
          obtain ⟨slot, target⟩ := Option.ne_none_iff_exists'.mp target
          obtain ⟨slot_eq, valid⟩ := target_eq target
          rw [slot_eq, running, other_other] at valid
          rw [valid] at state
          cases state
        exact ⟨boot none, .deadEnd_keeps state other bootX
          (.inl (frame.running.trans running)) (quiet none)⟩
      · rw [phase] at down
        cases down

/-- A call in the loop at most confirms. -/
theorem Switched.after_loop {y : Slot} {d d' : Device} (h : Switched y d) (loop : d.phase = .loop)
    (power : 0 < d.power) (running' : d'.running = d.running)
    (left : d'.nvs.leftId = d.nvs.leftId)
    (ota : d'.ota = d.ota ∨ d'.ota = markAppValid d.ota) : Switched y d' := by
  cases h with
  | inFlight down boot state other flag plain => rw [loop] at down; cases down
  | arrived core running boot state other flag plain => rw [loop] at core; cases core
  | arriving early running boot state other rescue pending =>
      obtain setup | dead := early
      · rw [loop] at setup
        cases setup
      · omega
  | recorded running boot state other named =>
      refine .recorded_keeps running boot state other (leftNames_congr ?_ left named) running' ota
      obtain same | marked := ota
      · rw [same]
      · rw [marked]
        rfl
  | deadEnd state other boot running =>
      obtain running | down := running
      · exact .deadEnd_keeps state other boot (.inl (running'.trans running)) ota
      · rw [loop] at down
        cases down

theorem bootSlot_of_confirm {o o' : OtaData} (h : o' = o ∨ o' = markAppValid o) :
    o'.bootSlot = o.bootSlot := by
  obtain same | marked := h
  · rw [same]
  · rw [marked]
    rfl

/-- After a switch the guard never leaves the boot slot again. -/
theorem Switched.rests {y : Slot} {d : Device} {e : BootEvent} (h : Switched y d)
    (held : BothHold d.ota) (steady : Steady d e) :
    switchesSlot d e = false ∧ Switched y (bootStep d e) := by
  have stays (same : (bootStep d e).ota.bootSlot = d.ota.bootSlot) : switchesSlot d e = false := by
    simp [switchesSlot, same]
  cases e with
  | reset reason rtc next power => exact ⟨rfl, h.after_reset steady⟩
  | initArduino io =>
      exact ⟨stays (bootSlot_of_confirm ((initArduino_ota io d).imp_right And.right)),
        h.after_initArduino steady⟩
  | recordBootStreak io =>
      exact ⟨stays (by rw [bootStep, (recordBootStreak_keeps io d).1]),
        h.after_recordBootStreak held steady⟩
  | rollbackIfCrashLoop io =>
      obtain ⟨boot, next⟩ := h.after_rollbackIfCrashLoop steady
      exact ⟨stays boot, next⟩
  | confirmIfHealthy io =>
      have frame := confirmIfHealthy_frame io d
      exact ⟨stays (bootSlot_of_confirm (confirmIfHealthy_ota io d)),
        h.after_loop steady.1.1 steady.1.2 frame.running frame.leftId (confirmIfHealthy_ota io d)⟩
  | noteMqttUp => exact ⟨stays rfl, h.after_loop steady.1.1 steady.1.2 rfl rfl (.inl rfl)⟩
  | plannedRestart => exact ⟨stays rfl, h.after_loop steady.1.1 steady.1.2 rfl rfl (.inl rfl)⟩
  | brokerRestart => exact ⟨stays rfl, h.after_loop steady.1.1 steady.1.2 rfl rfl (.inl rfl)⟩
  | applyUpdate image => exact steady.2.2.1.elim

/-! ## Before the switch -/

/-- A boot runs the boot slot, and its marker is taken before the guard may switch. -/
structure NotSwitched (d : Device) : Prop where
  held : BothHold d.ota
  boot : d.phase ≠ .down → d.ota.bootSlot = d.running
  plain : d.phase = .rollback → (otaHealthTakePlanned d.marker).1 = .none

theorem held_of_image {o o' : OtaData} (same : o'.image = o.image) (held : BothHold o) :
    BothHold o' := by
  intro slot
  rw [imageId_congr same]
  exact held slot

theorem rollbackIfCrashLoop_image (io : RollbackIo) (d : Device) :
    (rollbackIfCrashLoop io d).ota.image = d.ota.image := by
  cases rollbackIfCrashLoop_ota io d with
  | kept ota => rw [ota]
  | confirmed ota => rw [ota]; rfl
  | abandoned other target down ota => rw [ota]; rfl
  | switched other target down valid armed ota => rw [ota]; rfl

theorem bootStep_image {d : Device} {e : BootEvent} (steady : Steady d e) :
    (bootStep d e).ota.image = d.ota.image := by
  have confirmed {o o' : OtaData} (h : o' = o ∨ o' = markAppValid o) : o'.image = o.image := by
    obtain same | marked := h
    · rw [same]
    · rw [marked]
      rfl
  cases e with
  | reset reason rtc next power =>
      rw [bootStep, steady.2.2.1.1.eq]
      exact bootloader_image d.ota
  | initArduino io => exact confirmed ((initArduino_ota io d).imp_right And.right)
  | recordBootStreak io => rw [bootStep, (recordBootStreak_keeps io d).1]
  | rollbackIfCrashLoop io => exact rollbackIfCrashLoop_image io d
  | confirmIfHealthy io => exact confirmed (confirmIfHealthy_ota io d)
  | noteMqttUp => rfl
  | plannedRestart => rfl
  | brokerRestart => rfl
  | applyUpdate image => exact steady.2.2.1.elim

theorem rollbackIfCrashLoop_marker (io : RollbackIo) (d : Device) :
    (rollbackIfCrashLoop io d).marker = d.marker := by
  have clear (d : Device) : (clearCrashStreak io.clear d).2.marker = d.marker := by
    simp only [clearCrashStreak]
    split <;> simp
  have arm (d : Device) : (armRescue io d).2.marker = d.marker := by
    simp only [armRescue]
    split_ifs <;> simp
  have disarm (d : Device) : (disarmRescue io.disarm d).marker = d.marker := by
    simp only [disarmRescue]
    split <;> simp
  simp only [rollbackIfCrashLoop]
  split_ifs
  · rfl
  · simp only [rollbackPending]
    split
    · split_ifs <;> simp [clear]
    · split <;> simp [clear]
  · simp only [switchSlot]
    split
    · rfl
    · split_ifs <;> simp [arm, disarm]
  · rfl

theorem takePlanned_taken (marker : UInt32) : (otaHealthTakePlanned marker).2 = 0 := by
  simp only [otaHealthTakePlanned]
  split_ifs <;> rfl

theorem confirmIfHealthy_phase (io : ConfirmIo) (d : Device) :
    (confirmIfHealthy io d).phase = d.phase := by
  have proven (d : Device) : (markProvenOnBroker io.proven d).phase = d.phase := by
    simp only [markProvenOnBroker]
    repeat' split
    all_goals simp
  have read (d : Device) : (readRunState d).phase = d.phase := by
    simp only [readRunState]
    repeat' split
    all_goals simp
  have clear (d : Device) : (clearCrashStreak io.clear d).2.phase = d.phase := by
    simp only [clearCrashStreak]
    split <;> simp
  have usb (d : Device) : (settleUsb io d).phase = d.phase := by
    simp only [settleUsb, markUsbImageValid]
    split_ifs <;> simp
  have confirm (d : Device) : (confirmPending io d).phase = d.phase := by
    simp only [confirmPending]
    split_ifs <;> simp [clear]
  have settle (d : Device) : (settleConfirmed io d).phase = d.phase := by
    simp only [settleConfirmed]
    split_ifs <;> simp [clear, usb]
  simp only [confirmIfHealthy]
  split_ifs
  · exact proven d
  · exact (read _).trans (proven d)
  · exact (confirm _).trans ((read _).trans (proven d))
  · exact (settle _).trans ((read _).trans (proven d))

theorem rollbackIfCrashLoop_phase (io : RollbackIo) (d : Device) :
    (rollbackIfCrashLoop io d).phase ≠ .rollback := by
  have clear (d : Device) : (clearCrashStreak io.clear d).2.phase = d.phase := by
    simp only [clearCrashStreak]
    split <;> simp
  have arm (d : Device) : (armRescue io d).2.phase = d.phase := by
    simp only [armRescue]
    split_ifs <;> simp
  have disarm (d : Device) : (disarmRescue io.disarm d).phase = d.phase := by
    simp only [disarmRescue]
    split <;> simp
  simp only [rollbackIfCrashLoop]
  split_ifs
  · simp
  · simp only [rollbackPending]
    split
    · split_ifs <;> simp [clear]
    · split <;> simp [clear]
  · simp only [switchSlot]
    split
    · simp
    · split_ifs <;> simp [arm, disarm]
  · simp

/-- Of the calls of the guard, the one that moves the boot slot marks the slot it leaves or writes
the new one. -/
theorem NotSwitched.rolls_back {d : Device} {io : RollbackIo} (h : NotSwitched d)
    (steady : Steady d (.rollbackIfCrashLoop io))
    (moved : (bootStep d (.rollbackIfCrashLoop io)).ota.bootSlot ≠ d.ota.bootSlot) :
    (∃ y, Switched y (bootStep d (.rollbackIfCrashLoop io))) ∧
      ¬ leftNames d (bootStep d (.rollbackIfCrashLoop io)).ota.bootSlot := by
  obtain ⟨⟨phase, -⟩, lands, -, -⟩ := steady
  simp only [NvsLands, Bool.and_eq_true] at lands
  have read : io.targetRead = true := lands.1.1.1.1.1.1.1.2
  have boot := h.boot (by rw [phase]; decide)
  have unnamed {other : Slot} (target : rollbackTarget io d = some other) :
      ¬ leftNames d other := by
    intro named
    rw [(target_eq target).1] at named
    rw [target_ne_of_leftNames read named] at target
    cases target
  cases rollbackIfCrashLoop_ota io d with
  | kept ota => exact absurd (congrArg OtaData.bootSlot ota) moved
  | confirmed ota => exact absurd (bootSlot_of_confirm (.inr ota)) moved
  | abandoned other target down ota =>
      obtain ⟨other_eq, valid⟩ := target_eq target
      have state (s : Slot) : (bootStep d (.rollbackIfCrashLoop io)).ota.state s =
          if s = d.running then some .invalid else d.ota.state s := by
        rw [bootStep, ota, ← boot]
        rfl
      have slot : (bootStep d (.rollbackIfCrashLoop io)).ota.bootSlot = d.running.other := by
        rw [bootStep, ota, ← boot]
        rfl
      refine ⟨⟨d.running, .deadEnd ?_ ?_ slot (.inr down)⟩, ?_⟩
      · rw [state, if_pos rfl]
        rfl
      · rw [state, if_neg (other_ne _), ← other_eq]
        exact valid
      · rw [slot, ← other_eq]
        exact unnamed target
  | switched other target down valid armed ota =>
      obtain ⟨other_eq, otherValid⟩ := target_eq target
      have state (s : Slot) : (bootStep d (.rollbackIfCrashLoop io)).ota.state s =
          if s = other then some .new else d.ota.state s := by
        rw [bootStep, ota]
        rfl
      have slot : (bootStep d (.rollbackIfCrashLoop io)).ota.bootSlot = other := by
        rw [bootStep, ota]
        rfl
      refine ⟨⟨other, .inFlight down slot ?_ ?_ armed ?_⟩, by rw [slot]; exact unnamed target⟩
      · rw [state, if_pos rfl]
      · rw [state, if_neg (other_ne _), other_eq, other_other]
        exact valid
      · rw [bootStep, rollbackIfCrashLoop_marker]
        exact h.plain phase

/-- The guard switches to a valid slot the record does not name, and the device is then in
flight or the slot left is out. -/
theorem NotSwitched.fires {d : Device} {e : BootEvent} (h : NotSwitched d) (steady : Steady d e)
    (switches : switchesSlot d e = true) :
    (∃ y, Switched y (bootStep d e)) ∧ ¬ leftNames d (bootStep d e).ota.bootSlot := by
  simp only [switchesSlot, Bool.and_eq_true, decide_eq_true_eq] at switches
  obtain ⟨notReset, moved⟩ := switches
  cases e with
  | reset reason rtc next power => cases notReset
  | initArduino io =>
      exact absurd (bootSlot_of_confirm ((initArduino_ota io d).imp_right And.right)) moved
  | recordBootStreak io =>
      exact absurd (congrArg OtaData.bootSlot (recordBootStreak_keeps io d).1) moved
  | confirmIfHealthy io => exact absurd (bootSlot_of_confirm (confirmIfHealthy_ota io d)) moved
  | noteMqttUp => exact absurd rfl moved
  | plannedRestart => exact absurd rfl moved
  | brokerRestart => exact absurd rfl moved
  | applyUpdate image => exact steady.2.2.1.elim
  | rollbackIfCrashLoop io => exact h.rolls_back steady moved

theorem NotSwitched.idles {d : Device} {e : BootEvent} (h : NotSwitched d) (steady : Steady d e)
    (idle : switchesSlot d e = false) : NotSwitched (bootStep d e) := by
  have held := held_of_image (bootStep_image steady) h.held
  cases e with
  | reset reason rtc next power =>
      refine ⟨held, fun _ => rfl, ?_⟩
      intro phase
      cases phase
  | initArduino io =>
      refine ⟨held, fun _ => ?_, ?_⟩
      · have boot := h.boot (by rw [steady.1.1]; decide)
        rw [bootStep, bootSlot_of_confirm ((initArduino_ota io d).imp_right And.right), boot]
        exact (initArduino_frame io d).running.symm
      · intro phase
        rw [bootStep, initArduino_phase] at phase
        cases phase
  | recordBootStreak io =>
      obtain ⟨ota, running, -, -⟩ := recordBootStreak_keeps io d
      refine ⟨held, fun _ => ?_, fun _ => ?_⟩
      · rw [bootStep, ota, running]
        exact h.boot (by rw [steady.1.1]; decide)
      · rw [bootStep, recordBootStreak_marker, takePlanned_taken]
        rfl
  | rollbackIfCrashLoop io =>
      refine ⟨held, fun _ => ?_, fun phase => absurd phase (rollbackIfCrashLoop_phase io d)⟩
      have same : (bootStep d (.rollbackIfCrashLoop io)).ota.bootSlot = d.ota.bootSlot := by
        simpa [switchesSlot, BootEvent.isReset] using idle
      rw [same, h.boot (by rw [steady.1.1]; decide)]
      exact (rollbackIfCrashLoop_frame io d).running.symm
  | confirmIfHealthy io =>
      have running := (confirmIfHealthy_frame io d).running
      refine ⟨held, fun _ => ?_, ?_⟩
      · rw [bootStep, bootSlot_of_confirm (confirmIfHealthy_ota io d), running]
        exact h.boot (by rw [steady.1.1]; decide)
      · intro phase
        rw [bootStep, confirmIfHealthy_phase, steady.1.1] at phase
        cases phase
  | noteMqttUp => exact ⟨held, h.boot, h.plain⟩
  | plannedRestart => exact ⟨held, fun down => absurd rfl down, fun phase => by cases phase⟩
  | brokerRestart => exact ⟨held, fun down => absurd rfl down, fun phase => by cases phase⟩
  | applyUpdate image => exact steady.2.2.1.elim

/-! ## Every run -/

/-- The guard has not switched yet, or stands where its switch left it. -/
def SwitchStands (d : Device) : Prop :=
  NotSwitched d ∨ BothHold d.ota ∧ ∃ y, Switched y d

theorem switched_rests {d : Device} {e : BootEvent} (done : BothHold d.ota ∧ ∃ y, Switched y d)
    (steady : Steady d e) :
    switchesSlot d e = false ∧ BothHold (bootStep d e).ota ∧ ∃ y, Switched y (bootStep d e) := by
  obtain ⟨held, y, h⟩ := done
  obtain ⟨stays, next⟩ := h.rests held steady
  exact ⟨stays, held_of_image (bootStep_image steady) held, y, next⟩

theorem notSwitched_fires {d : Device} {e : BootEvent} (h : NotSwitched d) (steady : Steady d e)
    (switches : switchesSlot d e = true) :
    BothHold (bootStep d e).ota ∧ ∃ y, Switched y (bootStep d e) :=
  ⟨held_of_image (bootStep_image steady) h.held, (h.fires steady switches).1⟩

theorem switchStands_step {d : Device} {e : BootEvent} (h : SwitchStands d) (steady : Steady d e) :
    SwitchStands (bootStep d e) := by
  obtain h | done := h
  · cases picked : switchesSlot d e with
    | false => exact .inl (h.idles steady picked)
    | true => exact .inr (notSwitched_fires h steady picked)
  · exact .inr (switched_rests done steady).2

/-- From any powered-off device whose slots both hold an image of this guard, the guard
switches slots at most once, and never to a slot the left record names. -/
theorem switches_at_most_once (start : Device) (es : List BootEvent) (off : PoweredOff start)
    (held : BothHold start.ota) (steady : Machine.Meets bootStep Steady start es) :
    Machine.tally bootStep switchesSlot start es ≤ 1 ∧
      ∀ before e after, es = before ++ e :: after →
        switchesSlot (Machine.run bootStep start before) e = true →
        ¬ leftNames (Machine.run bootStep start before)
          (bootStep (Machine.run bootStep start before) e).ota.bootSlot := by
  have fresh : NotSwitched start :=
    ⟨held, fun up => absurd off.1 up, fun phase => by simp [off.1] at phase⟩
  constructor
  · exact steady.tally_le_one (fun _ _ h steady idle => NotSwitched.idles h steady idle)
      (fun _ _ h steady switches => notSwitched_fires h steady switches)
      (fun _ _ done steady => switched_rests done steady) fresh
  · intro before e after split switches
    subst split
    obtain ⟨front, last⟩ := Machine.meets_append.mp steady
    have stands : SwitchStands (Machine.run bootStep start before) :=
      front.invariant (fun _ _ h steady => switchStands_step h steady) (.inl fresh)
    obtain h | done := stands
    · exact (h.fires last.1 switches).2
    · rw [(switched_rests done last.1).1] at switches
      cases switches

/-- The calls of a boot up to `loop`. -/
def guardBoot (reason : Nat) (ota : OtaData) : List BootEvent :=
  countedBoot reason ota .lands ++ [.rollbackIfCrashLoop .lands]

/-- A switch from `app0` to `app1`, which then crash-loops itself. -/
def switchThenCrash : List BootEvent :=
  guardBoot OTA_RST_PANIC (sampleOta .app0 .valid .valid) ++
    guardBoot OTA_RST_SW (sampleOta .app1 .valid .pendingVerify) ++
    guardBoot OTA_RST_PANIC (sampleOta .app1 .valid .valid) ++
    guardBoot OTA_RST_PANIC (sampleOta .app1 .valid .valid) ++
    guardBoot OTA_RST_PANIC (sampleOta .app1 .valid .valid)

theorem switches_at_most_once_sample :
    Machine.tally bootStep switchesSlot (sampleOff 2 0 (sampleOta .app0 .valid .valid))
      switchThenCrash ≤ 1 :=
  (switches_at_most_once (sampleOff 2 0 (sampleOta .app0 .valid .valid)) switchThenCrash
    ⟨rfl, rfl⟩ (by decide +kernel) (by decide +kernel)).1

/-- The same run with the arrival reset between the core's confirm and the record. -/
def arrivalCut : List BootEvent :=
  guardBoot OTA_RST_PANIC (sampleOta .app0 .valid .valid) ++
    [.reset OTA_RST_SW none (sampleOta .app1 .valid .pendingVerify) 8, .initArduino .lands] ++
    guardBoot OTA_RST_PANIC (sampleOta .app1 .valid .valid) ++
    guardBoot OTA_RST_PANIC (sampleOta .app1 .valid .valid) ++
    guardBoot OTA_RST_PANIC (sampleOta .app1 .valid .valid)

/-- A reset in that window lets the guard switch back. -/
theorem arrivalCut_switches_twice :
    BothHold (sampleOta .app0 .valid .valid) ∧
      Machine.Meets bootStep (fun d e => Boots d e ∧ NvsLands e ∧ SwitchEnv d e)
        (sampleOff 2 0 (sampleOta .app0 .valid .valid)) arrivalCut ∧
      Machine.tally bootStep switchesSlot (sampleOff 2 0 (sampleOta .app0 .valid .valid))
        arrivalCut = 2 := by
  decide +kernel

end Thesada.Ota
