import Thesada.Ota.BootGuard

/-!
# When a pending image is confirmed, and what a crash streak counts

Three properties of every run of boots. A pending image turns valid only on a known streak
below the limit that was first stored as zero, on a streak at the limit with no slot to go
back to, or on the rescue path of the core. Resets that a boot counts and stores add up
over any number of boots that hold. A planned restart into a pending image starts its
streak at one.
-/

namespace Thesada.Ota

open Device

/-! ## What each part of the guard may change -/

/-- A slot turns from pending to valid. -/
def ConfirmsPending (d d' : Device) : Prop :=
  ∃ slot, d.ota.state slot = some .pendingVerify ∧ d'.ota.state slot = some .valid

theorem not_confirms_of_ota_eq {d d' : Device} (same : d'.ota = d.ota) :
    ¬ ConfirmsPending d d' := by
  rintro ⟨slot, pending, valid⟩
  rw [same, pending] at valid
  cases valid

theorem setState_state (o : OtaData) (slot s : Slot) (state : ImgState) :
    (o.setState slot state).state s = if s = slot then some state else o.state s := rfl

/-- The core confirms only with a rescue flag that was read, honoured and cleared. -/
structure RescueConfirm (d d' : Device) : Prop where
  flagged : d.nvs.rescue.getD 0 ≠ 0
  unplanned : (otaHealthTakePlanned d.marker).1 = .none
  cleared : d'.nvs.rescue = some 0

theorem unplanned_of_rescue {stored : UInt8} {marker : UInt32}
    (h : otaHealthRescue stored marker ≠ 0) : (otaHealthTakePlanned marker).1 = .none := by
  simp only [otaHealthRescue] at h
  split at h
  · exact absurd rfl h
  · rename_i plain
    obtain ⟨notRestart, notBroker⟩ := not_or.mp plain
    simp [otaHealthTakePlanned, notRestart, notBroker]

theorem verifyRollbackLater_ota (io : LaterIo) (d : Device) :
    (verifyRollbackLater io d).2.ota = d.ota := by
  simp only [verifyRollbackLater]
  split_ifs <;> simp

theorem verifyRollbackLater_confirms {io : LaterIo} {d : Device}
    (confirm : (verifyRollbackLater io d).1 = false)
    (alive : 0 < (verifyRollbackLater io d).2.power) :
    RescueConfirm d (verifyRollbackLater io d).2 := by
  simp only [verifyRollbackLater] at confirm alive ⊢
  by_cases opens : (!io.initOk || !io.openOk) = true
  · simp [opens] at confirm
  · by_cases reads : io.readOk = true
    · simp only [opens, reads, if_true, Bool.false_eq_true, if_false] at confirm alive ⊢
      split_ifs at confirm alive ⊢ with sets commits
      · have honoured : otaHealthRescue (d.nvs.rescue.getD 0) d.marker ≠ 0 := by
          simpa using confirm
        have landed := store_landed alive
        constructor
        · simpa using (Bool.and_eq_true_iff.mp sets).1
        · exact unplanned_of_rescue honoured
        · simp [landed.1]
    · simp [opens, reads] at confirm

theorem initArduino_confirms {io : LaterIo} {d : Device}
    (h : ConfirmsPending d (initArduino io d)) : RescueConfirm d (initArduino io d) := by
  have ota := verifyRollbackLater_ota io d
  simp only [initArduino] at h ⊢
  split at h
  · rename_i confirm
    simp only [confirm, if_true]
    simp only [Bool.and_eq_true, Bool.not_eq_true'] at confirm
    obtain same | ⟨alive, -⟩ := mark_cases (verifyRollbackLater io d).2 markAppValid
    · exact absurd h (not_confirms_of_ota_eq (same.trans ota))
    · obtain ⟨flagged, unplanned, cleared⟩ := verifyRollbackLater_confirms confirm.1.1 alive
      exact ⟨flagged, unplanned, by simpa using cleared⟩
  · exact absurd h (not_confirms_of_ota_eq ota)

theorem not_confirms_of_mark {d d' : Device} (put : OtaData → OtaData) (slot : Slot)
    (state : ImgState) (marked : d'.ota = d.ota ∨ d'.ota = put d.ota)
    (puts : (put d.ota).state = (d.ota.setState slot state).state) (other : state ≠ .valid) :
    ¬ ConfirmsPending d d' := by
  obtain same | marked := marked
  · exact not_confirms_of_ota_eq same
  · rintro ⟨s, pending, valid⟩
    rw [marked, puts, setState_state] at valid
    split at valid
    · exact other (Option.some.inj valid)
    · rw [pending] at valid
      cases valid

theorem clearCrashStreak_ota (io : PutIo) (d : Device) : (clearCrashStreak io d).2.ota = d.ota := by
  simp only [clearCrashStreak]
  split <;> simp

theorem armRescue_ota (io : RollbackIo) (d : Device) : (armRescue io d).2.ota = d.ota := by
  simp only [armRescue]
  split_ifs <;> simp

theorem disarmRescue_ota (io : PutIo) (d : Device) : (disarmRescue io d).ota = d.ota := by
  simp only [disarmRescue]
  split <;> simp

theorem rollbackPending_confirms {io : RollbackIo} {d : Device}
    (h : ConfirmsPending d (rollbackPending io d)) : rollbackTarget io d = none := by
  by_contra target
  obtain ⟨slot, target⟩ := Option.ne_none_iff_exists'.mp target
  simp only [rollbackPending, target] at h
  split at h
  · refine not_confirms_of_mark markAppInvalid d.ota.bootSlot .invalid ?_ rfl (by decide) h
    obtain same | ⟨-, marked⟩ := mark_cases (clearCrashStreak io.clear d).2 markAppInvalid
    · exact .inl (same.trans (clearCrashStreak_ota io.clear d))
    · exact .inr (by simpa only [clearCrashStreak_ota] using marked)
  · exact not_confirms_of_ota_eq (clearCrashStreak_ota io.clear d) h

theorem switchSlot_not_confirms (io : RollbackIo) (d : Device) :
    ¬ ConfirmsPending d (switchSlot io d) := by
  have armed := armRescue_ota io d
  simp only [switchSlot]
  split
  · exact not_confirms_of_ota_eq rfl
  · rename_i other target
    split_ifs
    · exact not_confirms_of_ota_eq rfl
    · exact not_confirms_of_ota_eq armed
    · exact not_confirms_of_ota_eq ((disarmRescue_ota io.disarm _).trans armed)
    · refine not_confirms_of_mark (setBootPartition other) other .new ?_ rfl (by decide)
      obtain same | ⟨-, marked⟩ := mark_cases (armRescue io d).2 (setBootPartition other)
      · exact .inl (same.trans armed)
      · exact .inr (by simpa only [armed] using marked)

theorem rollbackIfCrashLoop_confirms {io : RollbackIo} {d : Device}
    (h : ConfirmsPending d (rollbackIfCrashLoop io d)) :
    d.ram.streakKnown = true ∧ OTA_HEALTH_CRASH_LIMIT ≤ d.ram.crashStreak ∧
      rollbackTarget io d = none := by
  simp only [rollbackIfCrashLoop] at h
  split_ifs at h with gate pending valid
  · exact absurd h (not_confirms_of_ota_eq rfl)
  · have known : d.ram.streakKnown = true ∧ OTA_HEALTH_CRASH_LIMIT ≤ d.ram.crashStreak := by
      simpa [otaHealthShouldRollback] using gate
    exact ⟨known.1, known.2, rollbackPending_confirms (d := { d with phase := .loop }) h⟩
  · exact absurd h (switchSlot_not_confirms io { d with phase := .loop })
  · exact absurd h (not_confirms_of_ota_eq rfl)

/-! ## The gate of the loop -/

/-- A pending image is confirmed on a known streak below the limit, stored as zero. -/
structure HealthConfirm (d d' : Device) : Prop where
  known : d.ram.streakKnown = true
  below : d.ram.crashStreak < OTA_HEALTH_CRASH_LIMIT
  stored : d'.nvs.crashN = some 0

/-- A state read as not pending stays so: only the bootloader makes a slot pending. -/
def ReadsConfirmed (d : Device) : Prop :=
  d.ram.stateKnown = true → d.ram.pending = false →
    d.ota.state d.running ≠ some .pendingVerify

theorem confirmPending_confirms {io : ConfirmIo} {d : Device}
    (h : ConfirmsPending d (confirmPending io d)) : HealthConfirm d (confirmPending io d) := by
  have unchanged : ¬ ConfirmsPending d d := not_confirms_of_ota_eq rfl
  simp only [confirmPending] at h ⊢
  split_ifs at h ⊢ with unknown unfit failed unmarked
  · exact absurd h unchanged
  · exact absurd h unchanged
  · exact absurd h (not_confirms_of_ota_eq (clearCrashStreak_ota io.clear d))
  · exact absurd h (not_confirms_of_ota_eq (clearCrashStreak_ota io.clear d))
  · obtain cleared | cleared := clearCrashStreak_cases io.clear d
    · rw [cleared] at h ⊢
      obtain same | ⟨alive, -⟩ := mark_cases (d.store zeroStreak) markAppValid
      · exact absurd h (not_confirms_of_ota_eq (by simpa using same))
      · constructor
        · simpa using unknown
        · exact lt_limit_of_shouldMark (by simpa using unfit)
        · simp [(store_landed alive).1, zeroStreak]
    · simp [cleared] at failed

/-- A USB mark lands on the running slot, which is not pending. -/
theorem markUsb_not_confirms {d : Device} (active : d.ota.bootSlot = d.running)
    (confirmed : d.ota.state d.running ≠ some .pendingVerify) :
    ¬ ConfirmsPending d (d.mark markAppValid) := by
  obtain same | ⟨-, marked⟩ := mark_cases d markAppValid
  · exact not_confirms_of_ota_eq same
  · rintro ⟨slot, pending, valid⟩
    rw [marked, markAppValid, setState_state] at valid
    split at valid
    · rename_i boot
      exact confirmed (by rw [← active, ← boot]; exact pending)
    · rw [pending] at valid
      cases valid

theorem settleUsb_not_confirms (io : ConfirmIo) {d : Device}
    (confirmed : d.ota.state d.running ≠ some .pendingVerify) :
    ¬ ConfirmsPending d (settleUsb io d) := by
  have unchanged : ¬ ConfirmsPending d d := not_confirms_of_ota_eq rfl
  simp only [settleUsb]
  obtain ⟨active, marked⟩ | marked := markUsbImageValid_cases io d
  · rw [marked]
    split_ifs
    · exact unchanged
    · exact unchanged
    · exact markUsb_not_confirms active confirmed
    · exact markUsb_not_confirms active confirmed
  · rw [marked]
    split_ifs <;> exact unchanged

theorem settleConfirmed_not_confirms (io : ConfirmIo) {d : Device}
    (confirmed : d.ota.state d.running ≠ some .pendingVerify) :
    ¬ ConfirmsPending d (settleConfirmed io d) := by
  simp only [settleConfirmed]
  split_ifs
  · exact not_confirms_of_ota_eq rfl
  · exact settleUsb_not_confirms io confirmed
  · exact not_confirms_of_ota_eq rfl
  · exact not_confirms_of_ota_eq (clearCrashStreak_ota io.clear d)
  · obtain cleared | cleared := clearCrashStreak_cases io.clear d
    · rw [cleared]
      intro h
      refine settleUsb_not_confirms io
        (d := (d.store zeroStreak).setRam ({ · with crashStreak := 0 })) (by simpa using confirmed) ?_
      simpa [ConfirmsPending] using h
    · simp_all

/-- What the streak and the confirm read is kept. -/
structure KeepsStreak (d d' : Device) : Prop where
  ota : d'.ota = d.ota
  running : d'.running = d.running
  crashN : d'.nvs.crashN = d.nvs.crashN
  known : d'.ram.streakKnown = d.ram.streakKnown
  streak : d'.ram.crashStreak = d.ram.crashStreak

theorem markProvenOnBroker_keeps (io : PutIo) (d : Device) :
    KeepsStreak d (markProvenOnBroker io d) ∧
      (markProvenOnBroker io d).ram.stateKnown = d.ram.stateKnown ∧
      (markProvenOnBroker io d).ram.pending = d.ram.pending := by
  simp only [markProvenOnBroker]
  split
  · exact ⟨⟨rfl, rfl, rfl, rfl, rfl⟩, rfl, rfl⟩
  · split
    · exact ⟨⟨rfl, rfl, rfl, rfl, rfl⟩, rfl, rfl⟩
    · rename_i id _
      split
      · refine ⟨⟨?_, ?_, ?_, ?_, ?_⟩, ?_, ?_⟩
        case refine_3 =>
          obtain kept | kept := store_cases (d.setRam ({ · with provenDone := true }))
            ({ · with provenId := some id })
          · rw [kept]
            rfl
          · rw [kept]
            rfl
        all_goals simp
      · exact ⟨⟨rfl, rfl, rfl, rfl, rfl⟩, rfl, rfl⟩

theorem readRunState_keeps (d : Device) : KeepsStreak d (readRunState d) := by
  simp only [readRunState]
  split
  · exact ⟨rfl, rfl, rfl, rfl, rfl⟩
  · split <;> exact ⟨rfl, rfl, rfl, rfl, rfl⟩

theorem readRunState_reads {d : Device} (h : ReadsConfirmed d) :
    ReadsConfirmed (readRunState d) := by
  simp only [readRunState]
  split
  · exact h
  · split
    · exact h
    · rename_i state reads
      intro _ confirmed
      simp only [setRam_ram, decide_eq_false_iff_not] at confirmed
      simp only [setRam_ota, setRam_running, reads]
      intro same
      exact confirmed (Option.some.inj same)

theorem confirmIfHealthy_confirms {io : ConfirmIo} {d : Device} (reads : ReadsConfirmed d)
    (h : ConfirmsPending d (confirmIfHealthy io d)) : HealthConfirm d (confirmIfHealthy io d) := by
  obtain ⟨keeps, stateKnown, pendingKept⟩ := markProvenOnBroker_keeps io.proven d
  have inner : ReadsConfirmed (readRunState (markProvenOnBroker io.proven d)) :=
    readRunState_reads (by
      intro known confirmed
      rw [keeps.ota, keeps.running]
      exact reads (stateKnown ▸ known) (pendingKept ▸ confirmed))
  have keeps' := readRunState_keeps (markProvenOnBroker io.proven d)
  simp only [confirmIfHealthy] at h ⊢
  split_ifs at h ⊢ with settled unread pending
  · exact absurd h (not_confirms_of_ota_eq keeps.ota)
  · exact absurd h (not_confirms_of_ota_eq (keeps'.ota.trans keeps.ota))
  · have confirm : HealthConfirm (readRunState (markProvenOnBroker io.proven d)) _ :=
      confirmPending_confirms (by simpa only [ConfirmsPending, keeps'.ota, keeps.ota] using h)
    exact ⟨keeps.known ▸ keeps'.known ▸ confirm.known,
      keeps.streak ▸ keeps'.streak ▸ confirm.below, confirm.stored⟩
  · refine absurd ?_ (settleConfirmed_not_confirms io
      (d := readRunState (markProvenOnBroker io.proven d))
      (inner (by simpa using unread) (by simpa using pending)))
    simpa only [ConfirmsPending, keeps'.ota, keeps.ota] using h

/-! ## What the guard keeps beside `recordBootStreak` -/

/-- A call of the guard that does not count the boot. A streak that is gone from RAM is
zero in NVS, unless the boot died before the write. -/
structure GuardFrame (d d' : Device) : Prop where
  running : d'.running = d.running
  known : d'.ram.streakKnown = d.ram.streakKnown
  power : d'.power ≤ d.power
  leftId : d'.nvs.leftId = d.nvs.leftId
  crashN : d'.nvs.crashN = d.nvs.crashN ∨ d'.nvs.crashN = some 0
  streak : 0 < d'.power → d'.nvs.crashN = some 0 ∨
    (d'.nvs.crashN = d.nvs.crashN ∧ d'.ram.crashStreak = d.ram.crashStreak)
  unread : d.ram.streakKnown = false → d'.ram.crashStreak = d.ram.crashStreak
  cache : ReadsConfirmed d → ReadsConfirmed d'

namespace GuardFrame

theorem refl (d : Device) : GuardFrame d d :=
  ⟨rfl, rfl, le_rfl, rfl, .inl rfl, fun _ => .inr ⟨rfl, rfl⟩, fun _ => rfl, id⟩

theorem trans {a b c : Device} (first : GuardFrame a b) (second : GuardFrame b c) :
    GuardFrame a c where
  running := second.running.trans first.running
  known := second.known.trans first.known
  power := second.power.trans first.power
  leftId := second.leftId.trans first.leftId
  crashN := by
    obtain kept | zero := second.crashN
    · rw [kept]
      exact first.crashN
    · exact .inr zero
  streak := by
    intro alive
    obtain zero | ⟨kept, keptRam⟩ := second.streak alive
    · exact .inl zero
    · rw [kept, keptRam]
      exact first.streak (alive.trans_le second.power)
  unread := by
    intro unknown
    rw [second.unread (first.known.trans unknown), first.unread unknown]
  cache := second.cache ∘ first.cache

theorem phase {d d' : Device} (h : GuardFrame d d') (phase : Phase) :
    GuardFrame d { d' with phase } :=
  ⟨h.running, h.known, h.power, h.leftId, h.crashN, h.streak, h.unread, h.cache⟩

theorem of_phase {d d' : Device} {phase : Phase} (h : GuardFrame { d with phase } d') :
    GuardFrame d d' :=
  ⟨h.running, h.known, h.power, h.leftId, h.crashN, h.streak, h.unread, h.cache⟩

theorem store (d : Device) (write : BootNvs → BootNvs)
    (keeps : (write d.nvs).crashN = d.nvs.crashN) (left : (write d.nvs).leftId = d.nvs.leftId) :
    GuardFrame d (d.store write) := by
  have kept : (d.store write).nvs.crashN = d.nvs.crashN := by
    obtain same | put := store_cases d write
    · rw [same]
    · rw [put, keeps]
  have keptLeft : (d.store write).nvs.leftId = d.nvs.leftId := by
    obtain same | put := store_cases d write
    · rw [same]
    · rw [put, left]
  refine ⟨by simp, by simp, store_power_le d write, keptLeft, .inl kept,
    fun _ => .inr ⟨kept, by simp⟩, by simp, ?_⟩
  intro reads
  simpa [ReadsConfirmed] using reads

theorem clear (d : Device) : GuardFrame d (d.store zeroStreak) := by
  refine ⟨by simp, by simp, store_power_le d zeroStreak, ?_, ?_, ?_, by simp, ?_⟩
  · obtain same | put := store_cases d zeroStreak
    · rw [same]
    · rw [put, zeroStreak]
  · obtain same | put := store_cases d zeroStreak
    · exact .inl (by rw [same])
    · exact .inr (by rw [put, zeroStreak])
  · intro alive
    exact .inl (by rw [(store_landed alive).1, zeroStreak])
  · intro reads
    simpa [ReadsConfirmed] using reads

/-- A known streak may be zeroed in RAM with its stored copy. -/
theorem clearRam {d : Device} (known : d.ram.streakKnown = true) :
    GuardFrame d ((d.store zeroStreak).setRam ({ · with crashStreak := 0 })) := by
  have h := clear d
  refine ⟨h.running, h.known, h.power, h.leftId, h.crashN, ?_, ?_, h.cache⟩
  · intro alive
    exact .inl (by rw [setRam_nvs, (store_landed alive).1, zeroStreak])
  · intro unknown
    rw [known] at unknown
    cases unknown

theorem setRam (d : Device) (set : BootRam → BootRam)
    (known : (set d.ram).streakKnown = d.ram.streakKnown)
    (streak : (set d.ram).crashStreak = d.ram.crashStreak)
    (cache : ReadsConfirmed d → ReadsConfirmed (d.setRam set)) : GuardFrame d (d.setRam set) :=
  ⟨rfl, known, le_rfl, rfl, .inl rfl, fun _ => .inr ⟨rfl, streak⟩, fun _ => streak, cache⟩

theorem mark (d : Device) (put : OtaData → OtaData)
    (kept : ∀ o s, (put o).state s = some .pendingVerify → o.state s = some .pendingVerify) :
    GuardFrame d (d.mark put) := by
  refine ⟨by simp, by simp, mark_power_le d put, by simp, .inl (by simp),
    fun _ => .inr (by simp), by simp, ?_⟩
  intro reads known confirmed pending
  simp only [mark_ram] at known confirmed
  refine reads known confirmed ?_
  rw [mark_running] at pending
  obtain same | ⟨-, marked⟩ := mark_cases d put
  · rwa [same] at pending
  · rw [marked] at pending
    exact kept _ _ pending

theorem clearCrashStreak (io : PutIo) (d : Device) :
    GuardFrame d (clearCrashStreak io d).2 := by
  obtain cleared | cleared := clearCrashStreak_cases io d
  · rw [cleared]
    exact clear d
  · rw [cleared]
    exact refl d

/-- A failed clear leaves the streak in RAM as it was. -/
theorem clearCrashStreakRam {io : PutIo} {d : Device} (known : d.ram.streakKnown = true)
    (cleared : (Ota.clearCrashStreak io d).1 = true) :
    GuardFrame d ((Ota.clearCrashStreak io d).2.setRam ({ · with crashStreak := 0 })) := by
  obtain done | failed := clearCrashStreak_cases io d
  · rw [done]
    exact clearRam known
  · rw [failed] at cleared
    cases cleared

end GuardFrame

/-! Which slots an otadata write can leave pending. -/

theorem markAppValid_pending (o : OtaData) (s : Slot)
    (h : (markAppValid o).state s = some .pendingVerify) : o.state s = some .pendingVerify := by
  rw [markAppValid, setState_state] at h
  split at h
  · cases h
  · exact h

theorem markAppInvalid_pending (o : OtaData) (s : Slot)
    (h : (markAppInvalid o).state s = some .pendingVerify) : o.state s = some .pendingVerify := by
  rw [show (markAppInvalid o).state = (o.setState o.bootSlot .invalid).state from rfl,
    setState_state] at h
  split at h
  · cases h
  · exact h

theorem setBootPartition_pending (slot : Slot) (o : OtaData) (s : Slot)
    (h : (setBootPartition slot o).state s = some .pendingVerify) :
    o.state s = some .pendingVerify := by
  rw [show (setBootPartition slot o).state = (o.setState slot .new).state from rfl,
    setState_state] at h
  split at h
  · cases h
  · exact h

theorem verifyRollbackLater_frame (io : LaterIo) (d : Device) :
    GuardFrame d (verifyRollbackLater io d).2 := by
  have noted (rescue : UInt8) (pending : Bool) :
      GuardFrame d (d.setRam ({ · with bootRescue := rescue, bootPending := pending })) :=
    .setRam _ _ rfl rfl id
  have flagged (rescue : UInt8) (pending : Bool) :
      GuardFrame d ((d.setRam ({ · with bootRescue := rescue, bootPending := pending })).store
        ({ · with rescue := some 0 })) := (noted rescue pending).trans (.store _ _ rfl rfl)
  simp only [verifyRollbackLater]
  split_ifs
  · exact .refl d
  all_goals first | exact noted _ _ | exact flagged _ _

theorem initArduino_frame (io : LaterIo) (d : Device) : GuardFrame d (initArduino io d) := by
  have later := verifyRollbackLater_frame io d
  simp only [initArduino]
  split
  · exact (later.trans (.mark _ _ markAppValid_pending)).phase .setup
  · exact later.phase .setup

theorem armRescue_frame (io : RollbackIo) {d : Device} (known : d.ram.streakKnown = true) :
    GuardFrame d (armRescue io d).2 := by
  simp only [armRescue]
  split_ifs
  · exact .refl d
  · exact .clearRam known
  · exact (GuardFrame.clearRam known).trans
      (GuardFrame.store _ ({ · with rescue := some OTA_RESCUE_ID }) rfl rfl)

theorem disarmRescue_frame (io : PutIo) (d : Device) : GuardFrame d (disarmRescue io d) := by
  simp only [disarmRescue]
  split
  · exact .store _ _ rfl rfl
  · exact .refl d

theorem rollbackPending_frame (io : RollbackIo) {d : Device} (known : d.ram.streakKnown = true) :
    GuardFrame d (rollbackPending io d) := by
  have valid (d : Device) : GuardFrame d (d.mark markAppValid) := .mark _ _ markAppValid_pending
  have invalid (d : Device) : GuardFrame d (d.mark markAppInvalid) :=
    .mark _ _ markAppInvalid_pending
  have clear := GuardFrame.clearCrashStreak io.clear d
  simp only [rollbackPending]
  split
  · split_ifs with taken cleared cleared
    · exact (GuardFrame.clearCrashStreakRam known cleared).trans (valid _)
    · exact clear.trans (valid _)
    · exact .clearCrashStreakRam known cleared
    · exact clear
  · split
    · exact (clear.trans (invalid _)).phase .down
    · exact clear

theorem switchSlot_frame (io : RollbackIo) {d : Device} (known : d.ram.streakKnown = true) :
    GuardFrame d (switchSlot io d) := by
  have armed := armRescue_frame io known
  simp only [switchSlot]
  split
  · exact .refl d
  · split_ifs
    · exact .refl d
    · exact armed
    · exact armed.trans (disarmRescue_frame io.disarm _)
    · exact (armed.trans (.mark _ _ (setBootPartition_pending _))).phase .down

theorem rollbackIfCrashLoop_frame (io : RollbackIo) (d : Device) :
    GuardFrame d (rollbackIfCrashLoop io d) := by
  simp only [rollbackIfCrashLoop]
  split_ifs with gate
  · exact (GuardFrame.refl d).phase .loop
  all_goals
    have known : d.ram.streakKnown = true := by
      simp only [Bool.or_eq_true, not_or, Bool.not_eq_true'] at gate
      simpa using gate.1
  · exact .of_phase (rollbackPending_frame io (d := { d with phase := .loop }) known)
  · exact .of_phase (switchSlot_frame io (d := { d with phase := .loop }) known)
  · exact (GuardFrame.refl d).phase .loop

theorem settleUsb_frame (io : ConfirmIo) (d : Device) : GuardFrame d (settleUsb io d) := by
  have marked : GuardFrame d (markUsbImageValid io d).2 := by
    obtain ⟨-, done⟩ | failed := markUsbImageValid_cases io d
    · rw [done]
      exact .mark _ _ markAppValid_pending
    · rw [failed]
      exact .refl d
  simp only [settleUsb]
  split_ifs
  · exact .setRam _ _ rfl rfl id
  · exact .refl d
  · exact marked.trans (.setRam _ _ rfl rfl id)
  · exact marked.trans (.setRam _ _ rfl rfl id)

theorem settleConfirmed_frame (io : ConfirmIo) (d : Device) :
    GuardFrame d (settleConfirmed io d) := by
  simp only [settleConfirmed]
  split_ifs with unknown zero due cleared
  · exact .setRam _ _ rfl rfl id
  · exact settleUsb_frame io d
  · exact .refl d
  · exact (GuardFrame.clearCrashStreak io.clear d).trans (.setRam _ _ rfl rfl id)
  · have known : d.ram.streakKnown = true := by
      simp only [Bool.or_eq_true, not_or, Bool.not_eq_true'] at unknown
      simpa using unknown.1
    exact (GuardFrame.clearCrashStreakRam known (by simpa using cleared)).trans
      (settleUsb_frame io _)

theorem confirmPending_frame (io : ConfirmIo) (d : Device) :
    GuardFrame d (confirmPending io d) := by
  have clear := GuardFrame.clearCrashStreak io.clear d
  simp only [confirmPending]
  split_ifs
  · exact .refl d
  · exact .refl d
  · exact clear
  · exact clear
  · exact clear.trans ((GuardFrame.mark _ _ markAppValid_pending).trans (.setRam _ _ rfl rfl id))

theorem markProvenOnBroker_frame (io : PutIo) (d : Device) :
    GuardFrame d (markProvenOnBroker io d) := by
  have tried : GuardFrame d (d.setRam ({ · with provenDone := true })) := .setRam _ _ rfl rfl id
  simp only [markProvenOnBroker]
  split
  · exact .refl d
  · split
    · exact tried
    · split
      · exact tried.trans (.store _ _ rfl rfl)
      · exact tried

theorem readRunState_frame (d : Device) : GuardFrame d (readRunState d) := by
  obtain ⟨-, running, crashN, known, streak⟩ := readRunState_keeps d
  have power : (readRunState d).power = d.power := by
    simp only [readRunState]
    split
    · rfl
    · split <;> rfl
  have leftId : (readRunState d).nvs.leftId = d.nvs.leftId := by
    simp only [readRunState]
    split
    · rfl
    · split <;> rfl
  exact ⟨running, known, power.le, leftId, .inl crashN, fun _ => .inr ⟨crashN, streak⟩, fun _ => streak,
    readRunState_reads⟩

theorem confirmIfHealthy_frame (io : ConfirmIo) (d : Device) :
    GuardFrame d (confirmIfHealthy io d) := by
  have proven := markProvenOnBroker_frame io.proven d
  have read := proven.trans (readRunState_frame _)
  simp only [confirmIfHealthy]
  split_ifs
  · exact proven
  · exact read
  · exact read.trans (confirmPending_frame io _)
  · exact read.trans (settleConfirmed_frame io _)

/-! ## What a boot counts -/

theorem store_crashN {d : Device} {write : BootNvs → BootNvs}
    (keeps : (write d.nvs).crashN = d.nvs.crashN) : (d.store write).nvs.crashN = d.nvs.crashN := by
  obtain same | put := store_cases d write
  · rw [same]
  · rw [put, keeps]

theorem updateLeftRecord_crashN (io : RecordIo) (d : Device) :
    (updateLeftRecord io d).nvs.crashN = d.nvs.crashN := by
  simp only [updateLeftRecord, recordArrival, dropStaleLeft]
  repeat' split
  all_goals simp [store_crashN]

/-- How `recordBootStreak` leaves the streak when a call fails. -/
structure Unread (d d' : Device) : Prop where
  known : d'.ram.streakKnown = false
  streak : d'.ram.crashStreak = OTA_HEALTH_CRASH_LIMIT
  crashN : d'.nvs.crashN = d.nvs.crashN

/-- How it leaves the streak of a boot it counts. -/
structure Counted (count : Nat) (d d' : Device) : Prop where
  known : d'.ram.streakKnown = true
  streak : d'.ram.crashStreak = count
  stored : 0 < d'.power → d'.nvs.crashN = some count
  crashN : d'.nvs.crashN = d.nvs.crashN ∨ d'.nvs.crashN = some count

theorem storeStreak_cases (io : RecordIo) (kind : OtaResetClass) (d : Device) :
    Unread d (storeStreak io kind d) ∨ Counted (nextStreak io kind d) d (storeStreak io kind d) := by
  simp only [storeStreak]
  split
  · exact .inl ⟨rfl, rfl, rfl⟩
  · refine .inr ⟨rfl, rfl, ?_, ?_⟩
    · intro alive
      rw [setRam_nvs, (store_landed alive).1]
    · obtain same | put := store_cases d ({ · with crashN := some (nextStreak io kind d) })
      · exact .inl (by rw [setRam_nvs, same])
      · exact .inr (by rw [setRam_nvs, put])

theorem countBrownout_crashN (io : RecordIo) (d : Device) :
    (countBrownout io d).nvs.crashN = d.nvs.crashN := by
  simp only [countBrownout]
  split
  · exact store_crashN rfl
  · rfl

/-- A boot is counted from the stored streak, or left unread at the limit. -/
theorem recordBootStreak_cases (io : RecordIo) (d : Device) :
    Unread d (recordBootStreak io d) ∨
      Counted (nextStreak io (bootClass io d) d) d (recordBootStreak io d) := by
  have left := updateLeftRecord_crashN io
    { d with marker := (otaHealthTakePlanned d.marker).2, phase := .rollback }
  simp only [recordBootStreak]
  split_ifs
  · exact .inl ⟨rfl, rfl, rfl⟩
  · exact .inl ⟨rfl, rfl, left⟩
  · generalize updateLeftRecord io _ = recorded at left
    have crashN := (countBrownout_crashN io recorded).trans left
    have same : nextStreak io (bootClass io d)
        ((countBrownout io recorded).setRam ({ · with provenDone := imageProven io d })) =
          nextStreak io (bootClass io d) d := by
      rw [nextStreak, nextStreak, setRam_nvs, crashN]
    obtain unread | counted := storeStreak_cases io (bootClass io d)
      ((countBrownout io recorded).setRam ({ · with provenDone := imageProven io d }))
    · exact .inl ⟨unread.known, unread.streak, unread.crashN.trans crashN⟩
    · rw [same] at counted
      refine .inr ⟨counted.known, counted.streak, counted.stored, ?_⟩
      rw [← crashN]
      exact counted.crashN

theorem recordBootStreak_keeps (io : RecordIo) (d : Device) :
    (recordBootStreak io d).ota = d.ota ∧ (recordBootStreak io d).running = d.running ∧
      (recordBootStreak io d).ram.stateKnown = d.ram.stateKnown ∧
      (recordBootStreak io d).ram.pending = d.ram.pending := by
  simp only [recordBootStreak, storeStreak, countBrownout, streakUnread]
  split_ifs <;> simp

/-! ## Runs of boots -/

/-- The start of a run: the device waits for its first reset. -/
def PoweredOff (d : Device) : Prop := d.phase = .down ∧ d.ram = .zero

def BootEvent.isReset : BootEvent → Bool
  | .reset _ _ _ _ => true
  | _ => false

def BootEvent.isRecord : BootEvent → Bool
  | .recordBootStreak _ => true
  | _ => false

theorem bootStep_frame (d : Device) {e : BootEvent} (notReset : e.isReset = false)
    (notRecord : e.isRecord = false) : GuardFrame d (bootStep d e) := by
  cases e with
  | reset reason rtc next power => cases notReset
  | recordBootStreak io => cases notRecord
  | initArduino io => exact initArduino_frame io d
  | rollbackIfCrashLoop io => exact rollbackIfCrashLoop_frame io d
  | confirmIfHealthy io => exact confirmIfHealthy_frame io d
  | noteMqttUp => exact .setRam d ({ · with mqttUp := true }) rfl rfl id
  | plannedRestart => exact ⟨rfl, rfl, le_rfl, rfl, .inl rfl, fun _ => .inr ⟨rfl, rfl⟩, fun _ => rfl, id⟩
  | brokerRestart => exact ⟨rfl, rfl, le_rfl, rfl, .inl rfl, fun _ => .inr ⟨rfl, rfl⟩, fun _ => rfl, id⟩
  | applyUpdate image =>
      exact .mark d (installUpdate d.running.other image) (setBootPartition_pending d.running.other)

theorem bootStep_reads {d : Device} (e : BootEvent) (h : ReadsConfirmed d) :
    ReadsConfirmed (bootStep d e) := by
  by_cases reset : e.isReset = true
  · cases e with
    | reset reason rtc next power =>
        intro known
        cases known
    | _ => cases reset
  · by_cases record : e.isRecord = true
    · cases e with
      | recordBootStreak io =>
          obtain ⟨ota, running, known, pending⟩ := recordBootStreak_keeps io d
          change ReadsConfirmed (recordBootStreak io d)
          rw [ReadsConfirmed, ota, running, known, pending]
          exact h
      | _ => cases record
    · exact (bootStep_frame d (by simpa using reset) (by simpa using record)).cache h

/-- The streak is at the limit and no other slot is a rollback target. -/
def NoWayBack (d : Device) (e : BootEvent) : Prop :=
  d.ram.streakKnown = true ∧ OTA_HEALTH_CRASH_LIMIT ≤ d.ram.crashStreak ∧
    ∃ io, e = .rollbackIfCrashLoop io ∧ rollbackTarget io d = none

theorem confirms_cases {d : Device} {e : BootEvent} (reads : ReadsConfirmed d)
    (notReset : e.isReset = false) (h : ConfirmsPending d (bootStep d e)) :
    HealthConfirm d (bootStep d e) ∨ NoWayBack d e ∨ RescueConfirm d (bootStep d e) := by
  cases e with
  | reset reason rtc next power => cases notReset
  | initArduino io => exact .inr (.inr (initArduino_confirms h))
  | recordBootStreak io =>
      exact absurd h (not_confirms_of_ota_eq (recordBootStreak_keeps io d).1)
  | rollbackIfCrashLoop io =>
      obtain ⟨known, limit, target⟩ := rollbackIfCrashLoop_confirms h
      exact .inr (.inl ⟨known, limit, io, rfl, target⟩)
  | confirmIfHealthy io => exact .inl (confirmIfHealthy_confirms reads h)
  | noteMqttUp => exact absurd h (not_confirms_of_ota_eq rfl)
  | plannedRestart => exact absurd h (not_confirms_of_ota_eq rfl)
  | brokerRestart => exact absurd h (not_confirms_of_ota_eq rfl)
  | applyUpdate image =>
      have marked := mark_cases d (installUpdate d.running.other image)
      exact absurd h (not_confirms_of_mark (installUpdate d.running.other image)
        d.running.other .new (marked.imp_right And.right) rfl (by decide))

/-! ## The count over many boots -/

/-- The stored streak. -/
def storedStreak (d : Device) : Nat := d.nvs.crashN.getD 0

/-- A boot with a reset of class `crash`, counted and lived on from. -/
def countsCrash (d : Device) : BootEvent → Bool
  | .recordBootStreak io =>
      bootClass io d = .crash && (recordBootStreak io d).ram.streakKnown &&
        0 < (recordBootStreak io d).power
  | _ => false

/-- A step other than a boot's count stores the streak as zero. -/
def ClearsStreak (d : Device) (e : BootEvent) : Prop :=
  e.isRecord = false ∧ d.nvs.crashN ≠ some 0 ∧ (bootStep d e).nvs.crashN = some 0

instance (d : Device) (e : BootEvent) : Decidable (ClearsStreak d e) :=
  inferInstanceAs (Decidable (_ ∧ _ ∧ _))

/-- A boot of class `hold` or `crash` that reads its streak. -/
def AddsUp (d : Device) : BootEvent → Prop
  | .recordBootStreak io =>
      io.crashRead = true ∧ (bootClass io d = .hold ∨ bootClass io d = .crash)
  | _ => True

instance (d : Device) : (e : BootEvent) → Decidable (AddsUp d e)
  | .recordBootStreak _ => inferInstanceAs (Decidable (_ ∧ _))
  | .reset _ _ _ _ | .initArduino _ | .rollbackIfCrashLoop _ | .confirmIfHealthy _
  | .noteMqttUp | .plannedRestart | .brokerRestart | .applyUpdate _ => isTrue trivial

/-- No clear, no boot that starts the streak anew, and no wrap of the 32-bit count. -/
def KeepsCount (d : Device) (e : BootEvent) : Prop :=
  ¬ ClearsStreak d e ∧ AddsUp d e ∧ storedStreak d + 1 < Word32.size

instance (d : Device) (e : BootEvent) : Decidable (KeepsCount d e) :=
  inferInstanceAs (Decidable (_ ∧ _ ∧ _))

theorem nextStreak_of_crash {io : RecordIo} {d : Device} (read : io.crashRead = true)
    (bounded : storedStreak d + 1 < Word32.size) :
    nextStreak io .crash d = storedStreak d + 1 := by
  simp only [nextStreak, read, if_true, otaHealthNextCrashStreak]
  exact Word32.add_of_lt bounded

theorem nextStreak_of_hold {io : RecordIo} {d : Device} (read : io.crashRead = true) :
    nextStreak io .hold d = storedStreak d := by
  simp [nextStreak, read, otaHealthNextCrashStreak, storedStreak]

/-- A boot of such a run never lowers the stored streak, and a counted one raises it. -/
theorem storedStreak_grows {d : Device} {e : BootEvent} (h : KeepsCount d e) :
    storedStreak d + (if countsCrash d e then 1 else 0) ≤ storedStreak (bootStep d e) := by
  obtain ⟨noClear, adds, bounded⟩ := h
  by_cases record : e.isRecord = true
  · cases e with
    | recordBootStreak io =>
        obtain ⟨read, kind⟩ := adds
        obtain unread | counted := recordBootStreak_cases io d
        · simp [countsCrash, unread.known, storedStreak, bootStep, unread.crashN]
        · obtain hold | crash := kind
          · rw [hold, nextStreak_of_hold read] at counted
            have kept : storedStreak (bootStep d (.recordBootStreak io)) = storedStreak d := by
              obtain same | stored := counted.crashN
              · simp [storedStreak, bootStep, same]
              · simp [storedStreak, bootStep, stored]
            simp [countsCrash, hold, kept]
          · rw [crash, nextStreak_of_crash read bounded] at counted
            by_cases alive : 0 < (recordBootStreak io d).power
            · have stored := counted.stored alive
              simp [countsCrash, crash, counted.known, alive, storedStreak, bootStep, stored]
            · have raised : storedStreak d ≤ storedStreak (bootStep d (.recordBootStreak io)) := by
                obtain same | stored := counted.crashN
                · simp [storedStreak, bootStep, same]
                · simp [storedStreak, bootStep, stored]
              simpa [countsCrash, alive] using raised
    | _ => cases record
  · have record : e.isRecord = false := by simpa using record
    have uncounted : countsCrash d e = false := by
      cases e with
      | recordBootStreak io => cases record
      | _ => rfl
    have kept : (bootStep d e).nvs.crashN = d.nvs.crashN := by
      by_cases reset : e.isReset = true
      · cases e with
        | reset reason rtc next power => rfl
        | _ => cases reset
      · obtain same | zero := (bootStep_frame d (by simpa using reset) record).crashN
        · exact same
        · by_contra changed
          exact noClear ⟨record, fun already => changed (zero.trans already.symm), zero⟩
    simp [uncounted, storedStreak, kept]

/-- What the loop sees: a known streak is not under the stored one, an unread one is at the
limit. -/
def StreakShown (d : Device) : Prop :=
  0 < d.power → d.phase = .rollback ∨ d.phase = .loop →
    if d.ram.streakKnown then storedStreak d ≤ d.ram.crashStreak
    else OTA_HEALTH_CRASH_LIMIT ≤ d.ram.crashStreak

theorem streakShown_of_frame {d d' : Device} (frame : GuardFrame d d')
    (phase : d.phase = .rollback ∨ d.phase = .loop) (shown : StreakShown d) :
    StreakShown d' := by
  intro alive _
  have before := shown (alive.trans_le frame.power) phase
  rw [frame.known]
  cases known : d.ram.streakKnown with
  | false =>
      simp only [known, Bool.false_eq_true, if_false] at before ⊢
      rw [frame.unread known]
      exact before
  | true =>
      simp only [known, if_true] at before ⊢
      obtain zero | ⟨crashN, streak⟩ := frame.streak alive
      · simp [storedStreak, zero]
      · rw [storedStreak, crashN, streak]
        exact before

theorem bootStep_shown {d : Device} {e : BootEvent} (shown : StreakShown d) (boots : Boots d e) :
    StreakShown (bootStep d e) := by
  cases e with
  | reset reason rtc next power =>
      intro _ phase
      simp [bootStep] at phase
  | initArduino io =>
      intro _ phase
      have setup : (initArduino io d).phase = .setup := by
        simp only [initArduino]
        split <;> rfl
      simp [bootStep, setup] at phase
  | recordBootStreak io =>
      intro alive _
      obtain unread | counted := recordBootStreak_cases io d
      · simp [bootStep, unread.known, unread.streak]
      · simp [bootStep, counted.known, counted.streak, storedStreak, counted.stored alive]
  | rollbackIfCrashLoop io =>
      exact streakShown_of_frame (rollbackIfCrashLoop_frame io d) (.inl boots.1) shown
  | confirmIfHealthy io =>
      exact streakShown_of_frame (confirmIfHealthy_frame io d) (.inr boots.1) shown
  | noteMqttUp => exact shown
  | plannedRestart =>
      intro _ phase
      simp [bootStep] at phase
  | brokerRestart =>
      intro _ phase
      simp [bootStep] at phase
  | applyUpdate image =>
      exact streakShown_of_frame (bootStep_frame d (e := .applyUpdate image) rfl rfl)
        (.inr boots.1) shown

/-- Three counted crash resets put the streak at the limit, whatever holds between. -/
theorem limit_of_three_crashes {d : Device} {es : List BootEvent} (shown : StreakShown d)
    (boots : Machine.Meets bootStep Boots d es) (keeps : Machine.Meets bootStep KeepsCount d es)
    (three : 3 ≤ Machine.tally bootStep countsCrash d es) :
    OTA_HEALTH_CRASH_LIMIT ≤ storedStreak (Machine.run bootStep d es) ∧
      (0 < (Machine.run bootStep d es).power →
        (Machine.run bootStep d es).phase = .rollback ∨
          (Machine.run bootStep d es).phase = .loop →
        OTA_HEALTH_CRASH_LIMIT ≤ (Machine.run bootStep d es).ram.crashStreak) := by
  have grown : storedStreak d + Machine.tally bootStep countsCrash d es ≤
      storedStreak (Machine.run bootStep d es) :=
    keeps.tally_le storedStreak fun _ _ h => storedStreak_grows h
  have limit : OTA_HEALTH_CRASH_LIMIT ≤ storedStreak (Machine.run bootStep d es) := by
    change 3 ≤ _
    omega
  refine ⟨limit, fun alive phase => ?_⟩
  have seen := boots.invariant (fun _ _ shown boots => bootStep_shown shown boots) shown alive phase
  split at seen
  · exact limit.trans seen
  · exact seen

/-! ## A planned restart into a pending image -/

theorem verifyRollbackLater_planned {io : LaterIo} {d : Device}
    (planned : (otaHealthTakePlanned d.marker).1 ≠ .none) : (verifyRollbackLater io d).1 = true := by
  have honoured (stored : UInt8) : otaHealthRescue stored d.marker = 0 := by
    by_contra h
    exact planned (unplanned_of_rescue h)
  simp only [verifyRollbackLater, honoured]
  split_ifs <;> simp

theorem initArduino_crashN (io : LaterIo) (d : Device) :
    (initArduino io d).nvs.crashN = d.nvs.crashN := by
  have later : (verifyRollbackLater io d).2.nvs.crashN = d.nvs.crashN := by
    simp only [verifyRollbackLater]
    split_ifs
    · rfl
    all_goals first | rfl | exact store_crashN rfl
  simp only [initArduino]
  split <;> simp [later]

/-- A planned marker keeps the core from confirming, so the boot is counted as pending. -/
theorem bootClass_after_planned (io : LaterIo) (io' : RecordIo) {d : Device}
    (reason : d.reason = OTA_RST_SW) (planned : (otaHealthTakePlanned d.marker).1 ≠ .none)
    (pending : d.ota.state d.running = some .pendingVerify) :
    bootClass io' (initArduino io d) = .fresh := by
  have later := verifyRollbackLater_ota io d
  have kept : (verifyRollbackLater io d).2.running = d.running ∧
      (verifyRollbackLater io d).2.reason = d.reason ∧
      (verifyRollbackLater io d).2.marker = d.marker := by
    simp only [verifyRollbackLater]
    split_ifs <;> simp
  simp [initArduino, verifyRollbackLater_planned planned, bootClass, otaHealthBootClass, kept,
    reason, planned, runningImageIs, later, pending]

/-! ## Every run -/

/-- Three crash resets with brownouts between them, from a valid image in `app0`. -/
def crashesAndBrownouts : List BootEvent :=
  [OTA_RST_PANIC, OTA_RST_BROWNOUT, OTA_RST_TASK_WDT, OTA_RST_BROWNOUT, OTA_RST_SW,
    OTA_RST_BROWNOUT].flatMap fun reason =>
      countedBoot reason (sampleOta .app0 .valid .undefined) .lands

/-- A boot of a pending image that reaches its broker. -/
def pendingBoot : List BootEvent :=
  countedBoot OTA_RST_POWERON (sampleOta .app1 .valid .pendingVerify) .lands ++
    [.rollbackIfCrashLoop .lands, .noteMqttUp]

end Thesada.Ota
