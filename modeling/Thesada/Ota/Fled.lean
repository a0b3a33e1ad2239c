import Thesada.Library.Machine
import Thesada.Library.Word32
import Thesada.Ota.VerifyPolicy

/-!
# The fled record across checks, turns and boots

The record of a fled release lives in three places: the NVS keys `fled_age` and
`fled_ver`, a pair of RTC words with the seconds not yet saved, and the RAM struct
`_fled` a boot loads once. A loop turn ages the record, an update check that meets the
recorded version refuses it or spends a try, and a reset keeps only what landed.

Each turn and each check is one event. An event carries what it reads of the
environment: whether NVS answered, what the clock shows (0 while unsynced), and how far
a download came. `now` is the true time, which the code never reads; `turnAt` is the
time of the last turn or boot, kept for statements only.
-/

namespace Thesada.Ota

open CString

/-! ## State -/

/-- The RAM copy `_fled`, zeroed by every boot. -/
structure Fled where
  loaded : Bool
  savedThisBoot : Bool
  ver : Str
  saved : OtaFledAge
  /-- Unsaved seconds an earlier boot left in RTC memory. -/
  carry : Nat
  /-- `millis` at the last save of this boot. -/
  markMs : Nat
  deriving DecidableEq, Repr

def Fled.fresh : Fled where
  loaded := false
  savedThisBoot := false
  ver := []
  saved := .zero
  carry := 0
  markMs := 0

structure FledState where
  /-- NVS key `fled_age`. -/
  fledAge : Option Nat
  /-- NVS key `fled_ver`. -/
  fledVer : Option Str
  /-- The RTC words `_otaFledUnsaved`. -/
  unsaved : UInt32 × UInt32
  fled : Fled
  /-- `FIRMWARE_VERSION` of the running image. -/
  running : Str
  /-- True time and the true time of this boot and of its last turn, in ms. -/
  now : Nat
  bootAt : Nat
  turnAt : Nat

/-- What one turn or check meets. -/
structure FledEnv where
  readOk : Bool
  writeOk : Bool
  /-- `syncedEpoch()`. -/
  epoch : UInt32

/-- How far the download of a check comes. `cut` is a reset before it starts. -/
inductive Install where
  | cut
  | failed
  | installed (ageOk verOk : Bool)
  deriving DecidableEq, Repr

inductive FledEvent where
  | wait (ms : Nat)
  | turn (env : FledEnv)
  | check (env : FledEnv) (remote : Str) (force : Bool) (install : Install)
  /-- `rtc` is the pair the reset leaves, or none when RTC memory is kept. -/
  | reset (offMs : Nat) (rtc : Option (UInt32 × UInt32)) (running : Str)

/-! ## Operations -/

/-- `millis()`. -/
def millis (s : FledState) : Nat := Word32.sub s.now s.bootAt

def putFledUnsaved (s : FledState) (seconds : Nat) : FledState :=
  { s with unsaved := (UInt32.ofNat seconds, ~~~UInt32.ofNat seconds) }

/-- A fresh day for one version. The age is written first. -/
def putFledRecord (s : FledState) (version : Str) (ageOk verOk : Bool) : FledState :=
  putFledUnsaved
    { s with
      fledAge := if ageOk then some (otaFledPack .zero) else s.fledAge
      fledVer := if ageOk && verOk then some version else s.fledVer } 0

/-- A text that does not fit `_fled.ver` with its terminator is not read. -/
def fledVerRead (stored : Option Str) : Str :=
  match stored with
  | none => []
  | some v => if v.length < 32 then v else []

/-- `loadFled`: the RTC carry is taken once and zeroed. -/
def loadFled (s : FledState) (readOk : Bool) : FledState :=
  if s.fled.loaded then s
  else
    let carry := otaFledCarry s.unsaved.1 s.unsaved.2
    let fled := { s.fled with loaded := true, carry }
    if !readOk then putFledUnsaved { s with fled } 0
    else
      let saved := match s.fledAge with
        | none => s.fled.saved
        | some word => otaFledUnpack word
      putFledUnsaved { s with fled := { fled with ver := fledVerRead s.fledVer, saved } } 0

def fledUnsavedS (s : FledState) : Nat :=
  s.fled.carry + Word32.sub (millis s) s.fled.markMs / 1000

/-- The saved age plus the time since that save. -/
def fledAgeNow (s : FledState) (epoch : UInt32) : Nat :=
  otaFledAdvance s.fled.saved.ageS
    (otaFledElapsed (fledUnsavedS s) (!s.fled.savedThisBoot) s.fled.saved.seenEpoch epoch)

/-- `saveFled`. A failed write still moves the count on in RAM. -/
def saveFled (s : FledState) (env : FledEnv) (ageS : Nat) (tries : UInt8) : FledState :=
  let next : OtaFledAge := { ageS, tries, seenEpoch := env.epoch }
  putFledUnsaved
    { s with
      fledAge := if env.writeOk then some (otaFledPack next) else s.fledAge
      fled := { s.fled with
        saved := next, savedThisBoot := true, carry := 0, markMs := millis s } } 0

/-- The build an install boots pending is recorded, unless the record names it. -/
def recordInstalledBuild (s : FledState) (version : Str) (ageOk verOk : Bool) : FledState :=
  if !otaFledRecordsInstall s.fled.ver version then s else putFledRecord s version ageOk verOk

/-- `ageFledRelease`, once a turn. -/
def ageFledRelease (s : FledState) (env : FledEnv) : FledState :=
  let s := loadFled s env.readOk
  if !otaFledAges s.fled.ver s.running s.fled.saved.ageS then s
  else if !otaFledSaveDue (fledUnsavedS s) false then putFledUnsaved s (fledUnsavedS s)
  else saveFled s env (fledAgeNow s env.epoch) s.fled.saved.tries

/-! ## The gate of a check -/

inductive FledVerdict where
  | upToDate
  /-- Refused by the skip. -/
  | skipped
  /-- Refused because the try could not be saved. -/
  | unsaved
  | download (action : OtaFledAction)
  deriving DecidableEq, Repr

/-- A try is saved before its download. `saveFled` moved RAM on, so a try that NVS did
not take is put back. -/
def spendTry (s : FledState) (env : FledEnv) (action : OtaFledAction) (fledAge : Nat) :
    FledVerdict × FledState :=
  let tries := s.fled.saved.tries
  let spent := otaFledAfterTry action fledAge tries true
  let next := saveFled s env spent.ageS spent.tries
  if !otaFledMayDownload action env.writeOk then
    let kept := otaFledAfterTry action fledAge tries false
    let saved := { next.fled.saved with ageS := kept.ageS, tries := kept.tries }
    (.unsaved, { next with fled := { next.fled with saved } })
  else (.download action, next)

/-- `check` from the version compare to the download. -/
def fledGate (s : FledState) (env : FledEnv) (remote : Str) (force : Bool) :
    FledVerdict × FledState :=
  if !otaShouldUpdate remote s.running force then (.upToDate, s)
  else
    let s := loadFled s env.readOk
    let fledAge := fledAgeNow s env.epoch
    match otaFledAction remote s.fled.ver fledAge s.fled.saved.tries force with
    | .skip =>
      if otaFledSaveDue (fledUnsavedS s) (!s.fled.savedThisBoot) then
        (.skipped, saveFled s env fledAge s.fled.saved.tries)
      else (.skipped, s)
    | .retry => spendTry s env .retry fledAge
    | .last => spendTry s env .last fledAge
    | .none => (.download .none, s)
    | .forced => (.download .forced, s)

/-- The state a whole check leaves, its install included. -/
def check (s : FledState) (env : FledEnv) (remote : Str) (force : Bool) (install : Install) :
    FledState :=
  let gate := fledGate s env remote force
  match gate.1, install with
  | .download _, .installed ageOk verOk => recordInstalledBuild gate.2 remote ageOk verOk
  | _, _ => gate.2

/-- One event. -/
def fledStep (s : FledState) : FledEvent → FledState
  | .wait ms => { s with now := s.now + ms }
  | .turn env => { ageFledRelease s env with turnAt := s.now }
  | .check env remote force install => check s env remote force install
  | .reset offMs rtc running =>
      let now := s.now + offMs
      { s with
        unsaved := rtc.getD s.unsaved, fled := .fresh, running, now, bootAt := now, turnAt := now }

/-! ## What a run shows -/

/-- The age an event computes, if it computes one. -/
def computedAge (s : FledState) : FledEvent → Option Nat
  | .turn env =>
      let s := loadFled s env.readOk
      if otaFledAges s.fled.ver s.running s.fled.saved.ageS &&
          otaFledSaveDue (fledUnsavedS s) false then
        some (fledAgeNow s env.epoch)
      else none
  | .check env remote force _ =>
      if otaShouldUpdate remote s.running force then
        some (fledAgeNow (loadFled s env.readOk) env.epoch)
      else none
  | _ => none

/-- The verdict of an event that is a check. -/
def verdict (s : FledState) : FledEvent → Option FledVerdict
  | .check env remote force _ => some (fledGate s env remote force).1
  | _ => none

/-- The event starts a download. -/
def downloads (s : FledState) : FledEvent → Bool
  | .check env remote force install =>
      match (fledGate s env remote force).1 with
      | .download _ => install ≠ .cut
      | _ => false
  | _ => false

/-- The event restarts the age at 0: the last try of an expired skip. -/
def restarts (s : FledState) (e : FledEvent) : Bool :=
  verdict s e = some (.download .last)

def isReset : FledEvent → Bool
  | .reset .. => true
  | _ => false

/-- A state with what its run has shown so far. -/
structure FledTrace where
  state : FledState
  /-- Downloads started since the age last restarted. -/
  downloads : Nat
  resets : Nat
  /-- The last age computed in this boot since the age last restarted. -/
  age : Option Nat

def fledTraceStep (t : FledTrace) (e : FledEvent) : FledTrace where
  state := fledStep t.state e
  downloads := (if restarts t.state e then 0 else t.downloads) +
    (if downloads t.state e then 1 else 0)
  resets := t.resets + (if isReset e then 1 else 0)
  age :=
    if isReset e || restarts t.state e then none
    else (computedAge t.state e).or t.age

/-- The boot after a record was written at `now`: a fresh day for `ver`. -/
def FledTrace.recorded (ver running : Str) (unsaved : UInt32 × UInt32) (now : Nat) :
    FledTrace where
  state :=
    { fledAge := some (otaFledPack .zero), fledVer := some ver, unsaved, fled := .fresh,
      running, now, bootAt := now, turnAt := now }
  downloads := 0
  resets := 0
  age := none

/-! ## Lemmas -/

section

variable (s : FledState)

@[simp] theorem putFledUnsaved_fled (seconds : Nat) : (putFledUnsaved s seconds).fled = s.fled := rfl
@[simp] theorem putFledUnsaved_fledAge (seconds : Nat) :
    (putFledUnsaved s seconds).fledAge = s.fledAge := rfl
@[simp] theorem putFledUnsaved_fledVer (seconds : Nat) :
    (putFledUnsaved s seconds).fledVer = s.fledVer := rfl
@[simp] theorem putFledUnsaved_now (seconds : Nat) : (putFledUnsaved s seconds).now = s.now := rfl
@[simp] theorem putFledUnsaved_bootAt (seconds : Nat) :
    (putFledUnsaved s seconds).bootAt = s.bootAt := rfl
@[simp] theorem putFledUnsaved_running (seconds : Nat) :
    (putFledUnsaved s seconds).running = s.running := rfl

theorem loadFled_of_loaded {s : FledState} (h : s.fled.loaded = true) (readOk : Bool) :
    loadFled s readOk = s := by
  simp [loadFled, h]

@[simp] theorem loadFled_loaded (readOk : Bool) : (loadFled s readOk).fled.loaded = true := by
  unfold loadFled
  split
  · assumption
  · dsimp only
    split <;> rfl

/-- A load touches neither NVS nor the clock. -/
theorem loadFled_frame (readOk : Bool) :
    (loadFled s readOk).fledAge = s.fledAge ∧ (loadFled s readOk).fledVer = s.fledVer ∧
      (loadFled s readOk).now = s.now ∧ (loadFled s readOk).bootAt = s.bootAt ∧
      (loadFled s readOk).running = s.running ∧ (loadFled s readOk).turnAt = s.turnAt := by
  unfold loadFled
  dsimp only
  repeat' split
  all_goals exact ⟨rfl, rfl, rfl, rfl, rfl, rfl⟩

/-- The RTC pair that was put reads back as at most what was put. -/
theorem otaFledCarry_put_le (seconds : Nat) :
    otaFledCarry (putFledUnsaved s seconds).unsaved.1 (putFledUnsaved s seconds).unsaved.2 ≤
      seconds := by
  unfold otaFledCarry putFledUnsaved
  have : (UInt32.ofNat seconds).toNat ≤ seconds := by
    rw [UInt32.toNat_ofNat']
    exact Nat.mod_le _ _
  simp only [ne_eq, not_true, if_false]
  omega

/-- The age saved in NVS, as a boot would load it. -/
def storedAge (s : FledState) : OtaFledAge := otaFledUnpack (s.fledAge.getD 0)

theorem storedAge_recorded (ver running : Str) (unsaved : UInt32 × UInt32) (now : Nat) :
    storedAge (FledTrace.recorded ver running unsaved now).state = .zero := by
  simp [storedAge, FledTrace.recorded]

/-- What `saveFled` leaves in NVS: the new word when it landed, else the old one. -/
theorem storedAge_saveFled (env : FledEnv) (ageS : Nat) (tries : UInt8) :
    storedAge (saveFled s env ageS tries) =
      if env.writeOk then { ageS := min ageS OTA_FLED_SKIP_S, tries, seenEpoch := env.epoch }
      else storedAge s := by
  unfold storedAge saveFled
  cases env.writeOk <;> simp [otaFledUnpack_pack]

theorem fledAgeNow_le (epoch : UInt32) : fledAgeNow s epoch ≤ OTA_FLED_SKIP_S := by
  rw [fledAgeNow, otaFledAdvance_eq]
  exact Nat.min_le_right _ _

/-- An expired age stays expired whatever is added. -/
theorem fledAgeNow_of_expired {s : FledState} (expired : OTA_FLED_SKIP_S ≤ s.fled.saved.ageS)
    (epoch : UInt32) : fledAgeNow s epoch = OTA_FLED_SKIP_S := by
  rw [fledAgeNow, otaFledAdvance_eq]
  omega

/-- A try that NVS did not take: RAM as a save of the old count leaves it, NVS as it was. -/
theorem spendTry_cases (env : FledEnv) {action : OtaFledAction} (fledAge : Nat)
    (isTry : action = .retry ∨ action = .last) :
    (env.writeOk = true ∧ spendTry s env action fledAge = (.download action,
        saveFled s env (otaFledAfterTry action fledAge s.fled.saved.tries true).ageS
          (otaFledAfterTry action fledAge s.fled.saved.tries true).tries)) ∨
      (env.writeOk = false ∧ spendTry s env action fledAge = (.unsaved,
        saveFled s env fledAge s.fled.saved.tries)) := by
  unfold spendTry
  cases landed : env.writeOk with
  | true => exact .inl ⟨rfl, by simp [otaFledMayDownload]⟩
  | false =>
      refine .inr ⟨rfl, ?_⟩
      rcases isTry with rfl | rfl <;>
        simp [otaFledMayDownload, otaFledAfterTry, saveFled, putFledUnsaved, landed]

/-- What the gate does with the recorded version when the check is not forced. -/
theorem fledGate_offered {s : FledState} {env : FledEnv} {remote : Str}
    (same : otaSameVersion remote (loadFled s env.readOk).fled.ver = true) :
    let l := loadFled s env.readOk
    let a := fledAgeNow l env.epoch
    (otaShouldUpdate remote s.running false = false ∧
        fledGate s env remote false = (.upToDate, s)) ∨
      otaShouldUpdate remote s.running false = true ∧
      ((a < OTA_FLED_SKIP_S ∧ ∃ next, (next = saveFled l env a l.fled.saved.tries ∨
            next = l ∧ l.fled.savedThisBoot = true) ∧
          fledGate s env remote false = (.skipped, next)) ∨
        (OTA_FLED_SKIP_S ≤ a ∧ l.fled.saved.tries.toNat = 0 ∧
          fledGate s env remote false = spendTry l env .retry a) ∨
        (OTA_FLED_SKIP_S ≤ a ∧ 0 < l.fled.saved.tries.toNat ∧
          fledGate s env remote false = spendTry l env .last a)) := by
  intro l a
  cases newer : otaShouldUpdate remote s.running false with
  | false => exact .inl ⟨rfl, by simp [fledGate, newer]⟩
  | true =>
      refine .inr ⟨rfl, ?_⟩
      have gate : fledGate s env remote false =
          match otaFledAction remote l.fled.ver a l.fled.saved.tries false with
          | .skip =>
            if otaFledSaveDue (fledUnsavedS l) (!l.fled.savedThisBoot) then
              (.skipped, saveFled l env a l.fled.saved.tries)
            else (.skipped, l)
          | .retry => spendTry l env .retry a
          | .last => spendTry l env .last a
          | .none => (.download .none, l)
          | .forced => (.download .forced, l) := by
        simp only [fledGate, newer, Bool.not_true, Bool.false_eq_true, if_false, l, a]
      by_cases early : a < OTA_FLED_SKIP_S
      · have action : otaFledAction remote l.fled.ver a l.fled.saved.tries false = .skip := by
          simp [otaFledAction, same, early, l]
        refine .inl ⟨early, ?_⟩
        rw [gate, action]
        cases due : otaFledSaveDue (fledUnsavedS l) (!l.fled.savedThisBoot) with
        | true => exact ⟨_, .inl rfl, by simp⟩
        | false =>
            refine ⟨l, .inr ⟨rfl, ?_⟩, by simp⟩
            by_contra first
            simp [otaFledSaveDue, first] at due
      · by_cases tried : l.fled.saved.tries.toNat = 0
        · have action : otaFledAction remote l.fled.ver a l.fled.saved.tries false = .retry := by
            simp [otaFledAction, same, early, tried, OTA_FLED_TRIES, l]
          exact .inr (.inl ⟨Nat.not_lt.mp early, tried, by rw [gate, action]⟩)
        · have action : otaFledAction remote l.fled.ver a l.fled.saved.tries false = .last := by
            have : ¬ l.fled.saved.tries.toNat + 1 < OTA_FLED_TRIES := by
              unfold OTA_FLED_TRIES; omega
            simp [otaFledAction, same, early, this, l]
          exact .inr (.inr ⟨Nat.not_lt.mp early, Nat.pos_of_ne_zero tried,
            by rw [gate, action]⟩)

/-- A fled try keeps its record: an install of the recorded version writes nothing. -/
theorem recordInstalledBuild_of_same {s : FledState} {remote : Str}
    (same : otaSameVersion remote s.fled.ver = true) (ageOk verOk : Bool) :
    recordInstalledBuild s remote ageOk verOk = s := by
  simp [recordInstalledBuild, otaFledRecordsInstall, otaSameVersion_comm s.fled.ver, same]

theorem check_offered {s : FledState} {env : FledEnv} {remote : Str}
    (same : otaSameVersion remote (loadFled s env.readOk).fled.ver = true)
    (install : Install) :
    check s env remote false install = (fledGate s env remote false).2 := by
  -- A verdict that downloads leaves the loaded version in RAM.
  have kept : ∀ action, (fledGate s env remote false).1 = .download action →
      (fledGate s env remote false).2.fled.ver = (loadFled s env.readOk).fled.ver := by
    intro action h
    rcases fledGate_offered same with ⟨_, gate⟩ | ⟨_, ⟨_, next, _, gate⟩ | ⟨_, _, gate⟩ |
      ⟨_, _, gate⟩⟩
    · simp [gate] at h
    · simp [gate] at h
    · rw [gate] at h ⊢
      rcases spendTry_cases _ env _ (.inl rfl) with ⟨_, spent⟩ | ⟨_, spent⟩ <;> rw [spent] <;> rfl
    · rw [gate] at h ⊢
      rcases spendTry_cases _ env _ (.inr rfl) with ⟨_, spent⟩ | ⟨_, spent⟩ <;> rw [spent] <;> rfl
  unfold check
  dsimp only
  split
  · rename_i action ageOk verOk h
    exact recordInstalledBuild_of_same (by rw [kept action h]; exact same) ageOk verOk
  · rfl

end

end Thesada.Ota
