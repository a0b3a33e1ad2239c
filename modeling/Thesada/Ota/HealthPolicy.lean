import Thesada.Library.Word32
import Mathlib.Data.UInt

/-!
# When a pending image may be marked valid

The pure decisions of `ota_health_policy.h`: how one reset counts toward the crash streak
of an image, when a pending image is confirmed, when the running image is abandoned, and
when a stored record names an image.

A record is a byte string of 36 bytes, the slot address in little-endian order and then the
ELF hash. An otadata state is an enumeration here; the source compares its number.
-/

namespace Thesada.Ota

/-- Five minutes cover a broker that is down. -/
def OTA_HEALTH_MIN_MS : Nat := 5 * 60 * 1000

/-- Crash resets that abandon the running image. -/
def OTA_HEALTH_CRASH_LIMIT : Nat := 3

def OTA_HEALTH_SETTLE_MS : Nat := 60 * 60 * 1000

/-! Numeric values of `esp_reset_reason_t`. -/

def OTA_RST_UNKNOWN : Nat := 0
def OTA_RST_POWERON : Nat := 1
def OTA_RST_EXT : Nat := 2
def OTA_RST_SW : Nat := 3
def OTA_RST_PANIC : Nat := 4
def OTA_RST_INT_WDT : Nat := 5
def OTA_RST_TASK_WDT : Nat := 6
def OTA_RST_WDT : Nat := 7
def OTA_RST_DEEPSLEEP : Nat := 8
def OTA_RST_BROWNOUT : Nat := 9
def OTA_RST_SDIO : Nat := 10

/-- `esp_ota_img_states_t`. -/
inductive ImgState where
  | new
  | pendingVerify
  | valid
  | invalid
  | aborted
  | undefined
  deriving DecidableEq, Repr

inductive OtaResetClass where
  | clear
  | hold
  | crash
  /-- The restart into a written image: its own streak of one. -/
  | fresh
  deriving DecidableEq, Repr

/-! ## The class of a reset -/

/-- Power-on and deep sleep clear, software, panic and watchdog resets count. -/
def otaHealthResetClass (reason : Nat) : OtaResetClass :=
  if reason = OTA_RST_POWERON ∨ reason = OTA_RST_DEEPSLEEP then .clear
  else if reason = OTA_RST_SW ∨ reason = OTA_RST_PANIC ∨ reason = OTA_RST_INT_WDT ∨
      reason = OTA_RST_TASK_WDT ∨ reason = OTA_RST_WDT then .crash
  else .hold

def OTA_PLANNED_RESTART_MAGIC : UInt32 := 0x504C4E44
def OTA_PLANNED_BROKER_MAGIC : UInt32 := 0x4D515454

inductive OtaPlanned where
  | none
  | operator
  | broker
  deriving DecidableEq, Repr

/-- The planned restart a marker word names, and the word that replaces it. -/
def otaHealthTakePlanned (marker : UInt32) : OtaPlanned × UInt32 :=
  if marker = OTA_PLANNED_RESTART_MAGIC then (.operator, 0)
  else if marker = OTA_PLANNED_BROKER_MAGIC then (.broker, 0)
  else (.none, 0)

/-- A USB flash leaves its slot undefined, which counts as confirmed. -/
def otaHealthStateConfirmed (state : ImgState) : Bool :=
  state = .valid || state = .undefined

/-- Planned restarts hold on a confirmed image, broker ones once it is proven, and start a
pending one afresh. -/
def otaHealthBootClass (reason : Nat) (planned : OtaPlanned) (confirmed proven pending : Bool) :
    OtaResetClass :=
  if reason = OTA_RST_SW ∧ planned ≠ .none ∧ pending then .fresh
  else if reason = OTA_RST_SW ∧ confirmed ∧
      (planned = .operator ∨ (planned = .broker ∧ proven)) then .hold
  else otaHealthResetClass reason

/-- The streak is a `uint32_t`. -/
def otaHealthNextCrashStreak (previous : Nat) (kind : OtaResetClass) : Nat :=
  match kind with
  | .clear => 0
  | .fresh => 1
  | .crash => Word32.add previous 1
  | .hold => previous

/-! ## Confirm and settle -/

/-- A streak at the limit never confirms. -/
def otaHealthShouldMark (pending mqttUp : Bool) (uptimeMs crashStreak : Nat) : Bool :=
  if !pending then false
  else if OTA_HEALTH_CRASH_LIMIT ≤ crashStreak then false
  else if mqttUp then true
  else OTA_HEALTH_MIN_MS ≤ uptimeMs

/-- An hour up, and that long again since the last failed try (0 when none failed). -/
def otaHealthSettleDue (uptimeMs lastFailMs : Nat) : Bool :=
  if uptimeMs < OTA_HEALTH_SETTLE_MS then false
  else if lastFailMs = 0 then true
  else lastFailMs ≤ uptimeMs && OTA_HEALTH_SETTLE_MS ≤ uptimeMs - lastFailMs

def otaHealthShouldClearValid (pending : Bool) (uptimeMs crashStreak lastFailMs : Nat) : Bool :=
  if pending || crashStreak = 0 then false else otaHealthSettleDue uptimeMs lastFailMs

def otaHealthShouldMarkUsbValid (state : ImgState) (streakKnown : Bool)
    (uptimeMs lastFailMs : Nat) : Bool :=
  if state ≠ .undefined || !streakKnown then false else otaHealthSettleDue uptimeMs lastFailMs

def otaHealthShouldRollback (crashStreak : Nat) : Bool :=
  OTA_HEALTH_CRASH_LIMIT ≤ crashStreak

/-- The gate of a confirm names its bound. -/
theorem lt_limit_of_shouldMark {pending mqttUp : Bool} {uptimeMs streak : Nat}
    (h : otaHealthShouldMark pending mqttUp uptimeMs streak = true) :
    streak < OTA_HEALTH_CRASH_LIMIT := by
  by_contra limit
  simp [otaHealthShouldMark, Nat.le_of_not_lt limit] at h

/-! ## Image records -/

def OTA_IMAGE_ID_LEN : Nat := 36

/-- The ELF hash of an app descriptor. -/
abbrev ElfSha := Vector UInt8 32

/-- The four bytes of a slot address, low byte first. -/
def addressBytes (slotAddr : UInt32) : List UInt8 :=
  [slotAddr.toUInt8, (slotAddr >>> 8).toUInt8, (slotAddr >>> 16).toUInt8,
    (slotAddr >>> 24).toUInt8]

/-- No id for an all-zero hash, which would match every build. -/
def otaHealthImageId (slotAddr : UInt32) (elfSha : ElfSha) : Option (List UInt8) :=
  if elfSha.toList.all (· = 0) then none else some (addressBytes slotAddr ++ elfSha.toList)

/-- The stored record is this image's. -/
def otaHealthImageProven (stored id : List UInt8) : Bool :=
  stored.length = OTA_IMAGE_ID_LEN && stored = id

/-- The record names this slot and build. -/
def otaHealthIsAbandoned (stored : List UInt8) (slotAddr : UInt32) (elfSha : ElfSha) : Bool :=
  match otaHealthImageId slotAddr elfSha with
  | none => false
  | some id => otaHealthImageProven stored id

def OTA_RESCUE_ID : UInt8 := 2

/-- A planned restart means the flag is a leftover. -/
def otaHealthRescue (stored : UInt8) (marker : UInt32) : UInt8 :=
  if marker = OTA_PLANNED_RESTART_MAGIC ∨ marker = OTA_PLANNED_BROKER_MAGIC then 0 else stored

def otaHealthIsArrival (rescue : UInt8) (pending : Bool) : Bool :=
  rescue ≠ 0 && pending

/-- The older guard's flag records its arrival only over different strings. -/
def otaHealthRecordArrival (rescue : UInt8) (sameStrings : Bool) : Bool :=
  rescue = OTA_RESCUE_ID || !sameStrings

/-- The address a record starts with. -/
def recordAddress : List UInt8 → UInt32
  | a :: b :: c :: d :: _ =>
      a.toUInt32 ||| (b.toUInt32 <<< 8) ||| (c.toUInt32 <<< 16) ||| (d.toUInt32 <<< 24)
  | _ => 0

/-- A record that names the running slot is stale. -/
def otaHealthLeftIsStale (stored : List UInt8) (runningAddr : UInt32) : Bool :=
  stored.length = OTA_IMAGE_ID_LEN && recordAddress stored = runningAddr

theorem or_shiftLeft_of_lt (low high k : Nat) (bound : low < 2 ^ k) :
    low ||| high <<< k = high * 2 ^ k + low := by
  rw [Nat.or_comm, ← Nat.shiftLeft_add_eq_or_of_lt bound, Nat.shiftLeft_eq]

/-- An address reads back from the bytes it was written as. -/
theorem recordAddress_addressBytes (slotAddr : UInt32) (rest : List UInt8) :
    recordAddress (addressBytes slotAddr ++ rest) = slotAddr := by
  simp only [addressBytes, List.cons_append, recordAddress]
  apply UInt32.toNat_inj.mp
  have bound := slotAddr.toNat_lt
  generalize e : slotAddr.toNat = n at bound
  simp only [UInt32.toNat_or, UInt32.toNat_shiftLeft, UInt8.toNat_toUInt32,
    UInt32.toNat_toUInt8, UInt32.toNat_shiftRight, e, UInt32.reduceToNat, Nat.reduceMod,
    Nat.shiftRight_eq_div_pow, Nat.shiftLeft_eq, Nat.reducePow] at *
  rw [Nat.mod_eq_of_lt (a := n / 256 % 256 * 256) (by omega),
    Nat.mod_eq_of_lt (a := n / 65536 % 256 * 65536) (by omega),
    Nat.mod_eq_of_lt (a := n / 16777216 % 256 * 16777216) (by omega)]
  -- each byte is put above the ones already joined
  have two := or_shiftLeft_of_lt (n % 256) (n / 256 % 256) 8 (by omega)
  have three := or_shiftLeft_of_lt (n / 256 % 256 * 256 + n % 256) (n / 65536 % 256) 16 (by omega)
  have four := or_shiftLeft_of_lt
    (n / 65536 % 256 * 65536 + (n / 256 % 256 * 256 + n % 256)) (n / 16777216 % 256) 24 (by omega)
  simp only [Nat.shiftLeft_eq, Nat.reducePow] at two three four
  rw [two, three, four]
  omega

theorem imageId_length {slotAddr : UInt32} {elfSha : ElfSha} {id : List UInt8}
    (h : otaHealthImageId slotAddr elfSha = some id) : id.length = OTA_IMAGE_ID_LEN := by
  simp only [otaHealthImageId] at h
  split at h
  · cases h
  · cases h
    simp [addressBytes, OTA_IMAGE_ID_LEN]

/-- A record is stale on the slot it was built for and on no other. -/
theorem leftIsStale_imageId {slotAddr : UInt32} {elfSha : ElfSha} {id : List UInt8}
    (h : otaHealthImageId slotAddr elfSha = some id) (runningAddr : UInt32) :
    otaHealthLeftIsStale id runningAddr = decide (slotAddr = runningAddr) := by
  have length := imageId_length h
  simp only [otaHealthImageId] at h
  split at h
  · cases h
  · cases h
    simp [otaHealthLeftIsStale, length, recordAddress_addressBytes]

theorem isAbandoned_imageId {slotAddr : UInt32} {elfSha : ElfSha} {id : List UInt8}
    (h : otaHealthImageId slotAddr elfSha = some id) :
    otaHealthIsAbandoned id slotAddr elfSha = true := by
  simp [otaHealthIsAbandoned, h, otaHealthImageProven, imageId_length h]

end Thesada.Ota
