import Thesada.Clock.BuildFloor
import Thesada.Library.Machine
import Thesada.Library.Word32

/-!
# The clock floor over boots

`MQTTClient::begin` lifts a clock that is behind the floor, the newer of the persisted one and the
image's stamp, and `MQTTClient::loop` persists the clock once it is a day ahead of what is stored.

`real` is the time in UTC, which no step reads. A run is honest when the clock is never ahead of
it by itself: a boot begins with a clock that is at most right, an image is older than the boot and
stamped in a zone of the earth, NTP moves the clock forward and not past the truth, and the flash
is read whenever it holds a floor. The seconds stay a day below `2 ^ 32`, which is until 2106.
-/

namespace Thesada.Clock

open Machine

def CLOCK_FLOOR_SANE_EPOCH : Nat := 1700000000
def CLOCK_FLOOR_PERSIST_INTERVAL_S : Nat := 86400

def clockFloorTarget (nvsFloor buildEpoch : Nat) : Nat :=
  if buildEpoch < nvsFloor then nvsFloor else buildEpoch

def clockFloorShouldApply (now floor : Nat) : Bool :=
  if floor < CLOCK_FLOOR_SANE_EPOCH then false else now < floor

def clockFloorShouldPersist (now stored : Nat) : Bool :=
  if now < CLOCK_FLOOR_SANE_EPOCH then false
  else Word32.add stored CLOCK_FLOOR_PERSIST_INTERVAL_S ≤ now % Word32.size

/-- What the compiler stamped an image with, read by the image. -/
def Build.epoch (b : Build) : Nat :=
  clockFloorBuildEpoch (some (dateStamp b.date)) (some (timeStamp b.hour b.minute b.second))

structure FloorClock where
  real : Nat
  /-- `time(nullptr)`. -/
  clock : Nat
  /-- `clk_floor` in the flash. -/
  nvs : Nat
  clkFloorStored : Nat
  /-- The stamp of the running image. -/
  build : Nat
  begun : Bool

inductive FloorEvent where
  | elapse (seconds : Nat)
  /-- A boot, with what the clock reads then. -/
  | boot (clock : Nat) (image : Build)
  /-- `begin`, and whether the namespace opens. -/
  | begin (reads : Bool)
  /-- NTP sets the clock. -/
  | ntp (epoch : Nat)
  /-- The check in `loop`, whether the namespace opens and whether the value lands. -/
  | loop (opens lands : Bool)

namespace FloorClock

def begin (s : FloorClock) (reads : Bool) : FloorClock :=
  let stored := if reads then s.nvs else s.clkFloorStored
  let floorEpoch := clockFloorTarget stored s.build
  { s with
    clkFloorStored := stored
    clock := if clockFloorShouldApply s.clock floorEpoch then floorEpoch else s.clock
    begun := true }

def loop (s : FloorClock) (opens lands : Bool) : FloorClock :=
  if s.begun && clockFloorShouldPersist s.clock s.clkFloorStored && opens then
    { s with
      nvs := if lands then s.clock % Word32.size else s.nvs
      clkFloorStored := s.clock % Word32.size }
  else s

def step (s : FloorClock) : FloorEvent → FloorClock
  | .elapse seconds => { s with real := s.real + seconds, clock := s.clock + seconds }
  | .boot clock image =>
      { s with clock := clock, clkFloorStored := 0, build := image.epoch, begun := false }
  | .begin reads => s.begin reads
  | .ntp epoch => { s with clock := epoch }
  | .loop opens lands => s.loop opens lands

/-- A device whose flash holds no floor, `real` seconds after 1970. -/
def factory (real : Nat) : FloorClock := ⟨real, 0, 0, 0, 0, false⟩

/-- What happens to a device whose clocks and images are in order. -/
def Honest (s : FloorClock) : FloorEvent → Prop
  | .elapse seconds => s.real + seconds + CLOCK_FLOOR_PERSIST_INTERVAL_S < Word32.size
  | .boot clock image =>
      clock ≤ s.real ∧ instant image.date image.hour image.minute image.second ≤ s.real + 14 * 3600
  | .begin reads => reads = true ∨ s.nvs = 0
  | .ntp epoch => s.clock ≤ epoch ∧ epoch ≤ s.real
  | .loop _ _ => True

/-- The floor of a device that has begun. -/
def floor (s : FloorClock) : Nat := max s.clkFloorStored s.build

structure Below (s : FloorClock) : Prop where
  room : s.real + CLOCK_FLOOR_PERSIST_INTERVAL_S < Word32.size
  clock : s.clock ≤ s.real
  nvs : s.nvs ≤ s.real
  stored : s.clkFloorStored ≤ s.real
  build : s.build ≤ s.real
  kept : s.begun = true → s.nvs ≤ s.clkFloorStored
  lifted : s.begun = true → CLOCK_FLOOR_SANE_EPOCH ≤ s.floor → s.floor ≤ s.clock

/-! ## One step -/

theorem clockFloorTarget_eq (nvsFloor buildEpoch : Nat) :
    clockFloorTarget nvsFloor buildEpoch = max nvsFloor buildEpoch := by
  unfold clockFloorTarget
  split
  · omega
  · omega

theorem clockFloorShouldApply_iff {now floor : Nat} :
    clockFloorShouldApply now floor = true ↔ CLOCK_FLOOR_SANE_EPOCH ≤ floor ∧ now < floor := by
  unfold clockFloorShouldApply
  split
  · simp
    omega
  · simp
    omega

/-- A stamp is a day behind the local time of its build, so no zone puts it ahead of the build. -/
theorem epoch_le {image : Build} {real : Nat}
    (older : instant image.date image.hour image.minute image.second ≤ real + 14 * 3600) :
    image.epoch ≤ real := by
  have read := stampEpoch_build image
  have eq : image.epoch = stampEpoch (dateStamp image.date)
    (timeStamp image.hour image.minute image.second) := rfl
  rw [CLOCK_FLOOR_BUILD_MARGIN_S] at read
  omega

variable {s : FloorClock}

/-- A floor is persisted a day or more above the last one. -/
theorem clockFloorShouldPersist_day {now stored : Nat}
    (now_lt : now + CLOCK_FLOOR_PERSIST_INTERVAL_S < Word32.size)
    (stored_lt : stored + CLOCK_FLOOR_PERSIST_INTERVAL_S < Word32.size)
    (persists : clockFloorShouldPersist now stored = true) :
    stored + CLOCK_FLOOR_PERSIST_INTERVAL_S ≤ now := by
  unfold clockFloorShouldPersist at persists
  split at persists
  · cases persists
  · have due := of_decide_eq_true persists
    rwa [Word32.add_of_lt stored_lt, Nat.mod_eq_of_lt (by omega)] at due

theorem Below.begin (h : s.Below) {reads : Bool} (honest : reads = true ∨ s.nvs = 0) :
    (s.begin reads).Below ∧ s.clock ≤ (s.begin reads).clock ∧ (s.begin reads).nvs = s.nvs := by
  have stored : s.nvs ≤ (if reads then s.nvs else s.clkFloorStored) ∧
      (if reads then s.nvs else s.clkFloorStored) ≤ s.real := by
    have low := h.nvs
    have old := h.stored
    split
    · exact ⟨Nat.le_refl _, low⟩
    · next unread =>
        have empty := honest.resolve_left unread
        exact ⟨by omega, old⟩
  unfold FloorClock.begin
  generalize (if reads then s.nvs else s.clkFloorStored) = stored' at stored
  have top : clockFloorTarget stored' s.build = max stored' s.build :=
    clockFloorTarget_eq stored' s.build
  have build := h.build
  have clock := h.clock
  by_cases applies : clockFloorShouldApply s.clock (max stored' s.build) = true
  · have lower := clockFloorShouldApply_iff.mp applies
    simp only [top, applies, if_true]
    refine ⟨⟨h.room, ?_, h.nvs, stored.2, build, fun _ => stored.1, fun _ _ => ?_⟩, ?_, trivial⟩
    · exact max_le stored.2 build
    · exact Nat.le_refl _
    · exact Nat.le_of_lt lower.2
  · simp only [top, applies]
    refine ⟨⟨h.room, clock, h.nvs, stored.2, build, fun _ => stored.1, fun _ sane => ?_⟩,
      Nat.le_refl _, trivial⟩
    by_contra behind
    exact applies (clockFloorShouldApply_iff.mpr ⟨sane, Nat.lt_of_not_le behind⟩)

/-- A persisted floor, when it lands, is a day above the one it replaces. -/
theorem Below.loop (h : s.Below) (opens lands : Bool) :
    (s.loop opens lands).Below ∧ (s.loop opens lands).clock = s.clock ∧
      ((s.loop opens lands).nvs = s.nvs ∨
        s.nvs + CLOCK_FLOOR_PERSIST_INTERVAL_S ≤ (s.loop opens lands).nvs) := by
  unfold FloorClock.loop
  split
  · next persists =>
      simp only [Bool.and_eq_true] at persists
      obtain ⟨⟨begun, due⟩, -⟩ := persists
      have room := h.room
      have clock := h.clock
      have old := h.stored
      have day := clockFloorShouldPersist_day (by omega) (by omega) due
      have kept := h.kept begun
      have lifted := h.lifted begun
      have nvs := h.nvs
      rw [Nat.mod_eq_of_lt (by omega)]
      refine ⟨⟨room, clock, ?_, clock, h.build, fun _ => ?_, fun _ sane => ?_⟩, rfl, ?_⟩
      · dsimp only
        split
        · exact clock
        · exact nvs
      · dsimp only
        split
        · exact Nat.le_refl _
        · omega
      · simp only [floor, CLOCK_FLOOR_SANE_EPOCH] at lifted sane ⊢
        omega
      · dsimp only
        split
        · exact .inr (by omega)
        · exact .inl rfl
  · exact ⟨h, rfl, .inl rfl⟩

/-- The event persists a floor. -/
def persists (s : FloorClock) (e : FloorEvent) : Bool := (s.step e).nvs != s.nvs

/-- The event moves the clock, and is no boot. -/
def Forward (s : FloorClock) : FloorEvent → Prop
  | .boot _ _ => True
  | e => s.clock ≤ (s.step e).clock

theorem Below.step (h : s.Below) {e : FloorEvent} (honest : s.Honest e) :
    (s.step e).Below ∧ s.Forward e ∧
      ((s.step e).nvs = s.nvs ∨ s.nvs + CLOCK_FLOOR_PERSIST_INTERVAL_S ≤ (s.step e).nvs) := by
  cases e with
  | elapse seconds =>
      have lifted := h.lifted
      refine ⟨⟨honest, Nat.add_le_add_right h.clock seconds,
        Nat.le_trans h.nvs (Nat.le_add_right _ _), Nat.le_trans h.stored (Nat.le_add_right _ _),
        Nat.le_trans h.build (Nat.le_add_right _ _), h.kept, fun begun sane => ?_⟩,
        Nat.le_add_right _ _, .inl rfl⟩
      exact Nat.le_trans (lifted begun sane) (Nat.le_add_right _ _)
  | boot clock image =>
      have older : image.epoch ≤ s.real := epoch_le honest.2
      have booted : s.step (.boot clock image) =
          { s with clock := clock, clkFloorStored := 0, build := image.epoch, begun := false } :=
        rfl
      rw [booted]
      generalize image.epoch = epoch at older ⊢
      refine ⟨⟨h.room, honest.1, h.nvs, Nat.zero_le _, older, fun begun => ?_, fun begun => ?_⟩,
        trivial, .inl rfl⟩
      · cases begun
      · cases begun
  | begin reads =>
      obtain ⟨below, forward, nvs⟩ := h.begin honest
      exact ⟨below, forward, .inl nvs⟩
  | ntp epoch =>
      refine ⟨⟨h.room, honest.2, h.nvs, h.stored, h.build, h.kept, fun begun sane => ?_⟩,
        honest.1, .inl rfl⟩
      exact Nat.le_trans (h.lifted begun sane) honest.1
  | loop opens lands =>
      obtain ⟨below, same, nvs⟩ := h.loop opens lands
      exact ⟨below, Nat.le_of_eq same.symm, nvs⟩

theorem factory_below {real : Nat} (room : real + CLOCK_FLOOR_PERSIST_INTERVAL_S < Word32.size) :
    (factory real).Below :=
  ⟨room, Nat.zero_le _, Nat.zero_le _, Nat.zero_le _, Nat.zero_le _, nofun, nofun⟩

/-! ## Runs -/

end FloorClock

def aprilBuild : Build where
  date :=
    { year := 2026
      month := 4
      day := 7
      month_pos := by decide
      month_le := by decide
      day_pos := by decide
      day_le := by decide }
  hour := 20
  minute := 15
  second := 30
  since := by decide
  hour_le := by decide
  minute_le := by decide
  second_le := by decide
  fits := by decide

end Thesada.Clock
