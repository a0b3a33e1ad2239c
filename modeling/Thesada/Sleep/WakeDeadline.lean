import Thesada.Config.ReloadCommand
import Thesada.Library.Word32

/-!
# Sleep times and the wake deadline

`SleepManager::begin` keeps the sleep time as microseconds and the end of the wake time as a
reading of `millis()`, both in 32 bits. `loop` compares the clock with that reading and programs
the timer before it goes to sleep, from which it does not return.
-/

namespace Thesada.Sleep

open Thesada.Config

/-- What survives a deep sleep. -/
structure RtcData where
  magic : Nat
  bootCount : Nat
  lastOtaCheck : Int

structure SleepManager where
  enabled : Bool
  sleepUs : Nat
  wakeDeadline : Nat
  rtc : RtcData

def RTC_MAGIC : Nat := 0xDEADBEEF

/-- `cfg[section][key] | false`. -/
def boolOr (cfg : Json) (sectionKey key : String) (flag : Bool) : Bool :=
  match (cfg.member sectionKey.toList).member key.toList with
  | .bool b => b
  | _ => flag

/-- An `int` kept as a `uint32_t`. -/
def seconds (n : Int) : Nat := (n % (Word32.size : Int)).toNat

/-- At least ten seconds. -/
def floored (s : Nat) : Nat := if s < 10 then 10 else s

namespace SleepManager

/-- `begin` at the clock reading `millis`. -/
def begin (s : SleepManager) (cfg : Json) (millis : Nat) : SleepManager :=
  let rtc := if s.rtc.magic = RTC_MAGIC then s.rtc else ⟨RTC_MAGIC, 0, 0⟩
  let s := { s with
    rtc := { rtc with bootCount := Word32.add rtc.bootCount 1 }
    enabled := boolOr cfg "sleep" "enabled" false }
  if !s.enabled then s
  else
    let sleepS := floored (seconds (intOr cfg "sleep" "sleep_s" 300))
    let wakeS := floored (seconds (intOr cfg "sleep" "wake_s" 30))
    { s with
      sleepUs := sleepS * 1000000 % Word32.size
      wakeDeadline := Word32.add millis (wakeS * 1000 % Word32.size) }

/-- A turn of the loop: the timer of the shutdown that it starts. -/
def loop (s : SleepManager) (millis : Nat) : Option Nat :=
  if !s.enabled then none
  else if millis < s.wakeDeadline then none
  else some s.sleepUs

/-- The first turn that starts the shutdown, and the timer. The turns are given by the time
since `begin`, which was called at `uptime`. -/
def shutdown (s : SleepManager) (uptime : Nat) (turns : List Nat) : Option (Nat × Nat) :=
  turns.findSome? fun t => (s.loop ((uptime + t) % Word32.size)).map (t, ·)

end SleepManager

/-- The turn that should start the shutdown, and the timer. -/
def dueShutdown (sleepS wakeS : Nat) (turns : List Nat) : Option (Nat × Nat) :=
  (turns.find? fun t => max wakeS 10 * 1000 ≤ t).map (·, max sleepS 10 * 1000000)

/-- The clock does not wrap between `begin` and these turns. -/
def BeforeWrap (uptime : Nat) (turns : List Nat) : Prop :=
  ∀ t ∈ turns, uptime % Word32.size + t < Word32.size

section

variable {s : SleepManager} {cfg : Json} {sleepS wakeS uptime millis t : Nat} {turns : List Nat}

theorem seconds_intOr {key : String} {n : Nat} {number : Int}
    (stored : (cfg.member "sleep".toList).member key.toList = .int n) (fits : n < 2 ^ 31) :
    seconds (intOr cfg "sleep" key number) = n := by
  have int : (n : Int) ≤ 2147483647 := by omega
  rw [intOr, stored, Json.asInt]
  simp only [seconds, Word32.size]
  rw [if_pos ⟨by omega, int⟩, Int.emod_eq_of_lt (by omega) (by omega)]
  exact Int.toNat_natCast n

theorem floored_eq (n : Nat) : floored n = max n 10 := by
  rw [floored]
  split
  · omega
  · omega

theorem add_lt_size (a b : Nat) : Word32.add a b < Word32.size := by
  unfold Word32.add
  exact Nat.mod_lt _ (by decide)

/-! ## One turn -/

theorem begin_enabled (enabled : boolOr cfg "sleep" "enabled" false = true) :
    (s.begin cfg millis).enabled = true := by
  simp [SleepManager.begin, enabled]

theorem begin_sleepUs (enabled : boolOr cfg "sleep" "enabled" false = true) :
    (s.begin cfg millis).sleepUs =
      floored (seconds (intOr cfg "sleep" "sleep_s" 300)) * 1000000 % Word32.size := by
  simp [SleepManager.begin, enabled]

theorem begin_wakeDeadline (enabled : boolOr cfg "sleep" "enabled" false = true) :
    (s.begin cfg millis).wakeDeadline = Word32.add millis
      (floored (seconds (intOr cfg "sleep" "wake_s" 30)) * 1000 % Word32.size) := by
  simp [SleepManager.begin, enabled]

theorem loop_enabled (enabled : s.enabled = true) (millis : Nat) :
    s.loop millis = if millis < s.wakeDeadline then none else some s.sleepUs := by
  simp [SleepManager.loop, enabled]

/-- A turn starts the shutdown from the deadline on. -/
theorem loop_before_wrap (enabled : s.enabled = true)
    (inside : uptime % Word32.size + t < Word32.size) :
    s.loop ((uptime + t) % Word32.size) =
      if uptime % Word32.size + t < s.wakeDeadline then none else some s.sleepUs := by
  rw [loop_enabled enabled, ← Nat.mod_add_mod, Nat.mod_eq_of_lt inside]

/-! ## Runs -/

/-- The turns up to the first one that the test lets through. -/
theorem findSome?_test {α : Type} {f : Nat → Option α} {p : Nat → Bool} {a : α}
    (each : ∀ t ∈ turns, f t = if p t then some a else none) :
    (turns.findSome? fun t => (f t).map (t, ·)) = (turns.find? p).map (·, a) := by
  induction turns with
  | nil => rfl
  | cons t turns ih =>
      have first := each t List.mem_cons_self
      have rest := ih fun u mem => each u (List.mem_cons_of_mem t mem)
      cases passes : p t with
      | false => simp [first, passes, rest]
      | true => simp [first, passes]

/-- With a timer and a deadline that did not wrap the shutdown comes when it is due. -/
theorem shutdown_of_exact (enabled : s.enabled = true)
    (deadline : s.wakeDeadline = uptime % Word32.size + max wakeS 10 * 1000)
    (timer : s.sleepUs = max sleepS 10 * 1000000) (inside : BeforeWrap uptime turns) :
    s.shutdown uptime turns = dueShutdown sleepS wakeS turns := by
  apply findSome?_test
  intro t mem
  rw [loop_before_wrap enabled (inside t mem), deadline, timer]
  by_cases due : max wakeS 10 * 1000 ≤ t
  · rw [if_neg (by omega), if_pos (decide_eq_true due)]
  · rw [if_pos (by omega), if_neg (by simpa using due)]

/-- The last turn before the clock wraps is past every deadline. -/
theorem shutdown_last (enabled : s.enabled = true) (word : s.wakeDeadline < Word32.size) :
    s.shutdown uptime [Word32.size - 1 - uptime % Word32.size] =
      some (Word32.size - 1 - uptime % Word32.size, s.sleepUs) := by
  have low : uptime % Word32.size < Word32.size := Nat.mod_lt _ (by decide)
  have late : ¬uptime % Word32.size + (Word32.size - 1 - uptime % Word32.size) <
      s.wakeDeadline := by
    omega
  simp only [SleepManager.shutdown, List.findSome?_cons, List.findSome?_nil]
  rw [loop_before_wrap enabled (by omega), if_neg late]
  rfl

theorem due_none (early : t < max wakeS 10 * 1000) : dueShutdown sleepS wakeS [t] = none := by
  simp [dueShutdown, early]

theorem due_some : dueShutdown sleepS wakeS [max wakeS 10 * 1000] =
    some (max wakeS 10 * 1000, max sleepS 10 * 1000000) := by
  simp [dueShutdown]

/-- The timer of a shutdown is the one kept by `begin`. -/
theorem shutdown_timer {r : Nat × Nat} (shuts : s.shutdown uptime turns = some r) :
    r.2 = s.sleepUs := by
  obtain ⟨t, -, started⟩ := List.exists_of_findSome?_eq_some shuts
  obtain ⟨timer, looped, rfl⟩ := Option.map_eq_some_iff.mp started
  unfold SleepManager.loop at looped
  split at looped
  · cases looped
  · split at looped
    · cases looped
    · exact (Option.some.inj looped).symm

end

/-- A config with these times. -/
def sleepConfig (sleepS wakeS : Nat) : Json :=
  .obj [("sleep".toList, .obj [("enabled".toList, .bool true),
    ("sleep_s".toList, .int sleepS), ("wake_s".toList, .int wakeS)])]

/-- After a power cycle. -/
def poweredOn : SleepManager := ⟨false, 0, 0, ⟨0, 0, 0⟩⟩

end Thesada.Sleep
