import Mathlib.Data.List.Induction
import Mathlib.Logic.Function.Basic
import Thesada.Library.Machine
import Thesada.Library.Word32

/-!
# Recovery from socket failures

A streak of failed opens or sends earns a step: the bearer is recycled, and after twice as many the
modem is reset. Sockets are used by the loop task and by the tasks of `net.http`. The task that
drives activation runs its steps at once; any other leaves them to the next health probe, as bits
of one atomic byte. A hard reset and a fresh bearer clear the byte.

Each event holds the AT bus, so the events of two tasks do not overlap. `lost`, `owed` and `ran`
only record: failures since the last success, steps queued since the byte was last cleared, and
steps run with their task.
-/

namespace Thesada.Cellular

open Machine

def CELL_RECOVER_NONE : UInt8 := 0
def CELL_RECOVER_RECYCLE : UInt8 := 1
def CELL_RECOVER_RESET : UInt8 := 2
def CELL_RECYCLE_STREAK : UInt8 := 3
def CELL_RESET_STREAK : UInt8 := 6
def HEALTH_PROBE_MS : Nat := 60000

def cellRecoverStep (streak : UInt8) : UInt8 :=
  if CELL_RESET_STREAK ≤ streak then CELL_RECOVER_RESET
  else if streak = CELL_RECYCLE_STREAK then CELL_RECOVER_RECYCLE
  else CELL_RECOVER_NONE

def cellRecoverPick (queued : UInt8) : UInt8 :=
  if queued &&& CELL_RECOVER_RESET ≠ 0 then CELL_RECOVER_RESET
  else if queued &&& CELL_RECOVER_RECYCLE ≠ 0 then CELL_RECOVER_RECYCLE
  else CELL_RECOVER_NONE

def cellRecoverHere (task : Nat) (driver : Option Nat) : Bool :=
  driver = none || driver = some task

/-- The task that calls `tickActivation` and `loop`. -/
def loopTask : Nat := 0

/-- What a socket was asked for: `s_openFails` and `s_sendFails`. -/
inductive SocketUse where
  | opened
  | sent
  deriving DecidableEq

structure Recovery where
  streak : SocketUse → UInt8
  driver : Option Nat
  recoverQueued : UInt8
  lastHealthMs : Nat
  started : Bool
  linkUp : Bool
  lost : SocketUse → Nat
  owed : List UInt8
  ran : List (Nat × UInt8)

inductive RecoverEvent where
  /-- `socketOpenOk` or `socketSendOk`. -/
  | socketOk (use : SocketUse)
  /-- `socketOpenFailed` or `socketSendFailed`, and whether a reset gets the AT bus. -/
  | socketFailed (task : Nat) (use : SocketUse) (bus : Bool)
  /-- `tickActivation`, and whether its bearer came up. -/
  | tick (up : Bool)
  /-- `Cellular::loop`. -/
  | loop (now : Nat) (bus resetBus registered : Bool)
  /-- `Cellular::hardReset` from elsewhere. -/
  | hardReset (bus : Bool)

namespace Recovery

def boot : Recovery := ⟨fun _ => 0, none, CELL_RECOVER_NONE, 0, false, false, fun _ => 0, [], []⟩

def hardReset (s : Recovery) (bus : Bool) : Recovery :=
  if bus then { s with started := false, recoverQueued := CELL_RECOVER_NONE, owed := [] } else s

def socketRecoverRun (s : Recovery) (task : Nat) (step : UInt8) (bus : Bool) : Recovery :=
  let noted := { s with ran := s.ran ++ [(task, step)] }
  if step = CELL_RECOVER_RESET then noted.hardReset bus else noted

def socketOk (s : Recovery) (use : SocketUse) : Recovery :=
  { s with
    streak := Function.update s.streak use 0
    lost := Function.update s.lost use 0 }

def socketRecover (s : Recovery) (task : Nat) (use : SocketUse) (bus : Bool) : Recovery :=
  let streak := s.streak use + 1
  let step := cellRecoverStep streak
  let counted :=
    { s with
      lastHealthMs := 0
      streak := Function.update s.streak use (if step = CELL_RECOVER_RESET then 0 else streak)
      lost := Function.update s.lost use (s.lost use + 1) }
  if step = CELL_RECOVER_NONE then counted
  else if cellRecoverHere task s.driver then counted.socketRecoverRun task step bus
  else { counted with recoverQueued := s.recoverQueued ||| step, owed := s.owed ++ [step] }

/-- The probe is due. -/
def due (s : Recovery) (now : Nat) : Bool :=
  s.lastHealthMs = 0 || HEALTH_PROBE_MS ≤ Word32.sub now s.lastHealthMs

/-- The probe behind its guard. -/
def probe (s : Recovery) (resetBus registered : Bool) : Recovery :=
  let step := cellRecoverPick s.recoverQueued
  let taken := { s with recoverQueued := CELL_RECOVER_NONE, owed := [] }
  let ran :=
    if step ≠ CELL_RECOVER_NONE then taken.socketRecoverRun loopTask step resetBus else taken
  if !ran.started then ran
  else if !registered then { ran with linkUp := false, started := false }
  else ran

def loop (s : Recovery) (now : Nat) (bus resetBus registered : Bool) : Recovery :=
  let driven := { s with driver := some loopTask }
  if !s.started then driven
  else if !s.due now then driven
  else if !bus then { driven with lastHealthMs := now }
  else { driven with lastHealthMs := now }.probe resetBus registered

def step (s : Recovery) : RecoverEvent → Recovery
  | .socketOk use => s.socketOk use
  | .socketFailed task use bus => s.socketRecover task use bus
  | .tick up =>
      if up && !s.started then
        { s with
          driver := some loopTask
          started := true
          linkUp := true
          recoverQueued := CELL_RECOVER_NONE
          owed := [] }
      else { s with driver := some loopTask }
  | .loop now bus resetBus registered => s.loop now bus resetBus registered
  | .hardReset bus => s.hardReset bus

/-! ## What a failure earns -/

/-- The step of the `n`-th failure in a row. -/
def earned (n : Nat) : Option UInt8 :=
  if n % 6 = 0 then some CELL_RECOVER_RESET
  else if n % 6 = 3 then some CELL_RECOVER_RECYCLE
  else none

/-- The steps an event should run, told from what was recorded. -/
def expected (s : Recovery) : RecoverEvent → List (Nat × UInt8)
  | .socketFailed task use _ =>
      if s.driver = none ∨ task = loopTask then
        ((earned (s.lost use + 1)).map fun step => (task, step)).toList
      else []
  | .loop now bus _ _ =>
      if s.started = true ∧ s.due now = true ∧ bus = true ∧ s.owed ≠ [] then
        [(loopTask, if CELL_RECOVER_RESET ∈ s.owed then CELL_RECOVER_RESET
          else CELL_RECOVER_RECYCLE)]
      else []
  | _ => []

/-- The steps left for a probe behind an event. -/
def stillOwed (s : Recovery) : RecoverEvent → List UInt8
  | .socketFailed task use bus =>
      if s.driver = none ∨ task = loopTask then
        if earned (s.lost use + 1) = some CELL_RECOVER_RESET ∧ bus = true then [] else s.owed
      else s.owed ++ (earned (s.lost use + 1)).toList
  | .loop now bus _ _ =>
      if s.started = true ∧ s.due now = true ∧ bus = true then [] else s.owed
  | .tick up => if up = true ∧ s.started = false then [] else s.owed
  | .hardReset bus => if bus then [] else s.owed
  | .socketOk _ => s.owed

/-- The bits of steps. -/
def bits (steps : List UInt8) : UInt8 := steps.foldl (· ||| ·) 0

structure Counts (s : Recovery) : Prop where
  streak : ∀ use, (s.streak use).toNat = s.lost use % 6
  queued : s.recoverQueued = bits s.owed
  steps : ∀ step ∈ s.owed, step = CELL_RECOVER_RECYCLE ∨ step = CELL_RECOVER_RESET
  driver : s.driver = none ∨ s.driver = some loopTask

theorem bits_append (steps : List UInt8) (step : UInt8) :
    bits (steps ++ [step]) = bits steps ||| step := by
  simp [bits]

theorem bits_eq {steps : List UInt8}
    (known : ∀ step ∈ steps, step = CELL_RECOVER_RECYCLE ∨ step = CELL_RECOVER_RESET) :
    bits steps = (if CELL_RECOVER_RECYCLE ∈ steps then CELL_RECOVER_RECYCLE else 0) |||
      (if CELL_RECOVER_RESET ∈ steps then CELL_RECOVER_RESET else 0) := by
  induction steps using List.reverseRecOn with
  | nil => rfl
  | append_singleton steps step ih =>
      rw [bits_append, ih fun s member => known s (List.mem_append_left _ member)]
      have recycle_ne : CELL_RECOVER_RECYCLE ≠ CELL_RECOVER_RESET := by decide
      by_cases recycles : CELL_RECOVER_RECYCLE ∈ steps
      · by_cases resets : CELL_RECOVER_RESET ∈ steps
        · obtain rfl | rfl := known step (by simp)
          · simp [recycles, resets]
            decide
          · simp [recycles, resets]
            decide
        · obtain rfl | rfl := known step (by simp)
          · simp [recycles, resets, recycle_ne.symm]
          · simp [recycles, resets]
      · by_cases resets : CELL_RECOVER_RESET ∈ steps
        · obtain rfl | rfl := known step (by simp)
          · simp [recycles, resets]
            decide
          · simp [recycles, resets, recycle_ne]
        · obtain rfl | rfl := known step (by simp)
          · simp [recycles, resets, recycle_ne.symm]
          · simp [recycles, resets, recycle_ne]

/-- The strongest of the steps in a byte. -/
theorem pick_bits {steps : List UInt8}
    (known : ∀ step ∈ steps, step = CELL_RECOVER_RECYCLE ∨ step = CELL_RECOVER_RESET) :
    cellRecoverPick (bits steps) =
      if steps = [] then CELL_RECOVER_NONE
      else if CELL_RECOVER_RESET ∈ steps then CELL_RECOVER_RESET
      else CELL_RECOVER_RECYCLE := by
  rw [bits_eq known]
  by_cases none : steps = []
  · subst none
    decide
  · rw [if_neg none]
    by_cases resets : CELL_RECOVER_RESET ∈ steps
    · rw [if_pos resets, if_pos resets]
      split <;> decide
    · have recycles : CELL_RECOVER_RECYCLE ∈ steps := by
        obtain ⟨step, member⟩ := List.exists_mem_of_ne_nil steps none
        obtain rfl | rfl := known step member
        · exact member
        · exact absurd member resets
      rw [if_neg resets, if_pos recycles, if_neg resets]
      decide

/-- A streak of one byte tells the failures in a row up to a multiple of six. -/
theorem cellRecoverStep_eq {streak : UInt8} {n : Nat} (counts : streak.toNat = n % 6) :
    (earned (n + 1) = some CELL_RECOVER_RESET ∧ cellRecoverStep (streak + 1) = CELL_RECOVER_RESET ∧
      (n + 1) % 6 = 0) ∨
    (earned (n + 1) = some CELL_RECOVER_RECYCLE ∧
      cellRecoverStep (streak + 1) = CELL_RECOVER_RECYCLE ∧
      (streak + 1).toNat = (n + 1) % 6) ∨
    (earned (n + 1) = none ∧ cellRecoverStep (streak + 1) = CELL_RECOVER_NONE ∧
      (streak + 1).toNat = (n + 1) % 6) := by
  have six : n % 6 = 0 ∨ n % 6 = 1 ∨ n % 6 = 2 ∨ n % 6 = 3 ∨ n % 6 = 4 ∨ n % 6 = 5 := by omega
  have next (k : Nat) (here : n % 6 = k) (small : k < 5) : (n + 1) % 6 = k + 1 := by omega
  have byte (k : UInt8) (here : n % 6 = k.toNat) : streak = k :=
    UInt8.toNat_inj.mp (counts.trans here)
  obtain here | here | here | here | here | here := six
  · obtain rfl := byte 0 here
    exact .inr (.inr ⟨by simp [earned, next 0 here], by decide, (next 0 here (by decide)).symm⟩)
  · obtain rfl := byte 1 here
    exact .inr (.inr ⟨by simp [earned, next 1 here], by decide, (next 1 here (by decide)).symm⟩)
  · obtain rfl := byte 2 here
    exact .inr (.inl ⟨by simp [earned, next 2 here], by decide, (next 2 here (by decide)).symm⟩)
  · obtain rfl := byte 3 here
    exact .inr (.inr ⟨by simp [earned, next 3 here], by decide, (next 3 here (by decide)).symm⟩)
  · obtain rfl := byte 4 here
    exact .inr (.inr ⟨by simp [earned, next 4 here], by decide, (next 4 here (by decide)).symm⟩)
  · obtain rfl := byte 5 here
    have zero : (n + 1) % 6 = 0 := by omega
    exact .inl ⟨by simp [earned, zero], by decide, zero⟩

/-! ## Runs -/

variable {s : Recovery}

@[simp] theorem hardReset_ran (bus : Bool) : (s.hardReset bus).ran = s.ran := by
  cases bus <;> rfl

@[simp] theorem hardReset_streak (bus : Bool) : (s.hardReset bus).streak = s.streak := by
  cases bus <;> rfl

@[simp] theorem hardReset_lost (bus : Bool) : (s.hardReset bus).lost = s.lost := by
  cases bus <;> rfl

@[simp] theorem hardReset_driver (bus : Bool) : (s.hardReset bus).driver = s.driver := by
  cases bus <;> rfl

theorem boot_counts : boot.Counts where
  streak := fun _ => rfl
  queued := rfl
  steps := fun _ none => nomatch none
  driver := .inl rfl

/-- What changes neither streaks nor the queue. -/
theorem Counts.same (h : s.Counts) {s' : Recovery} (streak : s'.streak = s.streak)
    (lost : s'.lost = s.lost)
    (queue : s'.recoverQueued = s.recoverQueued ∧ s'.owed = s.owed ∨
      s'.recoverQueued = CELL_RECOVER_NONE ∧ s'.owed = [])
    (driver : s'.driver = s.driver ∨ s'.driver = some loopTask) : s'.Counts := by
  refine ⟨fun use => by rw [streak, lost]; exact h.streak use, ?_, ?_, ?_⟩
  · rcases queue with ⟨queued, owed⟩ | ⟨queued, owed⟩
    · rw [queued, owed]
      exact h.queued
    · rw [queued, owed]
      rfl
  · rcases queue with ⟨-, owed⟩ | ⟨-, owed⟩
    · rw [owed]
      exact h.steps
    · rw [owed]
      exact fun _ none => nomatch none
  · rcases driver with same | set
    · rw [same]
      exact h.driver
    · exact .inr set

theorem Counts.hardReset (h : s.Counts) (bus : Bool) : (s.hardReset bus).Counts := by
  refine h.same (hardReset_streak bus) (hardReset_lost bus) ?_ (.inl (hardReset_driver bus))
  cases bus
  · exact .inl ⟨rfl, rfl⟩
  · exact .inr ⟨rfl, rfl⟩

theorem Counts.socketRecoverRun (h : s.Counts) (task : Nat) (step : UInt8) (bus : Bool) :
    (s.socketRecoverRun task step bus).Counts := by
  have noted : ({ s with ran := s.ran ++ [(task, step)] } : Recovery).Counts :=
    h.same rfl rfl (.inl ⟨rfl, rfl⟩) (.inl rfl)
  unfold Recovery.socketRecoverRun
  split
  · exact noted.hardReset bus
  · exact noted

theorem Counts.socketOk (h : s.Counts) (use : SocketUse) : (s.socketOk use).Counts := by
  refine ⟨fun other => ?_, h.queued, h.steps, h.driver⟩
  simp only [Recovery.socketOk]
  by_cases same : other = use
  · subst same
    simp
  · rw [Function.update_of_ne same, Function.update_of_ne same]
    exact h.streak other

/-- A failure behind its count. -/
theorem Counts.socketRecover (h : s.Counts) (task : Nat) (use : SocketUse) (bus : Bool) :
    (s.socketRecover task use bus).Counts ∧
      (s.socketRecover task use bus).ran =
        s.ran ++ s.expected (.socketFailed task use bus) ∧
      (s.socketRecover task use bus).owed = s.stillOwed (.socketFailed task use bus) := by
  have counted (value : UInt8) (eq : value.toNat = (s.lost use + 1) % 6) :
      ({ s with
        lastHealthMs := 0
        streak := Function.update s.streak use value
        lost := Function.update s.lost use (s.lost use + 1) } : Recovery).Counts := by
    refine ⟨fun other => ?_, h.queued, h.steps, h.driver⟩
    by_cases same : other = use
    · subst same
      simpa using eq
    · simpa [same] using h.streak other
  have here : cellRecoverHere task s.driver = true ↔ s.driver = none ∨ task = loopTask := by
    unfold cellRecoverHere
    rcases h.driver with unknown | known
    · simp [unknown]
    · simp [known, eq_comm]
  have later (step : UInt8) (value : UInt8) (eq : value.toNat = (s.lost use + 1) % 6)
      (known : step = CELL_RECOVER_RECYCLE ∨ step = CELL_RECOVER_RESET) :
      ({ s with
        lastHealthMs := 0
        streak := Function.update s.streak use value
        lost := Function.update s.lost use (s.lost use + 1)
        recoverQueued := s.recoverQueued ||| step
        owed := s.owed ++ [step] } : Recovery).Counts := by
    refine ⟨(counted value eq).streak, ?_, ?_, h.driver⟩
    · rw [bits_append, h.queued]
    · intro other member
      rcases List.mem_append.mp member with old | new
      · exact h.steps other old
      · rw [List.mem_singleton.mp new]
        exact known
  have none_ne : CELL_RECOVER_RESET ≠ CELL_RECOVER_NONE ∧
      CELL_RECOVER_RECYCLE ≠ CELL_RECOVER_NONE ∧
      CELL_RECOVER_RECYCLE ≠ CELL_RECOVER_RESET := by decide
  unfold Recovery.socketRecover expected stillOwed
  rcases cellRecoverStep_eq (h.streak use) with
    ⟨earns, step, zero⟩ | ⟨earns, step, next⟩ | ⟨earns, step, next⟩
  · simp only [step, earns, none_ne.1, if_true, if_false]
    by_cases mine : s.driver = none ∨ task = loopTask
    · rw [if_pos (here.mpr mine), if_pos mine, if_pos mine]
      refine ⟨(counted 0 zero.symm).socketRecoverRun task _ bus, ?_, ?_⟩
      · simp [Recovery.socketRecoverRun]
      · cases bus <;> simp [Recovery.socketRecoverRun, Recovery.hardReset]
    · rw [if_neg (fun now => mine (here.mp now)), if_neg mine, if_neg mine]
      exact ⟨later _ 0 zero.symm (.inr rfl), (List.append_nil _).symm, rfl⟩
  · simp only [step, earns, none_ne.2.1, none_ne.2.2, if_false]
    by_cases mine : s.driver = none ∨ task = loopTask
    · rw [if_pos (here.mpr mine), if_pos mine, if_pos mine]
      refine ⟨(counted _ next).socketRecoverRun task _ bus, ?_, ?_⟩
      · simp [Recovery.socketRecoverRun, none_ne.2.2]
      · simp [Recovery.socketRecoverRun, none_ne.2.2]
    · rw [if_neg (fun now => mine (here.mp now)), if_neg mine, if_neg mine]
      exact ⟨later _ _ next (.inl rfl), (List.append_nil _).symm, rfl⟩
  · simp only [step, earns, none_ne.1.symm, if_true, if_false]
    refine ⟨counted _ next, ?_, ?_⟩
    · simp
    · simp

/-- A probe runs the strongest step that is owed. -/
theorem Counts.probe (h : s.Counts) (resetBus registered : Bool) :
    (s.probe resetBus registered).Counts ∧
      (s.probe resetBus registered).ran = s.ran ++
        (if s.owed ≠ [] then
          [(loopTask, if CELL_RECOVER_RESET ∈ s.owed then CELL_RECOVER_RESET
            else CELL_RECOVER_RECYCLE)]
        else []) ∧
      (s.probe resetBus registered).owed = [] := by
  have taken : ({ s with recoverQueued := CELL_RECOVER_NONE, owed := [] } : Recovery).Counts :=
    h.same rfl rfl (.inr ⟨rfl, rfl⟩) (.inl rfl)
  have ends {r : Recovery} (counts : r.Counts) :
      let left := if (!r.started) = true then r
        else if (!registered) = true then { r with linkUp := false, started := false } else r
      left.Counts ∧ left.ran = r.ran ∧ left.owed = r.owed := by
    dsimp only
    split
    · exact ⟨counts, rfl, rfl⟩
    split
    · exact ⟨counts.same rfl rfl (.inl ⟨rfl, rfl⟩) (.inl rfl), rfl, rfl⟩
    · exact ⟨counts, rfl, rfl⟩
  unfold Recovery.probe
  rw [h.queued, pick_bits h.steps]
  by_cases none : s.owed = []
  · rw [if_pos none, if_neg (not_not_intro none)]
    dsimp only
    rw [if_neg (not_not_intro rfl)]
    obtain ⟨counts, ran, owed⟩ := ends taken
    exact ⟨counts, ran.trans (List.append_nil _).symm, owed⟩
  · have some (step : UInt8) (known : step = CELL_RECOVER_RECYCLE ∨ step = CELL_RECOVER_RESET) :
        step ≠ CELL_RECOVER_NONE := by
      obtain rfl | rfl := known <;> decide
    rw [if_neg none, if_pos none]
    generalize picked : (if CELL_RECOVER_RESET ∈ s.owed then CELL_RECOVER_RESET
      else CELL_RECOVER_RECYCLE) = step
    have known : step = CELL_RECOVER_RECYCLE ∨ step = CELL_RECOVER_RESET := by
      rw [← picked]
      split
      · exact .inr rfl
      · exact .inl rfl
    dsimp only
    rw [if_pos (some step known)]
    obtain ⟨counts, ran, owed⟩ := ends (taken.socketRecoverRun loopTask step resetBus)
    refine ⟨counts, ran.trans ?_, owed.trans ?_⟩
    · unfold Recovery.socketRecoverRun
      split
      · exact hardReset_ran resetBus
      · rfl
    · unfold Recovery.socketRecoverRun
      split
      · cases resetBus <;> rfl
      · rfl

/-- What one event runs and leaves. -/
theorem Counts.step (h : s.Counts) (e : RecoverEvent) :
    (s.step e).Counts ∧ (s.step e).ran = s.ran ++ s.expected e ∧
      (s.step e).owed = s.stillOwed e := by
  cases e with
  | socketOk use => exact ⟨h.socketOk use, (List.append_nil _).symm, rfl⟩
  | socketFailed task use bus => exact h.socketRecover task use bus
  | tick up =>
      simp only [Recovery.step, expected, stillOwed, List.append_nil]
      by_cases fresh : up = true ∧ s.started = false
      · rw [if_pos (by simpa using fresh), if_pos fresh]
        exact ⟨h.same rfl rfl (.inr ⟨rfl, rfl⟩) (.inr rfl), rfl, rfl⟩
      · rw [if_neg (by simpa using fresh), if_neg fresh]
        exact ⟨h.same rfl rfl (.inl ⟨rfl, rfl⟩) (.inr rfl), rfl, rfl⟩
  | loop now bus resetBus registered =>
      simp only [Recovery.step, Recovery.loop, expected, stillOwed]
      have driven : ({ s with driver := some loopTask } : Recovery).Counts :=
        h.same rfl rfl (.inl ⟨rfl, rfl⟩) (.inr rfl)
      have probed : ({ s with driver := some loopTask, lastHealthMs := now } : Recovery).Counts :=
        h.same rfl rfl (.inl ⟨rfl, rfl⟩) (.inr rfl)
      cases started : s.started with
      | false => simpa [started] using driven
      | true =>
          cases due : s.due now with
          | false => simpa [started, due] using driven
          | true =>
              cases bus with
              | false => simpa [started, due] using probed
              | true =>
                  have outcome := probed.probe resetBus registered
                  simpa [started, due] using outcome
  | hardReset bus =>
      refine ⟨h.hardReset bus, ?_, ?_⟩
      · simp [Recovery.step, expected]
      · cases bus <;> rfl

end Recovery

/-- In every interleaving of the tasks: the third, ninth and so on failure in a row recycles the
bearer and each sixth resets the modem. The driver's task runs the step at once, before there is
one any task does; a step of another task is left for the probe, which runs the strongest one left
since the last hard reset or fresh bearer. Nothing else runs a step. -/
theorem socket_recovery_runs (es : List RecoverEvent) :
    Meets Recovery.step
      (fun s e => (s.step e).ran = s.ran ++ s.expected e ∧ (s.step e).owed = s.stillOwed e ∧
        (s.driver = none ∨ s.driver = some loopTask))
      .boot es :=
  @meets_of_invariant _ _ Recovery.step _ Recovery.Counts (fun _ e h => (h.step e).1)
    (fun _ e h => ⟨(h.step e).2.1, (h.step e).2.2, h.driver⟩) _ Recovery.boot_counts es

end Thesada.Cellular
