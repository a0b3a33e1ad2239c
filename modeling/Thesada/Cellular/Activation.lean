import Thesada.Library.Machine
import Thesada.Library.Word32

/-!
# The phases of a cellular activation

`Cellular::tickActivation` brings the link up one phase a call. `Cellular::hardReset` cuts the
modem's power and drops the flags, and the phase stays: the shell command runs it between two
calls, or inside a wait of a phase that pumps the console.

What the modem, the AT bus and the configuration answer is part of a `Tick`. `log` only records
the phases that succeeded since the modem's last power cycle; no step reads it.
-/

namespace Thesada.Cellular

inductive ActPhase where
  | init
  | powerOn
  | sim
  | radioCfg
  | register
  | bearer
  deriving DecidableEq

inductive ActStatus where
  | pending
  | done
  | failed
  deriving DecidableEq

/-- A call of `hardReset`: the AT bus is free, the PMU cuts the power, the modem answers again. -/
structure Reset where
  bus : Bool
  pmu : Bool
  back : Bool

/-- The modem loses its power. -/
def Reset.cycles (r : Reset) : Bool := r.bus && r.pmu

/-- What a call of `tickActivation` reads. -/
structure Tick where
  now : Nat
  /-- `millis()` at the end of the call. -/
  later : Nat
  activationTimeout : Nat
  regTimeout : Nat
  /-- The AT bus is free. -/
  bus : Bool
  /-- `wakeModem`. -/
  woken : Bool
  /-- A PIN is set and the SIM asks for it. -/
  locked : Bool
  simUnlock : Bool
  /-- The SIM is ready before the wait. -/
  ready : Bool
  /-- The SIM is ready at the end. -/
  readyLater : Bool
  pollRegistration : Int
  activateBearer : Bool
  /-- The hard resets that the console runs in a wait of this call, as they end. -/
  resets : List Reset
  /-- The hard reset of the deadline guard. -/
  guard : Reset

structure Link where
  modemAlive : Bool
  started : Bool
  actPhase : ActPhase
  actDeadline : Nat
  regPollStart : Nat
  lastRegPoll : Nat
  log : List ActPhase

inductive LinkEvent where
  | tick (t : Tick)
  /-- `cell.reset`, a socket's recovery or the streak of failures. -/
  | hardReset (r : Reset)
  /-- A lost link or `dataLinkDown`. -/
  | linkDown
  /-- `powerOn` for the GNSS module. -/
  | powerOn (bus woken : Bool)

namespace Link

def boot : Link where
  modemAlive := false
  started := false
  actPhase := .init
  actDeadline := 0
  regPollStart := 0
  lastRegPoll := 0
  log := []

/-- `Cellular::hardReset`, with the resets inside its own wait before it. -/
def hardReset (s : Link) (r : Reset) : Link :=
  if r.bus then
    { s with
      modemAlive := r.pmu && r.back
      started := false
      log := if r.pmu then [] else s.log }
  else s

/-- The resets of a wait that pumps the console. -/
def pumpConsole (s : Link) (resets : List Reset) : Link := resets.foldl hardReset s

def failed (s : Link) : ActStatus × Link := (.failed, { s with actPhase := .init })

/-- A phase succeeds, and the next one is `next`. -/
def succeeded (s : Link) (phase next : ActPhase) : Link :=
  { s with actPhase := next, log := s.log ++ [phase] }

/-- The deadline of the cycle has passed: `(int32_t)(now - s_actDeadline) >= 0`. -/
def expired (s : Link) (t : Tick) : Bool :=
  s.actPhase != .init && s.actDeadline != 0 &&
    decide (Word32.sub t.now s.actDeadline < 2 ^ 31)

def tickInit (s : Link) (t : Tick) : ActStatus × Link :=
  (.pending,
    { s with actDeadline := Word32.add t.now t.activationTimeout, actPhase := .powerOn })

def tickPowerOn (s : Link) (t : Tick) : ActStatus × Link :=
  if s.modemAlive || (t.bus && t.woken) then
    (.pending, { s with modemAlive := true }.succeeded .powerOn .sim)
  else s.failed

def tickSim (s : Link) (t : Tick) : ActStatus × Link :=
  if !t.bus then s.failed
  else if t.locked && !t.simUnlock then s.failed
  else
    let s := if t.ready then s else s.pumpConsole t.resets
    if t.readyLater then (.pending, s.succeeded .sim .radioCfg) else s.failed

def tickRadioCfg (s : Link) (t : Tick) : ActStatus × Link :=
  if !t.bus then (.pending, s)
  else
    let s := s.pumpConsole t.resets
    (.pending, { s with regPollStart := t.later, lastRegPoll := 0 }.succeeded .radioCfg .register)

def tickRegister (s : Link) (t : Tick) : ActStatus × Link :=
  if s.lastRegPoll != 0 && decide (Word32.sub t.now s.lastRegPoll < 1000) then (.pending, s)
  else
    let s := { s with lastRegPoll := t.now }
    if !t.bus then (.pending, s)
    else if 0 < t.pollRegistration then (.pending, s.succeeded .register .bearer)
    else if t.pollRegistration < 0 || decide (t.regTimeout < Word32.sub t.later s.regPollStart) then
      (.pending, { s with actPhase := .radioCfg })
    else (.pending, s)

def tickBearer (s : Link) (t : Tick) : ActStatus × Link :=
  if !t.bus then (.pending, s)
  else if !t.activateBearer then (.pending, { s with actPhase := .radioCfg })
  else (.done, { s with started := true }.succeeded .bearer .init)

def tickActivation (s : Link) (t : Tick) : ActStatus × Link :=
  if s.started then (.done, { s with actPhase := .init })
  else if s.expired t then ((s.pumpConsole t.resets).hardReset t.guard).failed
  else
    match s.actPhase with
    | .init => s.tickInit t
    | .powerOn => s.tickPowerOn t
    | .sim => s.tickSim t
    | .radioCfg => s.tickRadioCfg t
    | .register => s.tickRegister t
    | .bearer => s.tickBearer t

def step (s : Link) : LinkEvent → Link
  | .tick t => (s.tickActivation t).2
  | .hardReset r => s.hardReset r
  | .linkDown => { s with started := false }
  | .powerOn bus woken => { s with modemAlive := s.modemAlive || (bus && woken) }

/-! ## What was walked since the last power cycle -/

/-- The log ends with a walk from POWER_ON: then SIM, then radio configurations and
registrations, and last the phases `last`. -/
def Walk (last log : List ActPhase) : Prop :=
  ∃ earlier middle, (∀ phase ∈ middle, phase = .radioCfg ∨ phase = .register) ∧
    log = earlier ++ [.powerOn, .sim] ++ middle ++ last

/-- A tick brings the link newly up. -/
def bringsUp (s : Link) : LinkEvent → Bool
  | .tick t => !s.started && (s.tickActivation t).1 == .done
  | _ => false

/-- Whenever the link comes newly up, every phase has succeeded since the last power cycle. -/
def UpWalked (s : Link) (e : LinkEvent) : Prop :=
  s.bringsUp e = true → Walk [.radioCfg, .register, .bearer] (s.step e).log

/-- The wait of this tick pumps the console, and it is not the deadline guard's. -/
def pumps (s : Link) (t : Tick) : Bool :=
  !s.started && !s.expired t &&
    match s.actPhase with
    | .sim => t.bus && !(t.locked && !t.simUnlock) && !t.ready
    | .radioCfg => t.bus
    | _ => false

/-- A power cycle comes before the phase SIM, or from the deadline guard. -/
def CyclesEarly (s : Link) : LinkEvent → Prop
  | .tick t => s.pumps t = true → ∀ r ∈ t.resets, r.cycles = false
  | .hardReset r => r.cycles = true → s.actPhase = .init ∨ s.actPhase = .powerOn
  | _ => True

theorem Walk.next {last log : List ActPhase} (h : Walk last log) (phase : ActPhase) :
    Walk (last ++ [phase]) (log ++ [phase]) := by
  obtain ⟨earlier, middle, radio, rfl⟩ := h
  exact ⟨earlier, middle, radio, List.append_assoc _ _ _⟩

/-- A failed registration or bearer goes back to the radio configuration. -/
theorem Walk.again {last log : List ActPhase} (h : Walk last log)
    (radio : ∀ phase ∈ last, phase = .radioCfg ∨ phase = .register) : Walk [] log := by
  obtain ⟨earlier, middle, before, rfl⟩ := h
  refine ⟨earlier, middle ++ last, ?_, ?_⟩
  · intro phase mem
    rcases List.mem_append.mp mem with mem | mem
    · exact before phase mem
    · exact radio phase mem
  · rw [List.append_nil, List.append_assoc _ middle last]

theorem Walk.powered {last log : List ActPhase} (h : Walk last log) : .powerOn ∈ log := by
  obtain ⟨earlier, middle, -, rfl⟩ := h
  simp

/-- What has succeeded since the last power cycle when a phase is next. -/
def Reached : ActPhase → List ActPhase → Prop
  | .init, _ => True
  | .powerOn, _ => True
  | .sim, log => ∃ earlier, log = earlier ++ [.powerOn]
  | .radioCfg, log => Walk [] log
  | .register, log => Walk [.radioCfg] log
  | .bearer, log => Walk [.radioCfg, .register] log

/-- The phase of a link is reached. -/
def Sound (s : Link) : Prop := Reached s.actPhase s.log

variable {s : Link}

@[simp] theorem hardReset_actPhase (s : Link) (r : Reset) :
    (s.hardReset r).actPhase = s.actPhase := by
  unfold hardReset
  split <;> rfl

theorem hardReset_log {r : Reset} (powered : r.cycles = false) :
    (s.hardReset r).log = s.log := by
  unfold hardReset
  split
  · next bus =>
      have pmu : r.pmu = false := by simpa [Reset.cycles, bus] using powered
      simp [pmu]
  · rfl

theorem pumpConsole_log {resets : List Reset} (powered : ∀ r ∈ resets, r.cycles = false) :
    (s.pumpConsole resets).log = s.log := by
  induction resets generalizing s with
  | nil => rfl
  | cons r resets ih =>
      have rest := ih (s := s.hardReset r) fun r' mem => powered r' (List.mem_cons_of_mem _ mem)
      exact rest.trans (hardReset_log (powered r List.mem_cons_self))

/-! ## What each phase keeps -/

section

variable {t : Tick}

theorem tickPowerOn_sound : (s.tickPowerOn t).2.Sound := by
  unfold tickPowerOn
  split
  · exact ⟨s.log, rfl⟩
  · trivial

theorem tickSim_sound (h : Reached .sim s.log)
    (powered : t.bus = true → (t.locked && !t.simUnlock) = false → t.ready = false →
      ∀ r ∈ t.resets, r.cycles = false) :
    (s.tickSim t).2.Sound := by
  obtain ⟨earlier, log⟩ := h
  simp only [tickSim]
  split
  · trivial
  · next bus =>
      split
      · trivial
      · next unlocked =>
          have waited : (if t.ready then s else s.pumpConsole t.resets).log = s.log := by
            split
            · rfl
            · next ready =>
                apply pumpConsole_log
                exact powered (by simpa using bus) (by simpa using unlocked) (by simpa using ready)
          split
          · refine ⟨earlier, [], by simp, ?_⟩
            show (if t.ready then s else s.pumpConsole t.resets).log ++ [.sim] = _
            rw [waited, log]
            simp
          · trivial

theorem tickRadioCfg_sound (h : Reached .radioCfg s.log) (phase : s.actPhase = .radioCfg)
    (powered : t.bus = true → ∀ r ∈ t.resets, r.cycles = false) :
    (s.tickRadioCfg t).2.Sound := by
  simp only [tickRadioCfg]
  split
  · rw [Sound, phase]
    exact h
  · next bus =>
      have waited := pumpConsole_log (s := s) (powered (by simpa using bus))
      show Walk _ ((s.pumpConsole t.resets).log ++ [.radioCfg])
      rw [waited]
      exact Walk.next h .radioCfg

theorem tickRegister_sound (h : Reached .register s.log) (phase : s.actPhase = .register) :
    (s.tickRegister t).2.Sound := by
  have stays : s.Sound := by
    rw [Sound, phase]
    exact h
  simp only [tickRegister]
  split
  · exact stays
  · split
    · exact stays
    · split
      · exact Walk.next h .register
      · split
        · exact Walk.again h (by simp)
        · exact stays

theorem tickBearer_sound (h : Reached .bearer s.log) (phase : s.actPhase = .bearer) :
    (s.tickBearer t).2.Sound ∧
      ((s.tickBearer t).1 = .done →
        Walk [.radioCfg, .register, .bearer] (s.tickBearer t).2.log) := by
  unfold tickBearer
  split
  · refine ⟨?_, by simp⟩
    rw [Sound, phase]
    exact h
  · split
    · exact ⟨Walk.again h (by simp), by simp⟩
    · exact ⟨trivial, fun _ => Walk.next h .bearer⟩

/-- No phase but BEARER ends with DONE. -/
theorem tickActivation_done (started : s.started = false)
    (done : (s.tickActivation t).1 = .done) :
    s.actPhase = .bearer ∧ s.tickActivation t = s.tickBearer t := by
  unfold tickActivation at done ⊢
  rw [started, if_neg Bool.false_ne_true] at done ⊢
  split at done
  · cases done
  · next live =>
      rw [if_neg live]
      split at done
      · cases done
      · unfold tickPowerOn at done
        split at done <;> cases done
      · simp only [tickSim] at done
        repeat' split at done
        all_goals cases done
      · simp only [tickRadioCfg] at done
        split at done <;> cases done
      · simp only [tickRegister] at done
        repeat' split at done
        all_goals cases done
      · next phase => exact ⟨phase, rfl⟩

theorem Sound.tick (h : s.Sound)
    (early : s.pumps t = true → ∀ r ∈ t.resets, r.cycles = false) :
    (s.tickActivation t).2.Sound := by
  unfold tickActivation
  split
  · trivial
  · next down =>
      split
      · trivial
      · next live =>
          have started : s.started = false := by simpa using down
          have within : s.expired t = false := by simpa using live
          split
          · trivial
          · exact tickPowerOn_sound
          · next phase =>
              apply tickSim_sound
              · rw [Sound, phase] at h
                exact h
              · intro bus unlocked ready
                apply early
                simp only [pumps, started, within, phase, bus, unlocked, ready]
                rfl
          · next phase =>
              refine tickRadioCfg_sound ?_ phase ?_
              · rw [Sound, phase] at h
                exact h
              · intro bus
                apply early
                simp only [pumps, started, within, phase, bus]
                rfl
          · next phase =>
              refine tickRegister_sound ?_ phase
              rw [Sound, phase] at h
              exact h
          · next phase =>
              refine (tickBearer_sound ?_ phase).1
              rw [Sound, phase] at h
              exact h

theorem Sound.up_walked (h : s.Sound) (e : LinkEvent) : s.UpWalked e := by
  intro up
  cases e with
  | tick t =>
      simp only [bringsUp, Bool.and_eq_true, Bool.not_eq_true', beq_iff_eq] at up
      obtain ⟨phase, same⟩ := tickActivation_done up.1 up.2
      have reached : Reached .bearer s.log := by
        rw [Sound, phase] at h
        exact h
      show Walk _ (s.tickActivation t).2.log
      rw [same] at up ⊢
      exact (tickBearer_sound reached phase).2 up.2
  | hardReset r => cases up
  | linkDown => cases up
  | powerOn bus woken => cases up

end

theorem Sound.step (h : s.Sound) (e : LinkEvent) (early : s.CyclesEarly e) : (s.step e).Sound := by
  cases e with
  | tick t => exact h.tick early
  | hardReset r =>
      show Reached (s.hardReset r).actPhase (s.hardReset r).log
      rw [hardReset_actPhase]
      cases cut : r.cycles with
      | true =>
          rcases early cut with phase | phase
          · rw [phase]
            trivial
          · rw [phase]
            trivial
      | false =>
          rw [hardReset_log cut]
          exact h
  | linkDown => exact h
  | powerOn bus woken => exact h

/-- In every run in which the modem loses its power only before the phase SIM, or in the deadline
guard, the link comes up only after a walk through every phase since the last power cycle. -/
theorem activation_walks (es : List LinkEvent)
    (early : Machine.Meets step CyclesEarly boot es) : Machine.Meets step UpWalked boot es :=
  early.yields (fun _ e h ok => ⟨Sound.step h e ok, Sound.up_walked h e⟩) trivial

instance (s : Link) : ∀ e, Decidable (s.CyclesEarly e)
  | .tick t => inferInstanceAs (Decidable (s.pumps t = true → ∀ r ∈ t.resets, r.cycles = false))
  | .hardReset r => inferInstanceAs (Decidable (r.cycles = true → _ ∨ _))
  | .linkDown => isTrue trivial
  | .powerOn _ _ => isTrue trivial

/-- A call on which everything answers. -/
def easyTick (now : Nat) (resets : List Reset) : Tick where
  now := now
  later := now
  activationTimeout := 1800000
  regTimeout := 180000
  bus := true
  woken := true
  locked := false
  simUnlock := false
  ready := true
  readyLater := true
  pollRegistration := 1
  activateBearer := true
  resets := resets
  guard := ⟨true, true, true⟩

/-- A hard reset, and then each phase once. -/
theorem activation_walks_easy :
    Machine.Meets step UpWalked boot (.hardReset ⟨true, true, true⟩ ::
      [1, 2, 3, 4, 5, 6].map fun now => .tick (easyTick now [])) :=
  activation_walks _ (by decide +kernel)

/-- `cell.reset` while the radio settles: the activation goes on to REGISTER and BEARER, and the
link comes up on a modem that saw no POWER_ON and no SIM phase since its power cycle. -/
theorem reset_while_settling :
    ¬∀ es : List LinkEvent, Machine.Meets step UpWalked boot es := by
  intro all
  obtain ⟨-, -, -, -, -, last, -⟩ := all [.tick (easyTick 1 []), .tick (easyTick 2 []),
    .tick (easyTick 3 []), .tick (easyTick 4 [⟨true, true, true⟩]), .tick (easyTick 5 []),
    .tick (easyTick 6 [])]
  have powered := (last (by decide +kernel)).powered
  exact absurd powered (by decide +kernel)

end Link

end Thesada.Cellular
