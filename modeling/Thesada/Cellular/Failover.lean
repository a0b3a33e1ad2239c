import Thesada.Cellular.Activation
import Thesada.Cellular.NtpServers
import Thesada.Library.Machine
import Thesada.Library.Word32

/-!
# WiFi and the cellular link

`CellularModule::loop` brings the modem up when WiFi has been down for a minute, and yields when it
has been up for one. While the modem carries the session and the clock is not set, it asks one time
server a pass.

`clock` counts milliseconds without a wrap, and `millis()` is its value modulo `2 ^ 32`. `streak`,
`began`, `queries` and `seen` only record what happened: no pass reads them.
-/

namespace Thesada.Cellular

open CString Machine

def WIFI_DOWN_HOLD_MS : Nat := 60000
def WIFI_UP_HOLD_MS : Nat := 60000
def TELEMETRY_INTERVAL_MS : Nat := 60000
def CELL_NTP_FIRST_MS : Nat := 30000
def CELL_NTP_RETRY_MS : Nat := 60000
def CELL_NTP_MAX_MS : Nat := 1800000
def CELL_NTP_NEXT_HOST_MS : Nat := 2000

/-- The loop of `cellNtpDelayMs`. -/
def ntpDoubled : (turns d : Nat) → Nat
  | 0, d => d
  | turns + 1, d => if d < CELL_NTP_MAX_MS then ntpDoubled turns (d * 2) else d

def cellNtpDelayMs (attempts : Nat) : Nat :=
  if attempts = 0 then CELL_NTP_FIRST_MS
  else
    let d := ntpDoubled (attempts - 1) CELL_NTP_RETRY_MS
    if d < CELL_NTP_MAX_MS then d else CELL_NTP_MAX_MS

/-- The difference of the two is not negative as an `int32_t`. -/
def cellNtpDue (now due : Nat) : Bool := decide (Word32.sub now due < 2147483648)

inductive CellState where
  | standby
  | activating
  | active
  deriving DecidableEq

/-- What a pass meets. -/
structure CellPass where
  /-- Milliseconds since the pass before. -/
  gap : Nat
  wifiUp : Bool
  /-- What `tickActivation` answers. -/
  tick : ActStatus
  isModemAlive : Bool
  activated : Bool
  /-- WiFi's SNTP has set the clock. -/
  sntp : Bool
  server : Str
  server2 : Str
  /-- `Cellular::ntpSync` sets the clock. -/
  ntpSync : Bool
  /-- `MQTTClient::connected`. -/
  connected : Bool
  linkMode : Str
  /-- Milliseconds that `tickActivation` or `ntpSync` takes, and what is behind it. -/
  took : Nat
  rest : Nat

inductive CellAct where
  | hardReset
  | ntpSync (host : Str)
  | emitActive (active : Bool)
  | emitRssi
  | dataLinkDown
  deriving DecidableEq

/-- What a pass saw, for the record. -/
structure CellSample where
  time : Nat
  wifiUp : Bool
  state : CellState
  tick : ActStatus

structure CellularModule where
  state : CellState
  wifiDownSince : Nat
  wifiUpSince : Nat
  actFails : Nat
  lastTelemetryMs : Nat
  ntpTries : Nat
  ntpAt : Nat
  ntpIdx : Nat
  ntpSynced : Bool
  /-- `MQTTClient::setCellularTransport`. -/
  transport : Bool
  clock : Nat
  /-- The activations that failed since one was done. -/
  streak : Nat
  /-- When the last activation was done. -/
  began : Nat
  /-- When time servers were asked since then, the last first. -/
  queries : List Nat
  seen : List CellSample

namespace CellularModule

def boot : CellularModule := ⟨.standby, 0, 0, 0, 0, 0, 0, 0, false, false, 0, 0, 0, [], []⟩

def millis (s : CellularModule) : Nat := s.clock % Word32.size

def standby (s : CellularModule) (p : CellPass) : CellularModule :=
  if !p.wifiUp then
    let wifiDownSince := if s.wifiDownSince = 0 then s.millis else s.wifiDownSince
    if WIFI_DOWN_HOLD_MS ≤ Word32.sub s.millis wifiDownSince then
      { s with wifiDownSince, state := .activating }
    else { s with wifiDownSince }
  else { s with wifiDownSince := 0 }

def activating (s : CellularModule) (p : CellPass) : List CellAct × CellularModule :=
  match p.tick with
  | .pending => ([], s)
  | .done =>
      ([], { s with
        actFails := 0
        state := .active
        wifiUpSince := 0
        lastTelemetryMs := 0
        ntpTries := 0
        ntpIdx := 0
        ntpAt := (s.clock + p.took + cellNtpDelayMs 0) % Word32.size
        transport := true
        streak := 0
        began := s.clock + p.took
        queries := [] })
  | .failed =>
      let s := { s with wifiDownSince := s.millis, state := .standby, streak := s.streak + 1 }
      if 3 ≤ s.actFails + 1 then ([.hardReset], { s with actFails := 0 })
      else ([], { s with actFails := s.actFails + 1 })

/-- The end of `syncClock` when the server at `idx` of `n` did not set the clock. -/
def ntpMissed (s : CellularModule) (p : CellPass) (n idx : Nat) : CellularModule :=
  if idx + 1 < n then
    { s with
      ntpIdx := idx + 1
      ntpAt := (s.clock + p.took + CELL_NTP_NEXT_HOST_MS) % Word32.size }
  else
    let tries := if s.ntpTries < 255 then s.ntpTries + 1 else s.ntpTries
    { s with
      ntpIdx := 0
      ntpTries := tries
      ntpAt := (s.clock + p.took + cellNtpDelayMs tries) % Word32.size }

def syncClock (s : CellularModule) (p : CellPass) : List CellAct × CellularModule :=
  let cand := cellNtpCandidates (some p.server) (some p.server2)
  let idx := if cand.length ≤ s.ntpIdx then 0 else s.ntpIdx
  match cand[idx]? with
  | some host =>
      let s := { s with queries := s.clock :: s.queries }
      if p.ntpSync then ([.ntpSync host], { s with ntpIdx := idx, ntpSynced := true })
      else ([.ntpSync host], s.ntpMissed p cand.length idx)
  | none => ([], s.ntpMissed p cand.length idx)

def telemetry (s : CellularModule) (p : CellPass) : List CellAct × CellularModule :=
  if p.connected ∧ TELEMETRY_INTERVAL_MS ≤ Word32.sub s.millis s.lastTelemetryMs then
    ((if s.lastTelemetryMs = 0 then [.emitActive true] else []) ++ [.emitRssi],
      { s with lastTelemetryMs := s.millis })
  else ([], s)

/-- The end of a pass in ACTIVE. -/
def watchWifi (s : CellularModule) (p : CellPass) : List CellAct × CellularModule :=
  if p.wifiUp then
    let wifiUpSince := if s.wifiUpSince = 0 then s.millis else s.wifiUpSince
    if WIFI_UP_HOLD_MS ≤ Word32.sub s.millis wifiUpSince then
      (.emitActive false :: if p.linkMode ≠ "standby".toList then [.dataLinkDown] else [],
        { s with transport := false, state := .standby, wifiDownSince := 0, wifiUpSince := 0 })
    else { s with wifiUpSince }.telemetry p
  else { s with wifiUpSince := 0 }.telemetry p

def active (s : CellularModule) (p : CellPass) : List CellAct × CellularModule :=
  if !p.isModemAlive || !p.activated then
    ([], { s with transport := false, state := .activating, lastTelemetryMs := 0 })
  else if !s.ntpSynced && cellNtpDue s.millis s.ntpAt then
    let asked := s.syncClock p
    let watched := asked.2.watchWifi p
    (asked.1 ++ watched.1, watched.2)
  else s.watchWifi p

/-- The pass begins. -/
def begins (s : CellularModule) (p : CellPass) : CellularModule :=
  { s with
    clock := s.clock + p.gap
    ntpSynced := s.ntpSynced || p.sntp
    seen := s.seen ++ [⟨s.clock + p.gap, p.wifiUp, s.state, p.tick⟩] }

def loop (s : CellularModule) (p : CellPass) : List CellAct × CellularModule :=
  let s := s.begins p
  let passed := match s.state with
    | .standby => ([], s.standby p)
    | .activating => s.activating p
    | .active => s.active p
  (passed.1, { passed.2 with clock := passed.2.clock + p.took + p.rest })

def step (s : CellularModule) (p : CellPass) : CellularModule := (s.loop p).2

/-! ## Switching -/

/-- The passes behind one with `start`, at `since`, saw WiFi as `up` and were in `state`. -/
def HeldFor (s : CellularModule) (up : Bool) (state : CellState) (since : Nat)
    (start : CellSample → Prop) : Prop :=
  ∃ older q held, s.seen = older ++ q :: held ∧ q.time % Word32.size = since ∧ start q ∧
    ∀ r ∈ held, r.wifiUp = up ∧ r.state = state

/-- A hold of WiFi that is down begins at a pass that saw it down, or at a failed activation. -/
def DownStart (q : CellSample) : Prop :=
  q.wifiUp = false ∧ q.state = .standby ∨ q.tick = .failed ∧ q.state = .activating

def UpStart (q : CellSample) : Prop := q.wifiUp = true ∧ q.state = .active

/-- What the switching of a module depends on. -/
structure SameLink (s t : CellularModule) : Prop where
  state : t.state = s.state
  wifiDownSince : t.wifiDownSince = s.wifiDownSince
  wifiUpSince : t.wifiUpSince = s.wifiUpSince
  actFails : t.actFails = s.actFails
  transport : t.transport = s.transport
  clock : t.clock = s.clock
  streak : t.streak = s.streak
  seen : t.seen = s.seen

structure Steady (s : CellularModule) : Prop where
  transport : s.transport = decide (s.state = .active)
  past : ∀ q ∈ s.seen, q.time ≤ s.clock
  down : s.state = .standby → s.wifiDownSince ≠ 0 →
    s.HeldFor false .standby s.wifiDownSince DownStart
  up : s.state = .active → s.wifiUpSince ≠ 0 → s.HeldFor true .active s.wifiUpSince UpStart
  fails : s.actFails = s.streak % 3

theorem steady_boot : boot.Steady where
  transport := rfl
  past := nofun
  down _ some := absurd rfl some
  up := nofun
  fails := rfl

variable {s t : CellularModule} {p : CellPass} {up : Bool} {state : CellState} {since : Nat}
  {start : CellSample → Prop}

theorem SameLink.steady (same : SameLink s t) (h : s.Steady) : t.Steady := by
  refine ⟨?_, ?_, ?_, ?_, ?_⟩
  · rw [same.transport, same.state, h.transport]
  · rw [same.seen, same.clock]
    exact h.past
  · rw [same.state, same.wifiDownSince, HeldFor, same.seen]
    exact h.down
  · rw [same.state, same.wifiUpSince, HeldFor, same.seen]
    exact h.up
  · rw [same.actFails, same.streak, h.fails]

/-- The hold goes on. -/
theorem HeldFor.begins (held : s.HeldFor up state since start) (saw : p.wifiUp = up)
    (now : s.state = state) : (s.begins p).HeldFor up state since start := by
  obtain ⟨older, q, behind, seen, began, started, same⟩ := held
  refine ⟨older, q, behind ++ [⟨s.clock + p.gap, p.wifiUp, s.state, p.tick⟩], ?_, began, started,
    ?_⟩
  · simp [CellularModule.begins, seen]
  · intro r mem
    rcases List.mem_append.mp mem with before | last
    · exact same r before
    · rw [List.mem_singleton.mp last]
      exact ⟨saw, now⟩

/-- A hold begins. -/
theorem heldFor_begins (started : start ⟨s.clock + p.gap, p.wifiUp, s.state, p.tick⟩) :
    (s.begins p).HeldFor up state (s.begins p).millis start :=
  ⟨s.seen, _, [], rfl, rfl, started, nofun⟩

theorem Steady.begins_past (h : s.Steady) :
    ∀ q ∈ (s.begins p).seen, q.time ≤ (s.begins p).clock := by
  intro q mem
  rcases List.mem_append.mp mem with before | last
  · exact Nat.le_add_right_of_le (h.past q before)
  · rw [List.mem_singleton.mp last]
    exact Nat.le_refl _

/-- A hold that was long enough `now`. -/
def HeldOut (seen : List CellSample) (now : Nat) (up : Bool) (state : CellState) (hold : Nat)
    (start : CellSample → Prop) : Prop :=
  ∃ older q held, seen = older ++ q :: held ∧ q.time + hold ≤ now ∧ start q ∧
    ∀ r ∈ held, r.wifiUp = up ∧ r.state = state

theorem HeldFor.out (held : s.HeldFor up state since start)
    (past : ∀ q ∈ s.seen, q.time ≤ s.clock) {hold : Nat}
    (long : hold ≤ Word32.sub s.millis since) : HeldOut s.seen s.clock up state hold start := by
  obtain ⟨older, q, behind, seen, rfl, started, same⟩ := held
  have before : q.time ≤ s.clock := past q (by simp [seen])
  refine ⟨older, q, behind, seen, ?_, started, same⟩
  unfold millis Word32.sub Word32.size at long
  omega

theorem Steady.standby (h : s.Steady) (now : s.state = .standby) :
    ((s.begins p).standby p).Steady ∧
      (((s.begins p).standby p).state = .activating →
        HeldOut (s.begins p).seen (s.begins p).clock false .standby WIFI_DOWN_HOLD_MS
          DownStart) := by
  have past := h.begins_past (p := p)
  have transport : s.transport = false := by rw [h.transport, now]; rfl
  unfold CellularModule.standby
  split
  next down =>
    have down : p.wifiUp = false := by simpa using down
    -- The hold goes on, or begins with this pass.
    have held : (s.begins p).HeldFor false .standby
        (if (s.begins p).wifiDownSince = 0 then (s.begins p).millis else (s.begins p).wifiDownSince)
        DownStart := by
      split
      next => exact heldFor_begins (.inl ⟨down, now⟩)
      next some => exact (h.down now some).begins down now
    dsimp only
    generalize (if (s.begins p).wifiDownSince = 0 then (s.begins p).millis
      else (s.begins p).wifiDownSince) = since at held ⊢
    split
    next long => exact ⟨⟨transport, past, nofun, nofun, h.fails⟩, fun _ => held.out past long⟩
    next =>
      refine ⟨⟨h.transport, past, fun _ _ => held, ?_, h.fails⟩, ?_⟩
      · intro other
        exact absurd (now.symm.trans other) nofun
      · intro other
        exact absurd (now.symm.trans other) nofun
  next =>
    refine ⟨⟨h.transport, past, fun _ some => absurd rfl some, ?_, h.fails⟩, ?_⟩
    · intro other
      exact absurd (now.symm.trans other) nofun
    · intro other
      exact absurd (now.symm.trans other) nofun

theorem Steady.activating (h : s.Steady) (now : s.state = .activating) :
    ((s.begins p).activating p).2.Steady ∧
      (CellAct.hardReset ∈ ((s.begins p).activating p).1 ↔
        p.tick = .failed ∧ (s.streak + 1) % 3 = 0) := by
  have past := h.begins_past (p := p)
  have transport : s.transport = false := by rw [h.transport, now]; rfl
  have fails := h.fails
  unfold CellularModule.activating
  split
  next pending =>
    refine ⟨⟨h.transport, past, ?_, ?_, fails⟩, by simp [pending]⟩
    · intro other
      exact absurd (now.symm.trans other) nofun
    · intro other
      exact absurd (now.symm.trans other) nofun
  next done =>
    exact ⟨⟨rfl, past, nofun, fun _ some => absurd rfl some, rfl⟩, by simp [done]⟩
  next failed =>
    have held : (s.begins p).HeldFor false .standby (s.begins p).millis DownStart :=
      heldFor_begins (.inr ⟨failed, now⟩)
    dsimp only
    split
    next third =>
      change 3 ≤ s.actFails + 1 at third
      refine ⟨⟨transport, past, fun _ _ => held, nofun, ?_⟩, ?_⟩
      · change 0 = (s.streak + 1) % 3
        omega
      · simp only [List.mem_singleton, true_iff]
        exact ⟨failed, by omega⟩
    next fewer =>
      change ¬3 ≤ s.actFails + 1 at fewer
      refine ⟨⟨transport, past, fun _ _ => held, nofun, ?_⟩, ?_⟩
      · change s.actFails + 1 = (s.streak + 1) % 3
        omega
      · simp only [List.not_mem_nil, false_iff, not_and]
        intro _
        omega

theorem SameLink.refl (s : CellularModule) : SameLink s s :=
  ⟨rfl, rfl, rfl, rfl, rfl, rfl, rfl, rfl⟩

theorem ntpMissed_sameLink (n idx : Nat) : SameLink s (s.ntpMissed p n idx) := by
  unfold ntpMissed
  split
  · exact ⟨rfl, rfl, rfl, rfl, rfl, rfl, rfl, rfl⟩
  · exact ⟨rfl, rfl, rfl, rfl, rfl, rfl, rfl, rfl⟩

theorem syncClock_sameLink : SameLink s (s.syncClock p).2 := by
  simp only [syncClock]
  split
  · split
    · exact ⟨rfl, rfl, rfl, rfl, rfl, rfl, rfl, rfl⟩
    · have same := @ntpMissed_sameLink { s with queries := s.clock :: s.queries } p
      exact { same _ _ with }
  · exact ntpMissed_sameLink _ _

theorem telemetry_sameLink : SameLink s (s.telemetry p).2 := by
  unfold telemetry
  split
  · exact ⟨rfl, rfl, rfl, rfl, rfl, rfl, rfl, rfl⟩
  · exact .refl s

theorem hardReset_notMem_syncClock : CellAct.hardReset ∉ (s.syncClock p).1 := by
  simp only [syncClock]
  split
  · split <;> simp
  · simp

theorem hardReset_notMem_telemetry : CellAct.hardReset ∉ (s.telemetry p).1 := by
  unfold telemetry
  split
  · split <;> simp
  · simp

/-- A module in ACTIVE, in a pass that has seen WiFi. -/
structure Watches (s : CellularModule) (p : CellPass) : Prop where
  now : s.state = .active
  transport : s.transport = true
  past : ∀ q ∈ s.seen, q.time ≤ s.clock
  held : p.wifiUp = true → s.HeldFor true .active
    (if s.wifiUpSince = 0 then s.millis else s.wifiUpSince) UpStart
  fails : s.actFails = s.streak % 3

theorem Steady.watches (h : s.Steady) (now : s.state = .active) : (s.begins p).Watches p where
  now := now
  transport := by
    have transport := h.transport
    rw [now] at transport
    exact transport
  past := h.begins_past
  held up := by
    split
    next => exact heldFor_begins ⟨up, now⟩
    next some => exact (h.up now some).begins up now
  fails := h.fails

theorem SameLink.watches (same : SameLink s t) (h : s.Watches p) : t.Watches p where
  now := same.state.trans h.now
  transport := same.transport.trans h.transport
  past := by
    rw [same.seen, same.clock]
    exact h.past
  held := by
    rw [millis, same.clock, same.wifiUpSince, HeldFor, same.seen]
    exact h.held
  fails := by rw [same.actFails, same.streak, h.fails]

theorem Watches.steady (h : s.Watches p)
    (up : since ≠ 0 → s.HeldFor true .active since UpStart) :
    ({ s with wifiUpSince := since } : CellularModule).Steady where
  transport := by rw [h.transport, h.now]; rfl
  past := h.past
  down other := absurd (h.now.symm.trans other) nofun
  up _ := up
  fails := h.fails

theorem Steady.telemetry (h : s.Steady) (now : s.state = .active) :
    (s.telemetry p).2.Steady ∧ (s.telemetry p).2.state = .active :=
  ⟨telemetry_sameLink.steady h, telemetry_sameLink.state.trans now⟩

theorem Watches.watchWifi (h : s.Watches p) :
    (s.watchWifi p).2.Steady ∧
      ((s.watchWifi p).2.state = .standby →
        HeldOut s.seen s.clock true .active WIFI_UP_HOLD_MS UpStart) ∧
      CellAct.hardReset ∉ (s.watchWifi p).1 := by
  unfold CellularModule.watchWifi
  split
  next up =>
    have held := h.held up
    dsimp only
    generalize (if s.wifiUpSince = 0 then s.millis else s.wifiUpSince) = since at held ⊢
    split
    next long =>
      refine ⟨⟨rfl, h.past, fun _ some => absurd rfl some, nofun, h.fails⟩,
        fun _ => held.out h.past long, ?_⟩
      split <;> simp
    next =>
      have ⟨steady, active⟩ := (h.steady fun _ => held).telemetry (p := p) h.now
      exact ⟨steady, fun other => absurd (active.symm.trans other) nofun,
        hardReset_notMem_telemetry⟩
  next =>
    have reset : (0 : Nat) ≠ 0 → s.HeldFor true .active 0 UpStart := fun some => absurd rfl some
    have ⟨steady, active⟩ := (h.steady reset).telemetry (p := p) h.now
    exact ⟨steady, fun other => absurd (active.symm.trans other) nofun,
      hardReset_notMem_telemetry⟩

theorem Watches.active (h : s.Watches p) :
    (s.active p).2.Steady ∧
      ((s.active p).2.state = .standby →
        HeldOut s.seen s.clock true .active WIFI_UP_HOLD_MS UpStart) ∧
      CellAct.hardReset ∉ (s.active p).1 := by
  unfold CellularModule.active
  split
  · exact ⟨⟨rfl, h.past, nofun, nofun, h.fails⟩, nofun, by simp⟩
  · split
    · have same := @syncClock_sameLink s p
      obtain ⟨steady, yields, acts⟩ := (same.watches h).watchWifi
      rw [same.seen, same.clock] at yields
      refine ⟨steady, yields, ?_⟩
      rw [List.mem_append, not_or]
      exact ⟨hardReset_notMem_syncClock, acts⟩
    · exact h.watchWifi

theorem Steady.later (h : s.Steady) (ms : Nat) :
    ({ s with clock := s.clock + ms } : CellularModule).Steady :=
  { h with past := fun q mem => Nat.le_add_right_of_le (h.past q mem) }

/-! ## A pass -/

theorem loop_standby (now : s.state = .standby) :
    s.loop p = ([], { (s.begins p).standby p with
      clock := ((s.begins p).standby p).clock + p.took + p.rest }) := by
  have begun : (s.begins p).state = .standby := now
  simp only [loop, begun]

theorem loop_activating (now : s.state = .activating) :
    s.loop p = (((s.begins p).activating p).1, { ((s.begins p).activating p).2 with
      clock := ((s.begins p).activating p).2.clock + p.took + p.rest }) := by
  have begun : (s.begins p).state = .activating := now
  simp only [loop, begun]

theorem loop_active (now : s.state = .active) :
    s.loop p = (((s.begins p).active p).1, { ((s.begins p).active p).2 with
      clock := ((s.begins p).active p).2.clock + p.took + p.rest }) := by
  have begun : (s.begins p).state = .active := now
  simp only [loop, begun]

/-- What a pass may do. -/
structure Switches (s : CellularModule) (p : CellPass) : Prop where
  takes : s.state = .standby → (s.step p).state = .activating →
    HeldOut (s.begins p).seen (s.clock + p.gap) false .standby WIFI_DOWN_HOLD_MS DownStart
  yields : s.state = .active → (s.step p).state = .standby →
    HeldOut (s.begins p).seen (s.clock + p.gap) true .active WIFI_UP_HOLD_MS UpStart
  resets : CellAct.hardReset ∈ (s.loop p).1 ↔
    s.state = .activating ∧ p.tick = .failed ∧ (s.streak + 1) % 3 = 0

theorem Steady.passes (h : s.Steady) (p : CellPass) : (s.step p).Steady ∧ s.Switches p := by
  cases now : s.state with
  | standby =>
      obtain ⟨steady, takes⟩ := h.standby (p := p) now
      rw [step, loop_standby now]
      refine ⟨(steady.later p.took).later p.rest, ⟨?_, ?_, ?_⟩⟩
      · rw [step, loop_standby now]
        exact fun _ => takes
      · exact fun other => absurd (now.symm.trans other) nofun
      · rw [loop_standby now, now]
        simp
  | activating =>
      obtain ⟨steady, resets⟩ := h.activating (p := p) now
      rw [step, loop_activating now]
      refine ⟨(steady.later p.took).later p.rest, ⟨?_, ?_, ?_⟩⟩
      · exact fun other => absurd (now.symm.trans other) nofun
      · exact fun other => absurd (now.symm.trans other) nofun
      · rw [loop_activating now, resets, now]
        simp
  | active =>
      obtain ⟨steady, yields, acts⟩ := (h.watches (p := p) now).active
      rw [step, loop_active now]
      refine ⟨(steady.later p.took).later p.rest, ⟨?_, ?_, ?_⟩⟩
      · exact fun other => absurd (now.symm.trans other) nofun
      · rw [step, loop_active now]
        exact fun _ => yields
      · rw [loop_active now, now]
        exact iff_of_false acts (by simp)

theorem Steady.run (ps : List CellPass) : (run step boot ps).Steady :=
  @run_invariant _ _ step Steady (fun _ p h => (h.passes p).1) _ steady_boot ps

end CellularModule

theorem ntpDoubled_ge (turns d : Nat) : d ≤ ntpDoubled turns d := by
  induction turns generalizing d with
  | zero => exact Nat.le_refl _
  | succ turns ih =>
      unfold ntpDoubled
      split
      · have more := ih (d * 2)
        omega
      · exact Nat.le_refl _

theorem cellNtpDelayMs_bounds {attempts : Nat} (some : attempts ≠ 0) :
    CELL_NTP_RETRY_MS ≤ cellNtpDelayMs attempts ∧ cellNtpDelayMs attempts ≤ CELL_NTP_MAX_MS := by
  have doubled := ntpDoubled_ge (attempts - 1) CELL_NTP_RETRY_MS
  have order : CELL_NTP_RETRY_MS ≤ CELL_NTP_MAX_MS := by decide
  simp only [cellNtpDelayMs, if_neg some]
  split
  · omega
  · omega

/-- A deadline at most half an hour away is not due before its time. -/
theorem cellNtpDue_late {now due : Nat} (near : due ≤ now + CELL_NTP_MAX_MS)
    (is_due : cellNtpDue (now % Word32.size) (due % Word32.size) = true) : due ≤ now := by
  rw [cellNtpDue, decide_eq_true_iff] at is_due
  unfold Word32.sub Word32.size at is_due
  unfold CELL_NTP_MAX_MS at near
  omega

/-- Times that are two seconds apart, and a minute from each to the second before it. -/
def Spaced : List Nat → Prop
  | q :: l :: rest => l + CELL_NTP_NEXT_HOST_MS ≤ q ∧
      (∀ m ∈ rest.head?, m + CELL_NTP_RETRY_MS ≤ q) ∧ Spaced (l :: rest)
  | _ => True

namespace CellularModule

variable {s t : CellularModule} {p : CellPass}

/-- The next query waits until `due`. -/
structure Waits (s : CellularModule) (due : Nat) : Prop where
  ntpAt : s.ntpAt = due % Word32.size
  near : due ≤ s.clock + CELL_NTP_MAX_MS
  first : s.queries = [] → s.began + CELL_NTP_FIRST_MS ≤ due
  next : ∀ l ∈ s.queries.head?, l + CELL_NTP_NEXT_HOST_MS ≤ due ∧
    (s.ntpIdx = 0 → l + CELL_NTP_RETRY_MS ≤ due)

structure Asked (s : CellularModule) : Prop where
  spaced : Spaced s.queries
  settled : ∀ q ∈ s.queries, s.began + CELL_NTP_FIRST_MS ≤ q
  past : ∀ q ∈ s.queries, q ≤ s.clock

structure Paced (s : CellularModule) : Prop extends s.Asked where
  idx : s.ntpIdx ≤ 1
  /-- The last query was the first of its attempt. -/
  fresh : s.ntpSynced = false → s.ntpIdx ≠ 0 →
    ∀ l ∈ s.queries.head?, ∀ m ∈ s.queries.tail.head?, m + CELL_NTP_RETRY_MS ≤ l
  waits : s.state = .active → s.ntpSynced = false → ∃ due, s.Waits due

/-- What the pace of queries depends on. -/
structure SameAsk (s t : CellularModule) : Prop where
  ntpAt : t.ntpAt = s.ntpAt
  ntpIdx : t.ntpIdx = s.ntpIdx
  ntpSynced : t.ntpSynced = s.ntpSynced
  queries : t.queries = s.queries
  began : t.began = s.began
  clock : t.clock = s.clock
  active : t.state = .active → s.state = .active

theorem paced_boot : boot.Paced := ⟨⟨trivial, nofun, nofun⟩, Nat.zero_le _, nofun, nofun⟩

theorem Paced.later (h : s.Paced) (ms : Nat) :
    ({ s with clock := s.clock + ms } : CellularModule).Paced := by
  refine { h with past := fun q mem => Nat.le_add_right_of_le (h.past q mem), waits := ?_ }
  intro now unset
  obtain ⟨due, waits⟩ := h.waits now unset
  refine ⟨due, { waits with near := ?_ }⟩
  have near := waits.near
  change due ≤ s.clock + ms + CELL_NTP_MAX_MS
  omega

theorem SameAsk.paced (same : SameAsk s t) {ms : Nat}
    (h : ({ s with clock := s.clock + ms } : CellularModule).Paced) :
    ({ t with clock := t.clock + ms } : CellularModule).Paced := by
  refine ⟨⟨?_, ?_, ?_⟩, ?_, ?_, fun now unset => ?_⟩
  · rw [show t.queries = s.queries from same.queries]
    exact h.spaced
  · simp only [same.queries, same.began]
    exact h.settled
  · simp only [same.queries, same.clock]
    exact h.past
  · rw [show t.ntpIdx = s.ntpIdx from same.ntpIdx]
    exact h.idx
  · simp only [same.queries, same.ntpIdx, same.ntpSynced]
    exact h.fresh
  · obtain ⟨due, waits⟩ := h.waits (same.active now) (same.ntpSynced.symm.trans unset)
    refine ⟨due, ?_, ?_, ?_, ?_⟩
    · exact same.ntpAt.trans waits.ntpAt
    · simp only [same.clock]
      exact waits.near
    · simp only [same.queries, same.began]
      exact waits.first
    · simp only [same.queries, same.ntpIdx]
      exact waits.next

theorem telemetry_sameAsk : SameAsk s (s.telemetry p).2 := by
  unfold telemetry
  split
  · exact ⟨rfl, rfl, rfl, rfl, rfl, rfl, id⟩
  · exact ⟨rfl, rfl, rfl, rfl, rfl, rfl, id⟩

theorem watchWifi_sameAsk : SameAsk s (s.watchWifi p).2 := by
  unfold CellularModule.watchWifi
  split
  · dsimp only
    generalize (if s.wifiUpSince = 0 then s.millis else s.wifiUpSince) = since
    split
    · exact ⟨rfl, rfl, rfl, rfl, rfl, rfl, nofun⟩
    · have same := @telemetry_sameAsk { s with wifiUpSince := since } p
      exact { same with }
  · have same := @telemetry_sameAsk { s with wifiUpSince := 0 } p
    exact { same with }

/-- A query when one is due keeps its distance from those before. -/
theorem Paced.asks (h : s.Paced) (unset : s.ntpSynced = false) {due : Nat} (waits : s.Waits due)
    (reached : due ≤ s.clock) :
    Spaced (s.clock :: s.queries) ∧
      (∀ q ∈ s.clock :: s.queries, s.began + CELL_NTP_FIRST_MS ≤ q) ∧
      (s.ntpIdx = 0 → ∀ m ∈ s.queries.head?, m + CELL_NTP_RETRY_MS ≤ s.clock) := by
  have spaced := h.spaced
  have settled := h.settled
  have fresh := h.fresh unset
  have first := waits.first
  have next := waits.next
  cases asked : s.queries with
  | nil =>
      have since := first asked
      refine ⟨trivial, ?_, nofun⟩
      intro q mem
      rw [List.mem_singleton.mp mem]
      omega
  | cons l rest =>
      rw [asked] at spaced settled fresh next
      obtain ⟨soon, minute⟩ := next l rfl
      refine ⟨⟨by omega, ?_, spaced⟩, ?_, ?_⟩
      · intro m mem
        by_cases round : s.ntpIdx = 0
        · cases rest with
          | nil => cases mem
          | cons m' rest =>
              obtain rfl : m' = m := Option.some.inj mem
              have long := minute round
              have before := spaced.1
              omega
        · have gap := fresh round l rfl m mem
          omega
      · intro q mem
        rcases List.mem_cons.mp mem with rfl | behind
        · have since := settled l (.head _)
          omega
        · exact settled q behind
      · intro round m mem
        obtain rfl : l = m := Option.some.inj mem
        have long := minute round
        omega

theorem Asked.ntpMissed (h : s.Asked) {n idx : Nat} (few : n ≤ CELL_NTP_PER_TRY)
    (fresh : idx + 1 < n → ∀ l ∈ s.queries.head?, ∀ m ∈ s.queries.tail.head?,
      m + CELL_NTP_RETRY_MS ≤ l) (asked : s.queries ≠ []) :
    ({ s.ntpMissed p n idx with clock := s.clock + p.took } : CellularModule).Paced := by
  have past (q : Nat) (mem : q ∈ s.queries) : q ≤ s.clock + p.took :=
    Nat.le_add_right_of_le (h.past q mem)
  unfold CellularModule.ntpMissed
  split
  next more =>
    unfold CELL_NTP_PER_TRY at few
    refine ⟨⟨h.spaced, h.settled, past⟩, by simp only; omega, fun _ _ => fresh more, fun _ _ => ?_⟩
    refine ⟨s.clock + p.took + CELL_NTP_NEXT_HOST_MS, rfl, ?_, fun none => absurd none asked, ?_⟩
    · exact Nat.add_le_add_left (by decide) _
    · intro l mem
      have before := past l (List.mem_of_mem_head? mem)
      exact ⟨Nat.add_le_add_right before _, fun none => absurd none (Nat.succ_ne_zero idx)⟩
  next =>
    dsimp only
    have tried : (if s.ntpTries < 255 then s.ntpTries + 1 else s.ntpTries) ≠ 0 := by
      split
      · omega
      · omega
    generalize (if s.ntpTries < 255 then s.ntpTries + 1 else s.ntpTries) = tries at tried ⊢
    obtain ⟨minute, most⟩ := cellNtpDelayMs_bounds tried
    refine ⟨⟨h.spaced, h.settled, past⟩, Nat.zero_le _, fun _ other => absurd rfl other,
      fun _ _ => ?_⟩
    refine ⟨s.clock + p.took + cellNtpDelayMs tries, rfl, ?_, fun none => absurd none asked, ?_⟩
    · exact Nat.add_le_add_left most _
    · intro l mem
      have before := past l (List.mem_of_mem_head? mem)
      have order : CELL_NTP_NEXT_HOST_MS ≤ CELL_NTP_RETRY_MS := by decide
      exact ⟨by omega, fun _ => by omega⟩

theorem Paced.syncClock (h : s.Paced) (now : s.state = .active) (unset : s.ntpSynced = false)
    (is_due : cellNtpDue s.millis s.ntpAt = true) :
    ({ (s.syncClock p).2 with clock := s.clock + p.took } : CellularModule).Paced := by
  obtain ⟨due, waits⟩ := h.waits now unset
  rw [waits.ntpAt] at is_due
  obtain ⟨spaced, settled, minute⟩ := h.asks unset waits (cellNtpDue_late waits.near is_due)
  obtain ⟨-, few⟩ := cellNtpCandidates_length p.server p.server2
  simp only [CellularModule.syncClock]
  have any := (cellNtpCandidates_length p.server p.server2).1
  generalize cellNtpCandidates (some p.server) (some p.server2) = cand at any few ⊢
  -- A second query in the same attempt is the last.
  have round : (if cand.length ≤ s.ntpIdx then 0 else s.ntpIdx) ≤ 1 ∧
      ((if cand.length ≤ s.ntpIdx then 0 else s.ntpIdx) + 1 < cand.length → s.ntpIdx = 0) ∧
      (if cand.length ≤ s.ntpIdx then 0 else s.ntpIdx) < cand.length := by
    have idx := h.idx
    unfold CELL_NTP_PER_TRY at few
    split
    · omega
    · omega
  generalize (if cand.length ≤ s.ntpIdx then 0 else s.ntpIdx) = idx at round ⊢
  obtain ⟨small, again, inside⟩ := round
  have asked : Asked { s with queries := s.clock :: s.queries } := by
    refine ⟨spaced, settled, fun q mem => ?_⟩
    rcases List.mem_cons.mp mem with rfl | before
    · exact Nat.le_refl _
    · exact h.past q before
  have second (first : s.ntpIdx = 0) : ∀ l ∈ (s.clock :: s.queries).head?, ∀ m ∈ s.queries.head?,
      m + CELL_NTP_RETRY_MS ≤ l := by
    intro l now m before
    obtain rfl : s.clock = l := Option.some.inj now
    exact minute first m before
  rw [List.getElem?_eq_getElem inside]
  dsimp only
  split
  · refine ⟨⟨spaced, settled, ?_⟩, small, nofun, nofun⟩
    exact fun q mem => Nat.le_add_right_of_le (asked.past q mem)
  · exact asked.ntpMissed few (fun more => second (again more)) (List.cons_ne_nil _ _)

theorem Paced.begins (h : s.Paced) : (s.begins p).Paced := by
  have later := h.later p.gap
  refine { later with fresh := fun unset => ?_, waits := fun now unset => ?_ }
  · exact later.fresh (Bool.or_eq_false_iff.mp unset).1
  · obtain ⟨due, waits⟩ := later.waits now (Bool.or_eq_false_iff.mp unset).1
    exact ⟨due, { waits with }⟩

theorem Paced.active (h : s.Paced) (now : s.state = .active) :
    ({ (s.active p).2 with clock := (s.active p).2.clock + p.took } : CellularModule).Paced := by
  unfold CellularModule.active
  split
  · refine ⟨⟨h.spaced, h.settled, ?_⟩, h.idx, h.fresh, nofun⟩
    exact fun q mem => Nat.le_add_right_of_le (h.past q mem)
  · split
    next asks =>
      rw [Bool.and_eq_true, Bool.not_eq_true'] at asks
      have synced := h.syncClock (p := p) now asks.1 asks.2
      have clock : (s.syncClock p).2.clock = s.clock := syncClock_sameLink.clock
      rw [← clock] at synced
      exact watchWifi_sameAsk.paced synced
    next => exact watchWifi_sameAsk.paced (h.later p.took)

theorem Paced.activating (h : s.Paced) :
    ({ (s.activating p).2 with clock := (s.activating p).2.clock + p.took } :
      CellularModule).Paced := by
  unfold CellularModule.activating
  split
  · exact h.later p.took
  · refine ⟨⟨trivial, nofun, nofun⟩, Nat.zero_le _, nofun, fun _ _ => ?_⟩
    refine ⟨s.clock + p.took + cellNtpDelayMs 0, rfl, ?_, fun _ => Nat.le_refl _, nofun⟩
    exact Nat.add_le_add_left (by decide) _
  · dsimp only
    split
    · exact { h.later p.took with waits := nofun }
    · exact { h.later p.took with waits := nofun }

theorem Paced.standby (h : s.Paced) (now : s.state = .standby) : (s.standby p).Paced := by
  unfold CellularModule.standby
  split
  · dsimp only
    generalize (if s.wifiDownSince = 0 then s.millis else s.wifiDownSince) = since
    split
    · exact { h with waits := nofun }
    · exact { h with waits := fun other => absurd (now.symm.trans other) nofun }
  · exact { h with waits := fun other => absurd (now.symm.trans other) nofun }

theorem Paced.step (h : s.Paced) (p : CellPass) : (s.step p).Paced := by
  have begun := h.begins (p := p)
  cases now : s.state with
  | standby =>
      rw [CellularModule.step, loop_standby now]
      exact ((begun.standby now).later p.took).later p.rest
  | activating =>
      rw [CellularModule.step, loop_activating now]
      exact begun.activating.later p.rest
  | active =>
      rw [CellularModule.step, loop_active now]
      exact (begun.active now).later p.rest

end CellularModule

end Thesada.Cellular
