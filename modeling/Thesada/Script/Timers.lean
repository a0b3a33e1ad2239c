import Mathlib.Data.Rat.Defs
import Mathlib.Logic.Function.Basic
import Thesada.Library.Machine
import Thesada.Script.State

/-!
# `Node.setTimeout`

A script arms a timer in one of eight slots, and `ScriptEngine::loop` looks at the slots in turn and
calls the timers that are due. The callback of one can arm others, in slots that the loop has passed
and in slots that are still to come.

Each closure has a number of its own, and `base` is the first of the Lua state that is loaded.
Uptime counts milliseconds in 64 bits and does not wrap. A reload inside a callback is in
`Thesada.Script.State`; here the scripts are reloaded between calls of the loop. `armed` and
`calls` only record what happened.
-/

namespace Thesada.Script

open Machine

/-! ## Deadlines -/

/-- A `lua_Number`. -/
inductive LuaNumber where
  | nan
  | negInf
  | posInf
  | finite (q : ℚ)

/-- Thirty days. -/
def LUA_TIMER_MAX_DELAY_MS : Nat := 2592000000

def luaTimerFireAt (nowMs : Nat) : LuaNumber → Option Nat
  | .nan => none
  | .negInf => some nowMs
  | .posInf => some (nowMs + LUA_TIMER_MAX_DELAY_MS)
  | .finite q =>
      let q := if q < 0 then 0 else q
      let q := if (LUA_TIMER_MAX_DELAY_MS : ℚ) < q then (LUA_TIMER_MAX_DELAY_MS : ℚ) else q
      some (nowMs + q.floor.toNat)

def luaTimerDue (nowMs fireAtMs : Nat) : Bool := decide (fireAtMs ≤ nowMs)

theorem luaTimerFireAt_bounds {nowMs fireAt : Nat} {delay : LuaNumber}
    (armed : luaTimerFireAt nowMs delay = some fireAt) :
    nowMs ≤ fireAt ∧ fireAt ≤ nowMs + LUA_TIMER_MAX_DELAY_MS := by
  cases delay with
  | nan => cases armed
  | negInf =>
      obtain rfl : nowMs = fireAt := Option.some.inj armed
      omega
  | posInf =>
      obtain rfl : nowMs + LUA_TIMER_MAX_DELAY_MS = fireAt := Option.some.inj armed
      omega
  | finite q =>
      simp only [luaTimerFireAt, Option.some.injEq] at armed
      generalize (if q < 0 then 0 else q) = d at armed
      have clamped : (if (LUA_TIMER_MAX_DELAY_MS : ℚ) < d then (LUA_TIMER_MAX_DELAY_MS : ℚ)
          else d) ≤ (LUA_TIMER_MAX_DELAY_MS : ℚ) := by
        split
        · exact Rat.le_refl
        · next less => exact Rat.not_lt.mp less
      have floor := Rat.floor_monotone clamped
      have cap : (LUA_TIMER_MAX_DELAY_MS : ℚ).floor = (LUA_TIMER_MAX_DELAY_MS : ℤ) :=
        Rat.floor_intCast LUA_TIMER_MAX_DELAY_MS
      omega

/-! ## The slots -/

structure LuaTimer where
  fireAt : Nat
  /-- The closure of `callbackRef`. -/
  callback : Nat

/-- `ScriptEngine::loop` among the slots. -/
structure TimerPass where
  upMs : Nat
  /-- The slot it looks at next. -/
  next : Nat
  /-- The callback that has not returned. -/
  running : Option Nat
  /-- The closures made, and the calls, before it began. -/
  first : Nat
  before : Nat

structure LuaTimers where
  uptimeMs : Nat
  /-- `none` is `LUA_NOREF`. -/
  timers : Fin MAX_TIMERS → Option LuaTimer
  /-- The closures that the registry holds for timers. -/
  refs : Nat → Bool
  pass : Option TimerPass
  /-- The closures made so far. -/
  closures : Nat
  base : Nat
  /-- The closures that `setTimeout` accepted, with their deadlines. -/
  armed : List (Nat × Nat)
  /-- The closures called, and when. -/
  calls : List (Nat × Nat)

inductive TimerEvent where
  | elapse (ms : Nat)
  /-- `Node.setTimeout`, by a script or a callback. -/
  | setTimeout (delay : LuaNumber)
  /-- `ScriptEngine::loop` begins. -/
  | loop
  /-- It looks at the next slot, or is done. -/
  | turn
  /-- The callback returns. -/
  | ret
  | reload

namespace LuaTimers

def boot : LuaTimers := ⟨0, fun _ => none, fun _ => false, none, 0, 0, [], []⟩

def freeSlot (s : LuaTimers) : Option (Fin MAX_TIMERS) :=
  (List.finRange MAX_TIMERS).find? fun i => (s.timers i).isNone

def setTimeout (s : LuaTimers) (delay : LuaNumber) : Bool × LuaTimers :=
  match luaTimerFireAt s.uptimeMs delay with
  | none => (false, s)
  | some fireAt =>
      let c := s.closures
      let s := { s with closures := c + 1, refs := Function.update s.refs c true }
      match s.freeSlot with
      | some i =>
          (true, { s with
            timers := Function.update s.timers i (some ⟨fireAt, c⟩)
            armed := s.armed ++ [(c, fireAt)] })
      | none => (false, { s with refs := Function.update s.refs c false })

def turn (s : LuaTimers) (p : TimerPass) : LuaTimers :=
  if inside : p.next < MAX_TIMERS then
    match s.timers ⟨p.next, inside⟩ with
    | some t =>
        if luaTimerDue p.upMs t.fireAt then
          { s with
            timers := Function.update s.timers ⟨p.next, inside⟩ none
            pass := some { p with next := p.next + 1, running := some t.callback }
            calls := s.calls ++ [(t.callback, s.uptimeMs)] }
        else { s with pass := some { p with next := p.next + 1 } }
    | none => { s with pass := some { p with next := p.next + 1 } }
  else { s with pass := none }

def step (s : LuaTimers) : TimerEvent → LuaTimers
  | .elapse ms => { s with uptimeMs := s.uptimeMs + ms }
  | .setTimeout delay => (s.setTimeout delay).2
  | .loop =>
      if s.pass.isNone then
        { s with pass := some ⟨s.uptimeMs, 0, none, s.closures, s.calls.length⟩ }
      else s
  | .turn =>
      match s.pass with
      | some p => if p.running.isNone then s.turn p else s
      | none => s
  | .ret =>
      match s.pass with
      | some p =>
          match p.running with
          | some c =>
              { s with
                refs := Function.update s.refs c false
                pass := some { p with running := none } }
          | none => s
      | none => s
  | .reload =>
      if s.pass.isNone then
        { s with timers := fun _ => none, refs := fun _ => false, base := s.closures }
      else s

/-! ## What every run keeps -/

/-- The closure whose callback is running. -/
def running (s : LuaTimers) : Option Nat := s.pass.bind TimerPass.running

/-- What holds of a loop that has come to its next slot. -/
structure Passes (s : LuaTimers) (p : TimerPass) : Prop where
  now : p.upMs ≤ s.uptimeMs
  place : p.next ≤ MAX_TIMERS
  older : p.first ≤ s.closures
  counted : s.calls.length ≤ p.before + p.next
  passed : ∀ i t, i.val < p.next → s.timers i = some t → t.fireAt ≤ p.upMs → p.first ≤ t.callback

structure Sound (s : LuaTimers) : Prop where
  numbered : ∀ a ∈ s.armed, a.1 < s.closures ∧ a.2 ≤ s.uptimeMs + LUA_TIMER_MAX_DELAY_MS
  slots : ∀ i t, s.timers i = some t →
    (t.callback, t.fireAt) ∈ s.armed ∧ t.callback ∉ s.calls.map Prod.fst
  distinct : ∀ i j t u, s.timers i = some t → s.timers j = some u → t.callback = u.callback → i = j
  once : (s.calls.map Prod.fst).Nodup
  due : ∀ c ∈ s.calls, ∃ fireAt, (c.1, fireAt) ∈ s.armed ∧ fireAt ≤ c.2
  kept : ∀ a ∈ s.armed, a.1 < s.base ∨ a.1 ∈ s.calls.map Prod.fst ∨
    ∃ i, s.timers i = some ⟨a.2, a.1⟩
  refs : ∀ c, s.refs c = true ↔
    (∃ i t, s.timers i = some t ∧ t.callback = c) ∨ s.running = some c
  called : ∀ c, s.running = some c → c ∈ s.calls.map Prod.fst
  pass : ∀ p, s.pass = some p → s.Passes p

theorem sound_boot : boot.Sound where
  numbered := nofun
  slots := nofun
  distinct := nofun
  once := List.nodup_nil
  due := nofun
  kept := nofun
  refs c := by simp [boot, running]
  called := nofun
  pass := nofun

theorem freeSlot_some {s : LuaTimers} {i : Fin MAX_TIMERS} (free : s.freeSlot = some i) :
    s.timers i = none := by
  simpa using List.find?_some free

theorem freeSlot_none {s : LuaTimers} (full : s.freeSlot = none) (i : Fin MAX_TIMERS) :
    s.timers i ≠ none := by
  have taken := List.find?_eq_none.mp full i (List.mem_finRange i)
  simpa using taken

/-- A closure that is not accepted leaves nothing behind but its number. -/
theorem Sound.refuse {s : LuaTimers} (h : s.Sound) :
    ({ s with closures := s.closures + 1 } : LuaTimers).Sound where
  numbered a mem := ⟨Nat.lt_succ_of_lt (h.numbered a mem).1, (h.numbered a mem).2⟩
  slots := h.slots
  distinct := h.distinct
  once := h.once
  due := h.due
  kept := h.kept
  refs := h.refs
  called := h.called
  pass p now := by
    have passes := h.pass p now
    exact { passes with older := Nat.le_succ_of_le passes.older }

/-- The closure that is made next is nowhere. -/
theorem Sound.fresh {s : LuaTimers} (h : s.Sound) :
    s.closures ∉ s.calls.map Prod.fst ∧ s.refs s.closures = false ∧
      ∀ i t, s.timers i = some t → t.callback ≠ s.closures := by
  have uncalled : s.closures ∉ s.calls.map Prod.fst := by
    intro mem
    obtain ⟨c, called, same⟩ := List.mem_map.mp mem
    obtain ⟨fireAt, armed, -⟩ := h.due c called
    have numbered := (h.numbered _ armed).1
    omega
  have unslotted (i : Fin MAX_TIMERS) (t : LuaTimer) (found : s.timers i = some t) :
      t.callback ≠ s.closures := by
    have numbered := (h.numbered _ (h.slots i t found).1).1
    exact Nat.ne_of_lt numbered
  refine ⟨uncalled, ?_, unslotted⟩
  rw [← Bool.not_eq_true, h.refs]
  rintro (⟨i, t, found, same⟩ | running)
  · exact unslotted i t found same
  · exact uncalled (h.called _ running)

theorem Sound.accept {s : LuaTimers} (h : s.Sound) {i : Fin MAX_TIMERS}
    (free : s.timers i = none) {fireAt : Nat}
    (soon : fireAt ≤ s.uptimeMs + LUA_TIMER_MAX_DELAY_MS) :
    ({ s with
        closures := s.closures + 1
        refs := Function.update s.refs s.closures true
        timers := Function.update s.timers i (some ⟨fireAt, s.closures⟩)
        armed := s.armed ++ [(s.closures, fireAt)] } : LuaTimers).Sound := by
  obtain ⟨uncalled, unheld, unslotted⟩ := h.fresh
  -- What a slot holds now is the new timer or what it held.
  have slot {j : Fin MAX_TIMERS} {t : LuaTimer}
      (found : Function.update s.timers i (some ⟨fireAt, s.closures⟩) j = some t) :
      j = i ∧ t = ⟨fireAt, s.closures⟩ ∨ j ≠ i ∧ s.timers j = some t := by
    by_cases same : j = i
    · subst same
      rw [Function.update_self] at found
      exact .inl ⟨rfl, (Option.some.inj found).symm⟩
    · rw [Function.update_of_ne same] at found
      exact .inr ⟨same, found⟩
  refine ⟨?_, ?_, ?_, h.once, ?_, ?_, ?_, h.called, ?_⟩
  · intro a mem
    rcases List.mem_append.mp mem with before | here
    · exact ⟨Nat.lt_succ_of_lt (h.numbered a before).1, (h.numbered a before).2⟩
    · rw [List.mem_singleton.mp here]
      exact ⟨Nat.lt_succ_self _, soon⟩
  · intro j t found
    rcases slot found with ⟨-, rfl⟩ | ⟨-, held⟩
    · exact ⟨by simp, uncalled⟩
    · exact ⟨List.mem_append_left _ (h.slots j t held).1, (h.slots j t held).2⟩
  · intro j k t u first second same
    rcases slot first with ⟨rfl, rfl⟩ | ⟨_, held⟩
    · rcases slot second with ⟨rfl, -⟩ | ⟨_, held'⟩
      · rfl
      · exact absurd same.symm (unslotted k u held')
    · rcases slot second with ⟨rfl, rfl⟩ | ⟨_, held'⟩
      · exact absurd same (unslotted j t held)
      · exact h.distinct j k t u held held' same
  · intro c called
    obtain ⟨deadline, armed, before⟩ := h.due c called
    exact ⟨deadline, List.mem_append_left _ armed, before⟩
  · intro a mem
    rcases List.mem_append.mp mem with before | here
    · refine (h.kept a before).imp_right (Or.imp_right ?_)
      rintro ⟨j, held⟩
      have other : j ≠ i := by
        rintro rfl
        simp [free] at held
      exact ⟨j, (Function.update_of_ne other _ _).trans held⟩
    · rw [List.mem_singleton.mp here]
      exact .inr (.inr ⟨i, Function.update_self ..⟩)
  · intro c
    change Function.update s.refs s.closures true c = true ↔ _ ∨ s.running = some c
    by_cases new : c = s.closures
    · subst new
      rw [Function.update_self]
      exact ⟨fun _ => .inl ⟨i, _, Function.update_self .., rfl⟩, fun _ => rfl⟩
    · rw [Function.update_of_ne new, h.refs]
      refine or_congr_left ⟨?_, ?_⟩
      · rintro ⟨j, t, held, same⟩
        have other : j ≠ i := by
          rintro rfl
          simp [free] at held
        exact ⟨j, t, (Function.update_of_ne other _ _).trans held, same⟩
      · rintro ⟨j, t, found, same⟩
        rcases slot found with ⟨-, rfl⟩ | ⟨-, held⟩
        · exact absurd same.symm new
        · exact ⟨j, t, held, same⟩
  · intro p now
    have passes := h.pass p now
    refine ⟨passes.now, passes.place, Nat.le_succ_of_le passes.older, passes.counted, ?_⟩
    intro j t behind found early
    rcases slot found with ⟨-, rfl⟩ | ⟨-, held⟩
    · exact passes.older
    · exact passes.passed j t behind held early

theorem Sound.setTimeout {s : LuaTimers} (h : s.Sound) (delay : LuaNumber) :
    (s.setTimeout delay).2.Sound := by
  unfold LuaTimers.setTimeout
  split
  · exact h
  next fireAt counted =>
    have soon := (luaTimerFireAt_bounds counted).2
    dsimp only
    split
    next i free => exact h.accept (freeSlot_some free) soon
    next =>
      have released : Function.update (Function.update s.refs s.closures true) s.closures false =
          s.refs := by
        rw [Function.update_idem, ← h.fresh.2.1, Function.update_eq_self]
      simp only [released]
      exact h.refuse

/-- The loop goes past a slot that is free or not due. -/
theorem Sound.skip {s : LuaTimers} (h : s.Sound) {p : TimerPass} (now : s.pass = some p)
    (inside : p.next < MAX_TIMERS)
    (later : ∀ t, s.timers ⟨p.next, inside⟩ = some t → ¬t.fireAt ≤ p.upMs) :
    ({ s with pass := some { p with next := p.next + 1 } } : LuaTimers).Sound := by
  have same : running { s with pass := some { p with next := p.next + 1 } } = s.running := by
    simp [running, now]
  refine ⟨h.numbered, h.slots, h.distinct, h.once, h.due, h.kept, ?_, ?_, ?_⟩
  · rw [same]
    exact h.refs
  · rw [same]
    exact h.called
  · rintro _ ⟨⟩
    have passes := h.pass p now
    refine ⟨passes.now, inside, passes.older, Nat.le_succ_of_le passes.counted, ?_⟩
    intro i t behind found early
    rcases Nat.lt_or_eq_of_le (Nat.lt_succ_iff.mp behind) with before | here
    · exact passes.passed i t before found early
    · obtain rfl : i = ⟨p.next, inside⟩ := Fin.ext here
      exact absurd early (later t found)

/-- The loop calls a timer that is due. -/
theorem Sound.call {s : LuaTimers} (h : s.Sound) {p : TimerPass} (now : s.pass = some p)
    (idle : p.running = none) (inside : p.next < MAX_TIMERS) {t : LuaTimer}
    (found : s.timers ⟨p.next, inside⟩ = some t) (early : t.fireAt ≤ p.upMs) :
    ({ s with
        timers := Function.update s.timers ⟨p.next, inside⟩ none
        pass := some { p with next := p.next + 1, running := some t.callback }
        calls := s.calls ++ [(t.callback, s.uptimeMs)] } : LuaTimers).Sound := by
  have passes := h.pass p now
  obtain ⟨armed, uncalled⟩ := h.slots _ _ found
  have idle : s.running = none := by simp [running, now, idle]
  have slot {j : Fin MAX_TIMERS} {u : LuaTimer}
      (held : Function.update s.timers ⟨p.next, inside⟩ none j = some u) :
      j ≠ ⟨p.next, inside⟩ ∧ s.timers j = some u := by
    by_cases same : j = ⟨p.next, inside⟩
    · subst same
      simp at held
    · rw [Function.update_of_ne same] at held
      exact ⟨same, held⟩
  refine ⟨h.numbered, ?_, ?_, ?_, ?_, ?_, ?_, ?_, ?_⟩
  · intro j u held
    obtain ⟨other, held⟩ := slot held
    refine ⟨(h.slots j u held).1, ?_⟩
    rw [List.map_append, List.mem_append, not_or]
    refine ⟨(h.slots j u held).2, ?_⟩
    rw [List.map_singleton, List.mem_singleton]
    exact fun same => other (h.distinct _ _ _ _ held found same)
  · intro j k u v first second same
    exact h.distinct j k u v (slot first).2 (slot second).2 same
  · rw [List.map_append, List.nodup_append]
    refine ⟨h.once, by simp, ?_⟩
    rintro a mem _ last rfl
    obtain rfl : a = t.callback := List.mem_singleton.mp last
    exact uncalled mem
  · intro c mem
    rcases List.mem_append.mp mem with before | here
    · exact h.due c before
    · rw [List.mem_singleton.mp here]
      exact ⟨t.fireAt, armed, early.trans passes.now⟩
  · intro a mem
    rcases h.kept a mem with old | called | ⟨j, held⟩
    · exact .inl old
    · exact .inr (.inl (by rw [List.map_append]; exact List.mem_append_left _ called))
    · by_cases same : j = ⟨p.next, inside⟩
      · rw [same, found] at held
        refine .inr (.inl ?_)
        rw [List.map_append, Option.some.inj held]
        exact List.mem_append_right _ (List.mem_singleton.mpr rfl)
      · exact .inr (.inr ⟨j, (Function.update_of_ne same _ _).trans held⟩)
  · intro c
    change s.refs c = true ↔ _ ∨ some t.callback = some c
    rw [h.refs, idle]
    constructor
    · rintro (⟨j, u, held, same⟩ | none)
      · by_cases here : j = ⟨p.next, inside⟩
        · rw [here, found] at held
          exact .inr (by rw [← same, Option.some.inj held])
        · exact .inl ⟨j, u, (Function.update_of_ne here _ _).trans held, same⟩
      · cases none
    · rintro (⟨j, u, held, same⟩ | called)
      · exact .inl ⟨j, u, (slot held).2, same⟩
      · exact .inl ⟨_, t, found, Option.some.inj called⟩
  · intro c
    change some t.callback = some c → _
    rintro ⟨⟩
    rw [List.map_append]
    exact List.mem_append_right _ (List.mem_singleton.mpr rfl)
  · rintro _ ⟨⟩
    refine ⟨passes.now, inside, passes.older, ?_, ?_⟩
    · rw [List.length_append, List.length_singleton]
      exact Nat.succ_le_succ passes.counted
    · intro i u behind held soon
      obtain ⟨other, held⟩ := slot held
      rcases Nat.lt_or_eq_of_le (Nat.lt_succ_iff.mp behind) with before | here
      · exact passes.passed i u before held soon
      · exact absurd (Fin.ext here) other

/-- A pass that begins or is over. -/
theorem Sound.idle {s : LuaTimers} (h : s.Sound) (idle : s.running = none)
    {pass : Option TimerPass} (still : pass.bind TimerPass.running = none)
    (passes : ∀ p, pass = some p → s.Passes p) : ({ s with pass } : LuaTimers).Sound := by
  refine ⟨h.numbered, h.slots, h.distinct, h.once, h.due, h.kept, ?_, ?_, ?_⟩
  · intro c
    rw [h.refs, idle]
    exact or_congr_right (iff_of_false nofun (by simp [running, still]))
  · intro c now
    simp [running, still] at now
  · intro p now
    exact { passes p now with }

theorem Sound.turn {s : LuaTimers} (h : s.Sound) {p : TimerPass} (now : s.pass = some p)
    (idle : p.running = none) : (s.turn p).Sound := by
  unfold LuaTimers.turn
  split
  next inside =>
    split
    next t found =>
      split
      next due => exact h.call now idle inside found (of_decide_eq_true due)
      next early =>
        refine h.skip now inside fun u held soon => early ?_
        rw [found] at held
        exact decide_eq_true (Option.some.inj held ▸ soon)
    next free => exact h.skip now inside fun u held => by simp [free] at held
  next => exact h.idle (by simp [running, now, idle]) rfl nofun

theorem Sound.ret {s : LuaTimers} (h : s.Sound) {p : TimerPass} {c : Nat} (now : s.pass = some p)
    (runs : p.running = some c) :
    ({ s with
        refs := Function.update s.refs c false
        pass := some { p with running := none } } : LuaTimers).Sound := by
  have runs : s.running = some c := by simp [running, now, runs]
  have called := h.called c runs
  refine ⟨h.numbered, h.slots, h.distinct, h.once, h.due, h.kept, ?_, nofun, ?_⟩
  · intro d
    change Function.update s.refs c false d = true ↔ _ ∨ none = some d
    by_cases same : d = c
    · subst same
      rw [Function.update_self]
      refine iff_of_false nofun ?_
      rintro (⟨i, t, held, rfl⟩ | none)
      · exact (h.slots i t held).2 called
      · cases none
    · rw [Function.update_of_ne same, h.refs, runs]
      refine or_congr_right (iff_of_false ?_ nofun)
      exact fun eq => same (Option.some.inj eq).symm
  · rintro _ ⟨⟩
    have passes := h.pass p now
    exact { passes with }

theorem Sound.reload {s : LuaTimers} (h : s.Sound) (idle : s.pass = none) :
    ({ s with
        timers := fun _ => none, refs := fun _ => false, base := s.closures } :
      LuaTimers).Sound := by
  have idle' : running { s with
      timers := fun _ => none, refs := fun _ => false, base := s.closures } = none := by
    simp [running, idle]
  have old : ∀ a ∈ s.armed, a.1 < s.closures := fun a mem => (h.numbered a mem).1
  refine ⟨h.numbered, nofun, nofun, h.once, h.due, fun a mem => .inl (old a mem), ?_, ?_, ?_⟩
  · intro c
    rw [idle']
    exact iff_of_false nofun (by rintro (⟨_, _, held, _⟩ | none) <;> contradiction)
  · intro c now
    rw [idle'] at now
    cases now
  · intro p now
    rw [idle] at now
    cases now

theorem Sound.step {s : LuaTimers} (h : s.Sound) (e : TimerEvent) : (s.step e).Sound := by
  cases e with
  | elapse ms =>
      refine { h with numbered := fun a mem => ?_, pass := fun p now => ?_ }
      · have numbered := h.numbered a mem
        refine ⟨numbered.1, numbered.2.trans ?_⟩
        exact Nat.add_le_add_right (Nat.le_add_right _ _) _
      · have passes := h.pass p now
        exact { passes with now := Nat.le_add_right_of_le passes.now }
  | setTimeout delay => exact h.setTimeout delay
  | loop =>
      simp only [LuaTimers.step]
      split
      next outside =>
        have between : s.pass = none := by simpa using outside
        refine h.idle (by simp [running, between]) rfl ?_
        rintro _ ⟨⟩
        exact ⟨Nat.le_refl _, Nat.zero_le _, Nat.le_refl _, Nat.le_refl _, nofun⟩
      next => exact h
  | turn =>
      simp only [LuaTimers.step]
      split
      next p now =>
        split
        next idle => exact h.turn now (by simpa using idle)
        next => exact h
      next => exact h
  | ret =>
      simp only [LuaTimers.step]
      split
      next p now =>
        split
        next c runs => exact h.ret now runs
        next => exact h
      next => exact h
  | reload =>
      simp only [LuaTimers.step]
      split
      next outside => exact h.reload (by simpa using outside)
      next => exact h

/-- What a loop leaves behind when it is done. -/
def Done (s : LuaTimers) (p : TimerPass) : Prop :=
  s.calls.length ≤ p.before + MAX_TIMERS ∧
    ∀ i t, s.timers i = some t → t.fireAt ≤ p.upMs → p.first ≤ t.callback

/-- A loop is over when it has come past the last slot. -/
theorem Sound.done {s : LuaTimers} (h : s.Sound) {e : TimerEvent} {p : TimerPass}
    (now : s.pass = some p) (ends : (s.step e).pass = none) : s.Done p := by
  have passes := h.pass p now
  have last : ¬p.next < MAX_TIMERS := by
    intro inside
    cases e with
    | turn =>
        simp only [LuaTimers.step, now, LuaTimers.turn, dif_pos inside] at ends
        split at ends
        · split at ends
          · split at ends
            · cases ends
            · cases ends
          · cases ends
        · simp [now] at ends
    | ret =>
        simp only [LuaTimers.step, now] at ends
        split at ends
        · cases ends
        · simp [now] at ends
    | setTimeout delay =>
        have same : (s.setTimeout delay).2.pass = s.pass := by
          unfold LuaTimers.setTimeout
          split
          · rfl
          · dsimp only
            split <;> rfl
        simp [LuaTimers.step, same, now] at ends
    | elapse ms => simp [LuaTimers.step, now] at ends
    | loop => simp [LuaTimers.step, now] at ends
    | reload => simp [LuaTimers.step, now] at ends
  have next : p.next = MAX_TIMERS := le_antisymm passes.place (not_lt.mp last)
  refine ⟨next ▸ passes.counted, fun i t found early => ?_⟩
  exact passes.passed i t (i.isLt.trans_eq next.symm) found early

end LuaTimers

end Thesada.Script
