import Mathlib.Logic.Function.Basic
import Thesada.Library.Machine
import Thesada.Library.Word32

/-!
# Reloads inside a call into Lua

`ScriptEngine` calls Lua from six places. Each of them goes on with `gL` and its references after
the call. A binding of the running script can service the MQTT client or publish an event, and so
run other callbacks, the reload topic's among them, before it returns to the script.

`Runtime.stack` is the C stack of these calls. An event that the top of the stack does not allow
changes nothing, so every list of events is a run.
-/

namespace Thesada.Script

def MAX_TIMERS : Nat := 8

/-- Where C calls Lua. -/
inductive CallSite where
  | executeFile
  | mqttCallback
  | eventCallback
  | timer
  | luaExec
  | luaLoad
  deriving DecidableEq

/-- The closure of `lua_mqtt_subscribe` or `lua_eventbus_subscribe`: a registry reference of a Lua
state, and the generation at the subscription. Lua states have the number of the reload that made
them, and the state of the boot has number 0. -/
structure LuaCallback where
  site : CallSite
  state : Nat
  gen : Nat

inductive Frame where
  /-- A script that `begin` or `reload` has still to execute. -/
  | file
  /-- A `luaBudgetedCall`. -/
  | call (site : CallSite) (state : Nat)
  /-- A binding of the script, while it services the MQTT client or publishes an event. -/
  | binding (state : Nat)

/-- The Lua state that a frame works on. -/
def Frame.owner : Frame → Option Nat
  | .file => none
  | .call _ state => some state
  | .binding state => some state

structure Runtime where
  /-- The Lua state that `gL` points to. -/
  gL : Option Nat
  /-- The reloads so far. -/
  reloads : Nat
  /-- `_generation`, of 32 bits. -/
  generation : Nat
  /-- For each timer, the state of its reference; `none` is `LUA_NOREF`. -/
  timers : Fin MAX_TIMERS → Option Nat
  callbacks : List LuaCallback
  /-- The innermost frame is first. The main loop runs with an empty stack. -/
  stack : List Frame
  /-- `begin` has subscribed the reload topic and registered the shell commands. -/
  begun : Bool

/-- Who delivers a message, an event or a command. -/
inductive Server where
  | mainLoop
  | binding
  deriving DecidableEq

inductive Delivery where
  /-- A message or an event for one of the callbacks. -/
  | callback (k : Nat)
  | luaExec
  | luaLoad
  /-- The reload topic or `lua.reload`, and whether there is memory for a new state. -/
  | reload (memory : Bool)

inductive RuntimeEvent where
  /-- `executeFile` runs the next script. -/
  | runFile
  /-- The next script is missing or does not compile. -/
  | skipFile
  | begun
  | deliver (server : Server) (d : Delivery)
  /-- `ScriptEngine::loop` finds a timer due. -/
  | timer (i : Fin MAX_TIMERS)
  /-- `MQTT.subscribe`, and whether the table takes the topic. -/
  | mqttSubscribe (stored : Bool)
  | eventSubscribe
  /-- `Node.setTimeout`. -/
  | setTimeout
  /-- Another binding that services the client or publishes an event. -/
  | enterBinding
  | leaveBinding
  /-- The call into Lua returns. -/
  | leave (ok : Bool)

namespace Runtime

/-- The runtime of `ScriptEngine::begin` after `createState`. -/
def boot : Runtime where
  gL := some 0
  reloads := 0
  generation := 0
  timers := fun _ => none
  callbacks := []
  stack := [.file, .file]
  begun := false

def pop (s : Runtime) : Runtime := { s with stack := s.stack.tail }

/-- A `luaBudgetedCall` on `gL`, for a site that checks that there is a state. -/
def enter (s : Runtime) (site : CallSite) : Runtime :=
  match s.gL with
  | some live => { s with stack := .call site live :: s.stack }
  | none => s

def destroyState (s : Runtime) : Runtime := { s with gL := none }

def createState (s : Runtime) (memory : Bool) : Runtime :=
  { s with timers := fun _ => none, gL := if memory then some s.reloads else none }

/-- `ScriptEngine::reload`, up to the two scripts it executes. -/
def reload (s : Runtime) (memory : Bool) : Runtime :=
  let s := { s with reloads := s.reloads + 1, generation := Word32.add s.generation 1 }
  let s := s.destroyState.createState memory
  if s.gL.isSome then { s with stack := .file :: .file :: s.stack } else s

/-- The guard of a callback: there is a state, and the generation is the callback's own. -/
def current (s : Runtime) (cb : LuaCallback) : Bool := s.gL.isSome && s.generation == cb.gen

def serves (s : Runtime) : Server → Bool
  | .mainLoop => s.stack.isEmpty
  | .binding => s.stack.head? matches some (.binding _)

def deliver (s : Runtime) : Delivery → Runtime
  | .callback k =>
      match s.callbacks[k]? with
      | some cb => if s.current cb then s.enter cb.site else s
      | none => s
  | .luaExec => if s.begun then s.enter .luaExec else s
  | .luaLoad => if s.begun then s.enter .luaLoad else s
  | .reload memory => if s.begun then s.reload memory else s

/-- The Lua state of the script that runs. -/
def running (s : Runtime) : Option Nat :=
  match s.stack with
  | .call _ state :: _ => some state
  | _ => none

/-- The references of a binding are made in the state that called it. -/
def subscribe (s : Runtime) (site : CallSite) (state : Nat) : Runtime :=
  { s with callbacks := s.callbacks ++ [⟨site, state, s.generation⟩] }

def enterBinding (s : Runtime) (state : Nat) : Runtime :=
  { s with stack := .binding state :: s.stack }

/-- `lua_node_setTimeout` takes the first free timer. -/
def setTimeout (s : Runtime) (state : Nat) : Runtime :=
  match (List.finRange MAX_TIMERS).find? fun i => (s.timers i).isNone with
  | some i => { s with timers := Function.update s.timers i (some state) }
  | none => s

/-- What a binding does for the script that runs. -/
def script (s : Runtime) (state : Nat) : RuntimeEvent → Runtime
  | .mqttSubscribe stored =>
      if stored then (s.subscribe .mqttCallback state).enterBinding state else s
  | .eventSubscribe => s.subscribe .eventCallback state
  | .setTimeout => s.setTimeout state
  | .enterBinding => s.enterBinding state
  | .leave _ => s.pop
  | _ => s

def step (s : Runtime) (e : RuntimeEvent) : Runtime :=
  match e with
  | .runFile => if s.stack.head? matches some .file then s.pop.enter .executeFile else s
  | .skipFile => if s.stack.head? matches some .file then s.pop else s
  | .begun => if s.serves .mainLoop then { s with begun := true } else s
  | .deliver server d => if s.serves server then s.deliver d else s
  | .timer i =>
      if s.serves .mainLoop && (s.timers i).isSome then
        { s with timers := Function.update s.timers i none }.enter .timer
      else s
  | .leaveBinding => if s.serves .binding then s.pop else s
  | e =>
      match s.running with
      | some state => s.script state e
      | none => s

/-! ## What the code uses -/

inductive Handle where
  /-- A reference of the registry. -/
  | ref
  /-- A slot of the Lua stack. -/
  | slot
  deriving DecidableEq

/-- The code uses a handle of the Lua state `owner` while `gL` points to `gL`. -/
structure Use where
  handle : Handle
  owner : Nat
  gL : Option Nat

/-- What a site uses after its call: the frame of `lua_pcall`, the error or the results, and the
reference of a timer. -/
def afterCall (site : CallSite) (ok : Bool) : List Handle :=
  .slot :: (if ok then [] else [.slot]) ++
    match site with
    | .luaExec => if ok then [.slot] else []
    | .timer => [.ref]
    | _ => []

def uses (s : Runtime) : RuntimeEvent → List Use
  | .runFile | .skipFile | .begun => []
  | .deliver server (.callback k) =>
      match s.callbacks[k]? with
      | some cb => if s.serves server && s.current cb then [⟨.ref, cb.state, s.gL⟩] else []
      | none => []
  | .deliver _ _ => []
  | .timer i =>
      match s.timers i with
      | some owner => if s.serves .mainLoop then [⟨.ref, owner, s.gL⟩] else []
      | none => []
  | .leaveBinding =>
      match s.stack with
      | .binding state :: _ => [⟨.slot, state, s.gL⟩]
      | _ => []
  | .leave ok =>
      match s.stack with
      | .call site state :: _ => (afterCall site ok).map fun handle => ⟨handle, state, s.gL⟩
      | _ => []
  | .mqttSubscribe _ | .eventSubscribe | .setTimeout | .enterBinding =>
      match s.running with
      | some state => [⟨.slot, state, s.gL⟩]
      | none => []

/-- The event has `destroyState` close a Lua state. -/
def destroys (s : Runtime) : RuntimeEvent → Bool
  | .deliver server (.reload _) => s.serves server && s.begun && s.gL.isSome
  | _ => false

/-- A Lua state is closed only while no call into Lua runs, and every handle that is used belongs
to the state that `gL` points to. -/
def Safe (s : Runtime) (e : RuntimeEvent) : Prop :=
  (s.destroys e = true → ∀ f ∈ s.stack, f.owner = none) ∧ ∀ u ∈ s.uses e, u.gL = some u.owner

/-- A reload is not delivered by a binding, and a callback that is delivered was not subscribed a
positive multiple of `2 ^ 32` reloads ago. -/
def ReloadsApart (s : Runtime) : RuntimeEvent → Prop
  | .deliver server (.reload _) => s.serves server = true → s.begun = true → server = .mainLoop
  | .deliver server (.callback k) =>
      s.serves server = true → ∀ cb live, s.callbacks[k]? = some cb → s.gL = some live →
        (live - cb.state) % Word32.size = 0 → cb.state = live
  | _ => True

/-! ## What each step keeps -/

/-- The frames and the timers belong to the state that `gL` points to, and a callback has the
generation of the reload that made its state. -/
structure Sound (s : Runtime) : Prop where
  frames : ∀ f ∈ s.stack, ∀ state, f.owner = some state → s.gL = some state
  live : ∀ state, s.gL = some state → state = s.reloads
  generation : s.generation = s.reloads % Word32.size
  timers : ∀ i state, s.timers i = some state → s.gL = some state
  callbacks : ∀ cb ∈ s.callbacks, cb.gen = cb.state % Word32.size ∧ cb.state ≤ s.reloads

theorem boot_sound : boot.Sound where
  frames f mem state owner := by
    rcases List.mem_cons.mp mem with rfl | mem
    · cases owner
    · rcases List.mem_cons.mp mem with rfl | mem
      · cases owner
      · cases mem
  live state same := by
    cases same
    rfl
  generation := rfl
  timers i state set := by cases set
  callbacks cb mem := by cases mem

variable {s : Runtime}

namespace Sound

theorem pop (h : s.Sound) : s.pop.Sound :=
  { h with frames := fun f mem => h.frames f (List.mem_of_mem_tail mem) }

/-- A frame of the live state goes on the stack. -/
theorem push (h : s.Sound) {f : Frame} (owned : ∀ state, f.owner = some state → s.gL = some state) :
    ({ s with stack := f :: s.stack } : Runtime).Sound := by
  refine { h with frames := ?_ }
  intro g mem state owner
  rcases List.mem_cons.mp mem with rfl | mem
  · exact owned state owner
  · exact h.frames g mem state owner

theorem enter (h : s.Sound) (site : CallSite) : (s.enter site).Sound := by
  unfold Runtime.enter
  split
  · next live points =>
      apply h.push
      intro state owner
      cases owner
      exact points
  · exact h

theorem enterBinding (h : s.Sound) {state : Nat} (points : s.gL = some state) :
    (s.enterBinding state).Sound := by
  apply h.push
  intro other owner
  cases owner
  exact points

/-- A subscription of a script of the live state has the state's own generation. -/
theorem subscribe (h : s.Sound) {state : Nat} (points : s.gL = some state) (site : CallSite) :
    (s.subscribe site state).Sound := by
  refine { h with callbacks := ?_ }
  intro cb mem
  rcases List.mem_append.mp mem with mem | mem
  · exact h.callbacks cb mem
  · rw [List.mem_singleton] at mem
    subst mem
    have same : state = s.reloads := h.live state points
    refine ⟨?_, Nat.le_of_eq same⟩
    rw [same]
    exact h.generation

theorem update (h : s.Sound) (i : Fin MAX_TIMERS) {set : Option Nat}
    (owned : ∀ state, set = some state → s.gL = some state) :
    ({ s with timers := Function.update s.timers i set } : Runtime).Sound := by
  refine { h with timers := ?_ }
  intro j state held
  change Function.update s.timers i set j = some state at held
  by_cases same : j = i
  · rw [same, Function.update_self] at held
    exact owned state held
  · rw [Function.update_of_ne same] at held
    exact h.timers j state held

theorem setTimeout (h : s.Sound) {state : Nat} (points : s.gL = some state) :
    (s.setTimeout state).Sound := by
  unfold Runtime.setTimeout
  split
  · apply h.update
    intro other same
    cases same
    exact points
  · exact h

/-- A reload from the main loop: no frame of the old state is left. -/
theorem reload (h : s.Sound) (idle : s.stack = []) (memory : Bool) : (s.reload memory).Sound := by
  have generation : Word32.add s.generation 1 = (s.reloads + 1) % Word32.size := by
    unfold Word32.add
    rw [h.generation, Nat.mod_add_mod]
  have callbacks : ∀ cb ∈ s.callbacks,
      cb.gen = cb.state % Word32.size ∧ cb.state ≤ s.reloads + 1 := fun cb mem =>
    ⟨(h.callbacks cb mem).1, Nat.le_succ_of_le (h.callbacks cb mem).2⟩
  let fresh : Runtime := ({ s with
    reloads := s.reloads + 1, generation := Word32.add s.generation 1 } : Runtime).destroyState
      |>.createState memory
  have made : fresh.Sound := by
    refine ⟨?_, ?_, generation, ?_, callbacks⟩
    · intro f mem
      change f ∈ s.stack at mem
      rw [idle] at mem
      cases mem
    · intro state points
      change (if memory then some (s.reloads + 1) else none) = some state at points
      show state = s.reloads + 1
      split at points
      · cases points
        rfl
      · cases points
    · intro i state set
      cases set
  show Sound
    (if fresh.gL.isSome then { fresh with stack := .file :: .file :: fresh.stack } else fresh)
  split
  · apply Sound.push (s := { fresh with stack := .file :: fresh.stack }) _
      (fun state owner => by cases owner)
    exact made.push (fun state owner => by cases owner)
  · exact made

end Sound

/-- The main loop runs with an empty stack. -/
theorem idle_of_serves (serves : s.serves .mainLoop = true) : s.stack = [] :=
  List.isEmpty_iff.mp serves

/-- A binding that delivers is on top of the stack. -/
theorem binding_of_serves (serves : s.serves .binding = true) :
    ∃ state, .binding state ∈ s.stack := by
  unfold Runtime.serves at serves
  cases stack : s.stack with
  | nil => simp [stack] at serves
  | cons f rest =>
      cases f with
      | binding state => exact ⟨state, List.mem_cons_self⟩
      | file => simp [stack] at serves
      | call site state => simp [stack] at serves

theorem Sound.running (h : s.Sound) {state : Nat} (running : s.running = some state) :
    s.gL = some state := by
  unfold Runtime.running at running
  split at running
  · next site other rest stack =>
      cases running
      exact h.frames (.call site state) (by simp [stack]) state rfl
  · cases running

theorem Sound.deliver (h : s.Sound) {d : Delivery}
    (apart : ∀ memory, d = .reload memory → s.begun = true → s.stack = []) :
    (s.deliver d).Sound := by
  cases d with
  | callback k =>
      show Sound (match s.callbacks[k]? with
        | some cb => if s.current cb then s.enter cb.site else s
        | none => s)
      split
      · split
        · exact h.enter _
        · exact h
      · exact h
  | luaExec =>
      show Sound (if s.begun then s.enter .luaExec else s)
      split
      · exact h.enter _
      · exact h
  | luaLoad =>
      show Sound (if s.begun then s.enter .luaLoad else s)
      split
      · exact h.enter _
      · exact h
  | reload memory =>
      show Sound (if s.begun then s.reload memory else s)
      split
      · next begun => exact h.reload (apart memory rfl begun) memory
      · exact h

theorem Sound.script (h : s.Sound) {state : Nat} (points : s.gL = some state) (e : RuntimeEvent) :
    (s.script state e).Sound := by
  unfold Runtime.script
  split
  · split
    · exact (h.subscribe points _).enterBinding points
    · exact h
  · exact h.subscribe points _
  · exact h.setTimeout points
  · exact h.enterBinding points
  · exact h.pop
  · exact h

theorem Sound.step (h : s.Sound) (e : RuntimeEvent) (apart : s.ReloadsApart e) :
    (s.step e).Sound := by
  have scripted : Sound (match s.running with
      | some state => s.script state e
      | none => s) := by
    split
    · next state running => exact h.script (h.running running) e
    · exact h
  cases e with
  | runFile =>
      show Sound (if s.stack.head? matches some .file then s.pop.enter .executeFile else s)
      split
      · exact h.pop.enter _
      · exact h
  | skipFile =>
      show Sound (if s.stack.head? matches some .file then s.pop else s)
      split
      · exact h.pop
      · exact h
  | begun =>
      show Sound (if s.serves .mainLoop then { s with begun := true } else s)
      split
      · exact { h with }
      · exact h
  | deliver server d =>
      show Sound (if s.serves server then s.deliver d else s)
      split
      · next serves =>
          apply h.deliver
          rintro memory rfl begun
          have looped : server = .mainLoop := apart serves begun
          subst looped
          exact idle_of_serves serves
      · exact h
  | timer i =>
      show Sound (if s.serves .mainLoop && (s.timers i).isSome then
        ({ s with timers := Function.update s.timers i none } : Runtime).enter .timer else s)
      split
      · exact (h.update i (fun state same => by cases same)).enter _
      · exact h
  | leaveBinding =>
      show Sound (if s.serves .binding then s.pop else s)
      split
      · exact h.pop
      · exact h
  | mqttSubscribe stored => exact scripted
  | eventSubscribe => exact scripted
  | setTimeout => exact scripted
  | enterBinding => exact scripted
  | leave ok => exact scripted

/-! ## Every run -/

/-- Without a reload, a step is safe when what it uses belongs to the live state. -/
theorem safe_of_uses {e : RuntimeEvent} (quiet : s.destroys e = false)
    (owned : ∀ u ∈ s.uses e, u.gL = some u.owner) : s.Safe e := by
  refine ⟨?_, owned⟩
  intro destroys
  rw [quiet] at destroys
  cases destroys

/-- The script that runs uses the live state. -/
theorem Sound.script_uses (h : s.Sound) : ∀ u ∈ (match s.running with
    | some state => [(⟨.slot, state, s.gL⟩ : Use)]
    | none => []), u.gL = some u.owner := by
  intro u mem
  split at mem
  · next state running =>
      rw [List.mem_singleton] at mem
      subst mem
      exact h.running running
  · cases mem

theorem Sound.callback_iff (h : s.Sound) (server : Server) (k : Nat) :
    s.Safe (.deliver server (.callback k)) ↔ s.ReloadsApart (.deliver server (.callback k)) := by
  have used : (∀ u ∈ s.uses (.deliver server (.callback k)), u.gL = some u.owner) ↔
      (s.serves server = true → ∀ cb, s.callbacks[k]? = some cb → s.current cb = true →
        s.gL = some cb.state) := by
    simp only [uses]
    cases s.callbacks[k]? with
    | none => simp
    | some cb =>
        by_cases served : s.serves server = true
        · by_cases current : s.current cb = true <;> simp [served, current]
        · simp [served]
  have same : ∀ cb live, cb ∈ s.callbacks → s.gL = some live →
      (s.current cb = true ↔ (live - cb.state) % Word32.size = 0) := by
    intro cb live mem points
    obtain ⟨gen, older⟩ := h.callbacks cb mem
    rw [current, points, h.generation, gen, h.live live points]
    simp only [Option.isSome_some, Bool.true_and, beq_iff_eq]
    unfold Word32.size
    omega
  constructor
  · rintro ⟨-, owned⟩ served cb live at_k points multiple
    have mem : cb ∈ s.callbacks := List.mem_of_getElem? at_k
    have held := used.mp owned served cb at_k ((same cb live mem points).mpr multiple)
    rw [points] at held
    exact (Option.some.inj held).symm
  · intro apart
    apply safe_of_uses rfl
    apply used.mpr
    intro served cb at_k current
    have mem : cb ∈ s.callbacks := List.mem_of_getElem? at_k
    obtain ⟨live, points⟩ : ∃ live, s.gL = some live := by
      unfold Runtime.current at current
      rw [Bool.and_eq_true, Option.isSome_iff_exists] at current
      exact current.1
    rw [points, apart served cb live at_k points ((same cb live mem points).mp current)]

theorem Sound.reload_iff (h : s.Sound) (server : Server) (memory : Bool) :
    s.Safe (.deliver server (.reload memory)) ↔
      s.ReloadsApart (.deliver server (.reload memory)) := by
  constructor
  · rintro ⟨alone, -⟩ served begun
    cases server with
    | mainLoop => rfl
    | binding =>
        obtain ⟨state, mem⟩ := binding_of_serves served
        have points : s.gL = some state := h.frames _ mem state rfl
        have destroys : s.destroys (.deliver .binding (.reload memory)) = true := by
          simp [Runtime.destroys, served, begun, points]
        have none_owned : Frame.owner (.binding state) = none := alone destroys _ mem
        cases none_owned
  · intro apart
    refine ⟨?_, by intro u mem; cases mem⟩
    intro destroys f mem
    simp only [Runtime.destroys, Bool.and_eq_true] at destroys
    have looped : server = .mainLoop := apart destroys.1.1 destroys.1.2
    subst looped
    rw [idle_of_serves destroys.1.1] at mem
    cases mem

theorem Sound.safe_iff (h : s.Sound) (e : RuntimeEvent) : s.Safe e ↔ s.ReloadsApart e := by
  have quiet (safe : s.Safe e) (apart : s.ReloadsApart e) : s.Safe e ↔ s.ReloadsApart e :=
    ⟨fun _ => apart, fun _ => safe⟩
  have silent : ∀ u ∈ ([] : List Use), u.gL = some u.owner := by
    intro u mem
    cases mem
  cases e with
  | runFile => exact quiet (safe_of_uses rfl silent) trivial
  | skipFile => exact quiet (safe_of_uses rfl silent) trivial
  | begun => exact quiet (safe_of_uses rfl silent) trivial
  | deliver server d =>
      cases d with
      | callback k => exact h.callback_iff server k
      | luaExec => exact quiet (safe_of_uses rfl silent) trivial
      | luaLoad => exact quiet (safe_of_uses rfl silent) trivial
      | reload memory => exact h.reload_iff server memory
  | timer i =>
      refine quiet (safe_of_uses rfl ?_) trivial
      intro u mem
      simp only [uses] at mem
      split at mem
      · next owner set =>
          split at mem
          · rw [List.mem_singleton] at mem
            subst mem
            exact h.timers i owner set
          · cases mem
      · cases mem
  | leaveBinding =>
      refine quiet (safe_of_uses rfl ?_) trivial
      intro u mem
      simp only [uses] at mem
      split at mem
      · next state rest stack =>
          rw [List.mem_singleton] at mem
          subst mem
          exact h.frames (.binding state) (by simp [stack]) state rfl
      · cases mem
  | leave ok =>
      refine quiet (safe_of_uses rfl ?_) trivial
      intro u mem
      simp only [uses] at mem
      split at mem
      · next site state rest stack =>
          obtain ⟨handle, -, rfl⟩ := List.mem_map.mp mem
          exact h.frames (.call site state) (by simp [stack]) state rfl
      · cases mem
  | mqttSubscribe stored => exact quiet (safe_of_uses rfl h.script_uses) trivial
  | eventSubscribe => exact quiet (safe_of_uses rfl h.script_uses) trivial
  | setTimeout => exact quiet (safe_of_uses rfl h.script_uses) trivial
  | enterBinding => exact quiet (safe_of_uses rfl h.script_uses) trivial

instance (s : Runtime) (e : RuntimeEvent) : Decidable (s.Safe e) :=
  inferInstanceAs (Decidable (_ ∧ ∀ u ∈ s.uses e, u.gL = some u.owner))

end Runtime

end Thesada.Script
