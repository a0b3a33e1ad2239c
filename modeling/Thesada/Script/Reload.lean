import Thesada.Library.Machine
import Thesada.Mqtt.SubTable

/-!
# Script reloads and the subscription table

`MQTT.subscribe` of a script takes a slot of the MQTT subscription table. `ScriptEngine::reload`
makes a new Lua state and runs the scripts again, and the slots of the state before stay: their
callbacks do nothing any more, and only a reset of the whole table takes them out.

A run starts with an empty table. Each closure a script subscribes gets a number of its own.
Messages that arrive while a script subscribes are in `Thesada.Script.State`.
-/

namespace Thesada.Script

open CString Mqtt MqttSubTable

def MQTT_MAX_SUBS : Nat := 16

/-- A callback of the table: one of the core, the reload trigger, or a closure of a script with
the generation it was made in. -/
inductive SubCallback where
  | core
  | reload
  | lua (gen closure : Nat)
  deriving DecidableEq

structure Engine where
  subs : MqttSubTable SubCallback MQTT_MAX_SUBS
  /-- `_generation`, of 32 bits. -/
  generation : Nat
  /-- `gL` is not null. -/
  gL : Bool
  /-- The closures made so far. -/
  closures : Nat

inductive EngineEvent where
  | coreSubscribe (topic : Str)
  /-- The reload topic, which `ScriptEngine::begin` subscribes after the scripts. -/
  | reloadSubscribe (topic : Str)
  /-- `MQTT.subscribe` by a running script, callback or timer. -/
  | luaSubscribe (topic : Str)
  /-- `ScriptEngine::reload`: the topics that both scripts subscribe, in order, or nothing when
  there is no memory for a new state. -/
  | reload (topics : Option (List Str))
  /-- `MQTTClient::begin` and `reinitSubscriptions` empty the table. -/
  | resetTable

namespace Engine

/-- `lua_mqtt_subscribe`. -/
def luaSubscribe (s : Engine) (topic : Str) : Engine :=
  { s with
    subs := (s.subs.add topic (.lua s.generation s.closures)).1, closures := s.closures + 1 }

/-- The subscriptions of the scripts, in order. -/
def runScripts (s : Engine) (topics : List Str) : Engine := topics.foldl luaSubscribe s

/-- `ScriptEngine::reload`. -/
def reload (s : Engine) (topics : Option (List Str)) : Engine :=
  let s := { s with generation := Word32.add s.generation 1 }
  match topics with
  | none => { s with gL := false }
  | some topics => { s with gL := true }.runScripts topics

def step (s : Engine) : EngineEvent → Engine
  | .coreSubscribe topic => { s with subs := (s.subs.add topic .core).1 }
  | .reloadSubscribe topic => { s with subs := (s.subs.add topic .reload).1 }
  | .luaSubscribe topic => s.luaSubscribe topic
  | .reload topics => s.reload topics
  | .resetTable => { s with subs := s.subs.reset }

/-- The engine of a boot: `ScriptEngine::begin` makes a Lua state, and the table is empty. -/
def boot : Engine where
  subs := .empty
  generation := 0
  gL := true
  closures := 0

/-- The callback of a slot runs a closure only in the state it was made in. -/
def runs (s : Engine) : SubCallback → Bool
  | .lua gen _ => s.gL && gen == s.generation
  | _ => true

end Engine

/-! ## What a subscription leaves in the table -/

/-- A topic that a slot can hold. -/
def TopicFits (topic : Str) : Prop := topic ≠ [] ∧ topic.length < MQTT_TOPIC_CAP

instance (topic : Str) : Decidable (TopicFits topic) := inferInstanceAs (Decidable (_ ∧ _))

/-- A slot in use has the topic and the callback. -/
def Holds (t : MqttSubTable SubCallback MQTT_MAX_SUBS) (topic : Str) (cb : SubCallback) : Prop :=
  ∃ i : Fin MQTT_MAX_SUBS, i < t.count ∧ t.slots i = some ⟨topic, cb, true⟩

section

variable {t t' : MqttSubTable SubCallback MQTT_MAX_SUBS} {topic other : Str} {cb cb' : SubCallback}

theorem Holds.grows (h : Holds t topic cb) (grows : Grows t t') : Holds t' topic cb := by
  obtain ⟨i, used, held⟩ := h
  exact ⟨i, Nat.lt_of_lt_of_le used grows.count, (grows.slots i used).trans held⟩

/-- With room for it, a topic that fits takes the next slot. -/
theorem add_room (room : t.count < MQTT_MAX_SUBS) (fits : TopicFits topic) :
    (t.add topic cb).1.count = t.count + 1 ∧ Holds (t.add topic cb).1 topic cb := by
  have plain : (topic = [] || decide (MQTT_TOPIC_CAP ≤ topic.length)) = false := by
    simp [fits.1, Nat.not_le.mpr fits.2]
  have added : (t.add topic cb).1 =
      ⟨Function.update t.slots ⟨t.count, room⟩ (some ⟨topic, cb, true⟩), t.count + 1⟩ := by
    simp [MqttSubTable.add, room, plain]
  rw [added]
  exact ⟨rfl, ⟨t.count, room⟩, Nat.lt_succ_self _, Function.update_self ..⟩

/-- Without room, or for a topic that does not fit, the table stays. -/
theorem add_refused (refused : ¬(t.count < MQTT_MAX_SUBS ∧ TopicFits topic)) :
    (t.add topic cb).1 = t := by
  unfold MqttSubTable.add
  split
  · next room =>
      split
      · rfl
      · next plain =>
          simp only [Bool.or_eq_true, decide_eq_true_eq, not_or, Nat.not_le] at plain
          exact absurd ⟨room, plain⟩ refused
  · rfl

/-- What a table holds after a subscription was there before, or is the new one. -/
theorem Holds.before (h : Holds (t.add topic cb).1 other cb') :
    Holds t other cb' ∨ other = topic ∧ cb' = cb := by
  obtain same | ⟨free, added⟩ := add_cases t topic cb
  · rw [same] at h
    exact Or.inl h
  · rw [added] at h
    obtain ⟨i, used, held⟩ := h
    change Function.update t.slots ⟨t.count, free⟩ (some ⟨topic, cb, true⟩) i = _ at held
    by_cases last : i = ⟨t.count, free⟩
    · subst last
      rw [Function.update_self] at held
      cases held
      exact Or.inr ⟨rfl, rfl⟩
    · rw [Function.update_of_ne last] at held
      have apart : i.val ≠ t.count := fun same => last (Fin.ext same)
      have within : i.val < t.count + 1 := used
      exact Or.inl ⟨i, by omega, held⟩

/-- A slot in use is invoked by a message that its filter takes. -/
theorem Holds.invoked (h : Holds t topic cb) (filled : Filled t)
    (subscribes : SubCallback → Str → Str → List (Str × SubCallback)) {name : Str}
    (takes : mqttSubMatches topic name = true) (payload : Str) :
    ∃ i : Fin MQTT_MAX_SUBS, t.slots i = some ⟨topic, cb, true⟩ ∧
      i ∈ (t.dispatch subscribes name payload).2 := by
  obtain ⟨i, used, held⟩ := h
  have done := filled.dispatch subscribes name payload
  obtain ⟨slot, same, called⟩ := done.served i (List.mem_finRange i) used
  rw [held] at same
  cases same
  exact ⟨i, held, called.mpr takes⟩

end

namespace Engine

/-- The slots in use are active, and their closures were made before. -/
structure Sound (s : Engine) : Prop where
  filled : Filled s.subs
  known : ∀ topic gen closure, Holds s.subs topic (.lua gen closure) → closure < s.closures

variable {s : Engine} {topic : Str}

theorem Sound.luaSubscribe (h : s.Sound) (topic : Str) : (s.luaSubscribe topic).Sound := by
  refine ⟨(h.filled.add topic _).1, ?_⟩
  intro other gen closure held
  obtain before | ⟨-, same⟩ := held.before
  · exact Nat.lt_succ_of_lt (h.known other gen closure before)
  · cases same
    exact Nat.lt_succ_self _

/-- A later subscription makes a closure of its own. -/
theorem holds_luaSubscribe {closure gen : Nat} {other : Str} (older : closure < s.closures) :
    Holds (s.luaSubscribe topic).subs other (.lua gen closure) ↔
      Holds s.subs other (.lua gen closure) := by
  constructor
  · intro held
    obtain before | ⟨-, same⟩ := held.before
    · exact before
    · cases same
      exact absurd older (Nat.lt_irrefl _)
  · intro held
    obtain same | ⟨free, added⟩ := add_cases s.subs topic (.lua s.generation s.closures)
    · rw [Engine.luaSubscribe, same]
      exact held
    · refine held.grows ?_
      rw [Engine.luaSubscribe, added]
      refine ⟨Nat.le_succ _, ?_⟩
      intro i used
      exact Function.update_of_ne (fun same => by simp [same] at used) ..

theorem holds_runScripts {closure gen : Nat} {other : Str} (topics : List Str)
    (older : closure < s.closures) :
    Holds (s.runScripts topics).subs other (.lua gen closure) ↔
      Holds s.subs other (.lua gen closure) := by
  induction topics generalizing s with
  | nil => exact Iff.rfl
  | cons topic topics ih =>
      have next : closure < (s.luaSubscribe topic).closures := Nat.lt_succ_of_lt older
      exact (ih next).trans (holds_luaSubscribe older)

/-- The new closure is in the table exactly when there was room and the topic fits. -/
theorem Sound.holds_new (h : s.Sound) (topic : Str) :
    Holds (s.luaSubscribe topic).subs topic (.lua s.generation s.closures) ↔
      s.subs.count < MQTT_MAX_SUBS ∧ TopicFits topic := by
  constructor
  · intro held
    by_contra refused
    have same : (s.luaSubscribe topic).subs = s.subs := add_refused refused
    rw [same] at held
    exact absurd (h.known _ _ _ held) (Nat.lt_irrefl _)
  · rintro ⟨room, fits⟩
    exact (add_room room fits).2

theorem Sound.runScripts (h : s.Sound) (topics : List Str) : (s.runScripts topics).Sound := by
  induction topics generalizing s with
  | nil => exact h
  | cons topic topics ih => exact ih (h.luaSubscribe topic)

theorem runScripts_gL (topics : List Str) :
    (s.runScripts topics).gL = s.gL ∧ (s.runScripts topics).generation = s.generation := by
  induction topics generalizing s with
  | nil => exact ⟨rfl, rfl⟩
  | cons topic topics ih => exact ih (s := s.luaSubscribe topic)

/-- The closures of the scripts are all in the table exactly when there was room for them. -/
theorem Sound.holds_scripts (h : s.Sound) (topics : List Str) :
    (∀ k topic, topics[k]? = some topic →
      Holds (s.runScripts topics).subs topic (.lua s.generation (s.closures + k))) ↔
    s.subs.count + topics.length ≤ MQTT_MAX_SUBS ∧ ∀ topic ∈ topics, TopicFits topic := by
  induction topics generalizing s with
  | nil => simpa using h.filled.fits
  | cons topic topics ih =>
      have next := ih (h.luaSubscribe topic)
      have first : Holds (s.runScripts (topic :: topics)).subs topic
          (.lua s.generation (s.closures + 0)) ↔
            s.subs.count < MQTT_MAX_SUBS ∧ TopicFits topic := by
        rw [Nat.add_zero]
        exact (holds_runScripts topics (Nat.lt_succ_self _)).trans (h.holds_new topic)
      have split : (∀ k other, (topic :: topics)[k]? = some other →
          Holds (s.runScripts (topic :: topics)).subs other
            (.lua s.generation (s.closures + k))) ↔
          (s.subs.count < MQTT_MAX_SUBS ∧ TopicFits topic) ∧
            ((s.luaSubscribe topic).subs.count + topics.length ≤ MQTT_MAX_SUBS ∧
              ∀ topic ∈ topics, TopicFits topic) := by
        rw [← first, ← next]
        constructor
        · intro all
          refine ⟨all 0 topic rfl, ?_⟩
          intro k other at_k
          have held := all (k + 1) other at_k
          rwa [← Nat.add_assoc, Nat.add_right_comm] at held
        · rintro ⟨zero, more⟩ k other at_k
          cases k with
          | zero =>
              cases at_k
              exact zero
          | succ k =>
              have held := more k other at_k
              rwa [← Nat.add_assoc, Nat.add_right_comm]
      rw [split, List.length_cons, List.forall_mem_cons]
      by_cases room : s.subs.count < MQTT_MAX_SUBS ∧ TopicFits topic
      · have count : (s.luaSubscribe topic).subs.count = s.subs.count + 1 :=
          (add_room room.1 room.2).1
        rw [count]
        constructor
        · rintro ⟨-, bound, fit⟩
          exact ⟨by omega, room.2, fit⟩
        · rintro ⟨bound, -, fit⟩
          exact ⟨room, by omega, fit⟩
      · constructor
        · rintro ⟨placed, -⟩
          exact absurd placed room
        · rintro ⟨bound, fit, -⟩
          exact absurd ⟨by omega, fit⟩ room

/-! ## Every run of reloads -/

theorem Sound.step (h : s.Sound) (e : EngineEvent) : (s.step e).Sound := by
  have kept {topic : Str} {cb : SubCallback} (other : ∀ gen closure, cb ≠ .lua gen closure) :
      ({ s with subs := (s.subs.add topic cb).1 } : Engine).Sound := by
    refine ⟨(h.filled.add topic cb).1, ?_⟩
    intro name gen closure held
    obtain before | ⟨-, same⟩ := held.before
    · exact h.known name gen closure before
    · exact absurd same.symm (other gen closure)
  cases e with
  | coreSubscribe topic => exact kept fun _ _ same => by cases same
  | reloadSubscribe topic => exact kept fun _ _ same => by cases same
  | luaSubscribe topic => exact h.luaSubscribe topic
  | reload topics =>
      cases topics with
      | none => exact ⟨h.filled, h.known⟩
      | some topics =>
          refine Sound.runScripts ?_ topics
          exact ⟨h.filled, h.known⟩
  | resetTable =>
      refine ⟨Filled.reset s.subs, ?_⟩
      rintro topic gen closure ⟨i, used, -⟩
      exact absurd used (Nat.not_lt_zero _)

theorem boot_sound : boot.Sound := by
  refine ⟨⟨Nat.zero_le _, fun i used => absurd used (Nat.not_lt_zero _)⟩, ?_⟩
  rintro topic gen closure ⟨i, used, -⟩
  exact absurd used (Nat.not_lt_zero _)

/-- After the reload, each topic the scripts subscribed has its callback in the table, that
callback is of the current generation, and a message on the topic invokes it. -/
def ReloadServes (s : Engine) : EngineEvent → Prop
  | .reload (some topics) =>
      let s' := s.reload (some topics)
      ∀ k topic, topics[k]? = some topic →
        let cb := SubCallback.lua s'.generation (s.closures + k)
        s'.runs cb = true ∧ Holds s'.subs topic cb ∧
          ∀ subscribes name payload, mqttSubMatches topic name = true →
            ∃ i, s'.subs.slots i = some ⟨topic, cb, true⟩ ∧
              i ∈ (s'.subs.dispatch subscribes name payload).2
  | _ => True

/-- The slots in use since the table was last reset leave room for the scripts' topics, and each
topic fits a slot. -/
def ReloadFits (s : Engine) : EngineEvent → Prop
  | .reload (some topics) =>
      s.subs.count + topics.length ≤ MQTT_MAX_SUBS ∧ ∀ topic ∈ topics, TopicFits topic
  | _ => True

theorem Sound.reload_iff (h : s.Sound) (e : EngineEvent) : s.ReloadServes e ↔ s.ReloadFits e := by
  cases e with
  | coreSubscribe topic => exact Iff.rfl
  | reloadSubscribe topic => exact Iff.rfl
  | luaSubscribe topic => exact Iff.rfl
  | resetTable => exact Iff.rfl
  | reload topics =>
      cases topics with
      | none => exact Iff.rfl
      | some topics =>
          let fresh : Engine := { s with generation := Word32.add s.generation 1, gL := true }
          have sound : fresh.Sound := ⟨h.filled, h.known⟩
          have exact_room := sound.holds_scripts topics
          have after : s.reload (some topics) = fresh.runScripts topics := rfl
          have state : (s.reload (some topics)).gL = true ∧
              (s.reload (some topics)).generation = fresh.generation := by
            rw [after]
            exact runScripts_gL topics
          have filled : Filled (s.reload (some topics)).subs := by
            rw [after]
            exact (sound.runScripts topics).filled
          show _ ↔ s.subs.count + topics.length ≤ MQTT_MAX_SUBS ∧ ∀ topic ∈ topics, TopicFits topic
          rw [← exact_room]
          constructor
          · intro served k topic at_k
            have held := (served k topic at_k).2.1
            rwa [state.2] at held
          · intro all k topic at_k
            have held := all k topic at_k
            rw [← state.2] at held
            refine ⟨by simp [runs, state.1], held, ?_⟩
            intro subscribes name payload takes
            exact Holds.invoked held filled subscribes takes payload

instance (s : Engine) : ∀ e, Decidable (s.ReloadFits e)
  | .reload (some topics) => inferInstanceAs (Decidable (_ ∧ ∀ topic ∈ topics, TopicFits topic))
  | .reload none => isTrue trivial
  | .coreSubscribe _ => isTrue trivial
  | .reloadSubscribe _ => isTrue trivial
  | .luaSubscribe _ => isTrue trivial
  | .resetTable => isTrue trivial

theorem runScripts_count (topics : List Str) (fit : ∀ topic ∈ topics, TopicFits topic)
    (room : s.subs.count + topics.length ≤ MQTT_MAX_SUBS) :
    (s.runScripts topics).subs.count = s.subs.count + topics.length := by
  induction topics generalizing s with
  | nil => rfl
  | cons topic topics ih =>
      rw [List.length_cons] at room ⊢
      have first : (s.luaSubscribe topic).subs.count = s.subs.count + 1 :=
        (add_room (by omega) (fit topic List.mem_cons_self)).1
      have rest := ih (s := s.luaSubscribe topic)
        (fun other mem => fit other (List.mem_cons_of_mem _ mem)) (by omega)
      show ((s.luaSubscribe topic).runScripts topics).subs.count = _
      omega

/-- Scripts that do not change can be reloaded until the slots run out. -/
theorem reloads_fit_iff {topics : List Str} (fit : ∀ topic ∈ topics, TopicFits topic)
    (reloads : Nat) (s : Engine) (filled : s.subs.count ≤ MQTT_MAX_SUBS) :
    Machine.Meets step ReloadFits s (List.replicate reloads (.reload (some topics))) ↔
      s.subs.count + reloads * topics.length ≤ MQTT_MAX_SUBS := by
  induction reloads generalizing s with
  | zero => simpa using filled
  | succ reloads ih =>
      rw [List.replicate_succ, Machine.meets_cons, Nat.succ_mul]
      by_cases room : s.subs.count + topics.length ≤ MQTT_MAX_SUBS
      · have count : (s.step (.reload (some topics))).subs.count =
            s.subs.count + topics.length := runScripts_count topics fit room
        rw [ih _ (by rw [count]; exact room), count]
        constructor
        · rintro ⟨-, bound⟩
          omega
        · intro bound
          exact ⟨⟨room, fit⟩, by omega⟩
      · constructor
        · rintro ⟨⟨fits, -⟩, -⟩
          exact absurd fits room
        · intro bound
          have more : topics.length ≤ (reloads + 1) * topics.length :=
            Nat.le_mul_of_pos_left _ (Nat.succ_pos _)
          rw [Nat.succ_mul] at more
          omega

end Engine

end Thesada.Script
