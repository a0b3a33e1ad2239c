import Thesada.Mqtt.SubTable

/-!
# The slots of the subscription table

A slot keeps a filter in a buffer of fixed size, a callback and an active flag; the table counts
the slots in use. A reset clears the flags and the count and leaves buffers and callbacks as they
are, so a slot that is filled again holds bytes of an older filter behind the new one.

The table is what was accepted since the last reset: the filters and callbacks of its log.
Callbacks that subscribe while a message is dispatched are in `Thesada.Mqtt.SubTable`, which this
table refines.
-/

namespace Thesada.Mqtt

open CString Machine

structure FixedSlot (CB : Type) (TOPIC_CAP : Nat) where
  topic : Fin TOPIC_CAP → Char
  callback : CB
  active : Bool

/-- The table as it lies in memory; `count` is eight bits wide, as `N` is. -/
structure FixedSubTable (CB : Type) (N : UInt8) (TOPIC_CAP : Nat) where
  slots : Fin N.toNat → FixedSlot CB TOPIC_CAP
  count : UInt8

/-- `memcpy` to the front of a buffer: what lies behind stays. -/
def memcpy {cap : Nat} (buf : Fin cap → Char) (src : Str) : Fin cap → Char :=
  fun i => src[i.val]?.getD (buf i)

/-- What a reader of a buffer sees. -/
def cText {cap : Nat} (buf : Fin cap → Char) : Str := cstr (List.ofFn buf)

namespace FixedSubTable

variable {CB : Type} {N : UInt8} {TOPIC_CAP : Nat}

/-- `_slots[N] = {}` and `_count = 0`. -/
def start (CB : Type) [Inhabited CB] (N : UInt8) (TOPIC_CAP : Nat) :
    FixedSubTable CB N TOPIC_CAP :=
  ⟨fun _ => ⟨fun _ => '\x00', default, false⟩, 0⟩

def reset (t : FixedSubTable CB N TOPIC_CAP) : FixedSubTable CB N TOPIC_CAP where
  slots := fun i => { t.slots i with active := false }
  count := 0

/-- A null pointer is `none`. -/
def add (t : FixedSubTable CB N TOPIC_CAP) (topic : Option Str) (cb : CB) :
    FixedSubTable CB N TOPIC_CAP × Bool :=
  if free : t.count.toNat < N.toNat then
    let text := topic.elim [] cstr
    if text = [] || TOPIC_CAP ≤ text.length then (t, false)
    else
      let s := t.slots ⟨t.count.toNat, free⟩
      (⟨Function.update t.slots ⟨t.count.toNat, free⟩
        ⟨memcpy s.topic (text ++ ['\x00']), cb, true⟩, t.count + 1⟩, true)
  else (t, false)

/-- The slots that the loops up to `_count` go through. -/
def inUse (t : FixedSubTable CB N TOPIC_CAP) : List (FixedSlot CB TOPIC_CAP) :=
  (List.ofFn t.slots).take t.count.toNat

def isRegistered (t : FixedSubTable CB N TOPIC_CAP) (topic : Str) : Bool :=
  t.inUse.any fun s => s.active && cText s.topic = cstr topic

/-- The callbacks that are invoked, in order, each with the topic and the payload. -/
def dispatch (t : FixedSubTable CB N TOPIC_CAP) (topic payload : Str) : List (CB × Str × Str) :=
  (t.inUse.filter fun s => s.active && mqttSubMatches (cText s.topic) (cstr topic)).map
    fun s => (s.callback, topic, payload)

/-- The topics that the function is applied to, in order. -/
def forEachActive (t : FixedSubTable CB N TOPIC_CAP) : List Str :=
  (t.inUse.filter fun s => s.active).map fun s => cText s.topic

end FixedSubTable

/-! ## Runs and their log -/

inductive TableCall (CB : Type) where
  | reset
  | add (topic : Option Str) (cb : CB)

/-- The same call for a table of filters without buffers. -/
def TableCall.toSub {CB : Type} : TableCall CB → SubCall CB
  | .reset => .reset
  | .add topic cb => .subscribe (topic.elim [] cstr) cb

/-- A table and the adds it accepted since its last reset, in order. -/
structure Logged (CB : Type) (N : UInt8) (TOPIC_CAP : Nat) where
  table : FixedSubTable CB N TOPIC_CAP
  log : List (Str × CB)

def logStep {CB : Type} {N : UInt8} {TOPIC_CAP : Nat} (s : Logged CB N TOPIC_CAP) :
    TableCall CB → Logged CB N TOPIC_CAP
  | .reset => ⟨s.table.reset, []⟩
  | .add topic cb =>
      ⟨(s.table.add topic cb).1,
        if (s.table.add topic cb).2 then s.log ++ [(topic.elim [] cstr, cb)] else s.log⟩

/-! ## Buffers -/

theorem ofFn_memcpy {cap : Nat} (buf : Fin cap → Char) {src : Str} (fits : src.length ≤ cap) :
    List.ofFn (memcpy buf src) = src ++ (List.ofFn buf).drop src.length := by
  apply List.ext_getElem
  · simp only [List.length_ofFn, List.length_append, List.length_drop]
    omega
  · intro i below _
    rw [List.length_ofFn] at below
    simp only [List.getElem_ofFn, memcpy]
    by_cases inside : i < src.length
    · rw [List.getElem?_eq_getElem inside, Option.getD_some, List.getElem_append_left inside]
    · have past : src.length ≤ i := Nat.not_lt.mp inside
      have whole : src.length + (i - src.length) = i := by omega
      rw [List.getElem?_eq_none past, Option.getD_none, List.getElem_append_right past]
      simp only [List.getElem_drop, List.getElem_ofFn, whole]

theorem nul_notMem_pointed (topic : Option Str) : '\x00' ∉ topic.elim [] cstr := by
  cases topic with
  | none => exact List.not_mem_nil
  | some text => exact nul_notMem_cstr text

/-- A text that fits with its terminator is read back, whatever the buffer held. -/
theorem cText_memcpy {cap : Nat} (buf : Fin cap → Char) {text : Str}
    (fits : text.length < cap) (plain : '\x00' ∉ text) :
    cText (memcpy buf (text ++ ['\x00'])) = text := by
  have room : (text ++ ['\x00']).length ≤ cap := by
    simp only [List.length_append, List.length_singleton]
    omega
  have each : ∀ c ∈ text, decide (c ≠ '\x00') = true :=
    fun c mem => decide_eq_true fun zero => plain (zero ▸ mem)
  rw [cText, cstr, ofFn_memcpy buf room, List.append_assoc, List.takeWhile_append_of_pos each]
  simp

theorem cText_zeros (cap : Nat) : cText (fun _ : Fin cap => '\x00') = [] := by
  cases cap with
  | zero => rfl
  | succ cap => simp [cText, cstr, List.ofFn_succ]

/-! ## The table is its log -/

namespace FixedSubTable

variable {CB : Type} {N : UInt8} {TOPIC_CAP : Nat} {t : FixedSubTable CB N TOPIC_CAP}
  {log : List (Str × CB)}

/-- Why an add is refused. -/
def Refuses (N : UInt8) (TOPIC_CAP : Nat) (log : List (Str × CB)) (topic : Option Str) : Prop :=
  log.length = N.toNat ∨ topic = none ∨
    ∃ text, topic = some text ∧ (cstr text = [] ∨ TOPIC_CAP ≤ (cstr text).length)

/-- The slots in use are active and hold the log, in order. -/
structure Records (t : FixedSubTable CB N TOPIC_CAP) (log : List (Str × CB)) : Prop where
  count : t.count.toNat = log.length
  fits : log.length ≤ N.toNat
  used : (t.inUse.map fun s => (cText s.topic, s.callback, s.active)) =
    log.map fun e => (e.1, e.2, true)

theorem toNat_succ (free : t.count.toNat < N.toNat) :
    (t.count + 1).toNat = t.count.toNat + 1 := by
  have small := N.toNat_lt
  rw [UInt8.toNat_add, UInt8.toNat_one]
  omega

/-- A write to the first free slot puts it behind those in use. -/
theorem inUse_write (free : t.count.toNat < N.toNat) (s : FixedSlot CB TOPIC_CAP) :
    inUse ⟨Function.update t.slots ⟨t.count.toNat, free⟩ s, t.count + 1⟩ = t.inUse ++ [s] := by
  simp only [inUse, toNat_succ free]
  rw [List.take_succ_eq_append_getElem (by simpa using free)]
  congr 1
  · apply List.ext_getElem
    · simp
    · intro i below _
      have before : i ≠ t.count.toNat := by
        simp only [List.length_take] at below
        omega
      simp [before]
  · simp

theorem refuses_iff (h : Records t log) {topic : Option Str} :
    Refuses N TOPIC_CAP log topic ↔ ¬t.count.toNat < N.toNat ∨
      topic.elim [] cstr = [] ∨ TOPIC_CAP ≤ (topic.elim [] cstr).length := by
  have full : log.length = N.toNat ↔ ¬t.count.toNat < N.toNat := by
    have count := h.count
    have fits := h.fits
    omega
  rw [Refuses, full]
  cases topic with
  | none => simp
  | some text => simp

theorem add_of_refuses (h : Records t log) {topic : Option Str} (cb : CB)
    (refuses : Refuses N TOPIC_CAP log topic) : t.add topic cb = (t, false) := by
  rw [refuses_iff h] at refuses
  simp only [add]
  split
  · rename_i free
    rw [if_pos (by simpa [free] using refuses)]
  · rfl

theorem add_of_accepts (h : Records t log) {topic : Option Str} (cb : CB)
    (accepts : ¬Refuses N TOPIC_CAP log topic) :
    (t.add topic cb).2 = true ∧
      Records (t.add topic cb).1 (log ++ [(topic.elim [] cstr, cb)]) := by
  rw [refuses_iff h, not_or, not_or, Classical.not_not] at accepts
  obtain ⟨free, some, short⟩ := accepts
  have read := cText_memcpy (t.slots ⟨t.count.toNat, free⟩).topic (Nat.not_le.mp short)
    (nul_notMem_pointed topic)
  simp only [add, dif_pos free, some, short, decide_false, Bool.or_self, Bool.false_eq_true,
    if_false, true_and]
  refine ⟨?_, ?_, ?_⟩
  · rw [toNat_succ free, h.count, List.length_append, List.length_singleton]
  · have count := h.count
    rw [List.length_append, List.length_singleton]
    omega
  · rw [inUse_write, List.map_append, List.map_append, h.used, List.map_singleton,
      List.map_singleton, read]

theorem Records.reset (t : FixedSubTable CB N TOPIC_CAP) : Records t.reset [] where
  count := rfl
  fits := Nat.zero_le _
  used := rfl

/-! ## What the readers see -/

/-- A loop over the slots in use that tests the active flag and reads a slot's filter and
callback is that loop over the log. -/
theorem Records.readers {β : Type} (h : Records t log) (test : Str → Bool) (read : Str × CB → β) :
    ((t.inUse.filter fun s => s.active && test (cText s.topic)).map
      fun s => read (cText s.topic, s.callback)) =
        (log.filter fun e => test e.1).map read := by
  have seen := congrArg
    (fun l : List (Str × CB × Bool) => (l.filter fun e => e.2.2 && test e.1).map
      fun e => read (e.1, e.2.1)) h.used
  simpa only [List.filter_map, List.map_map, Function.comp_def, Bool.true_and] using seen

theorem Records.isRegistered (h : Records t log) (topic : Str) :
    t.isRegistered topic = true ↔ ∃ cb, (cstr topic, cb) ∈ log := by
  have seen := congrArg
    (fun l : List (Str × CB × Bool) => l.any fun e => e.2.2 && e.1 = cstr topic) h.used
  simp only [List.any_map, Function.comp_def, Bool.true_and] at seen
  rw [FixedSubTable.isRegistered, seen]
  simp

theorem Records.dispatch (h : Records t log) (topic payload : Str) :
    t.dispatch topic payload =
      (log.filter fun e => mqttSubMatches e.1 (cstr topic)).map
        fun e => (e.2, topic, payload) :=
  h.readers (mqttSubMatches · (cstr topic)) fun e => (e.2, topic, payload)

theorem Records.forEachActive (h : Records t log) : t.forEachActive = log.map Prod.fst := by
  simpa [FixedSubTable.forEachActive] using h.readers (fun _ => true) Prod.fst

end FixedSubTable

open FixedSubTable in
theorem records_step {CB : Type} {N : UInt8} {TOPIC_CAP : Nat} (s : Logged CB N TOPIC_CAP)
    (call : TableCall CB) (h : Records s.table s.log) :
    Records (logStep s call).table (logStep s call).log := by
  cases call with
  | reset => exact .reset s.table
  | add topic cb =>
      by_cases refuses : Refuses N TOPIC_CAP s.log topic
      · simpa [logStep, add_of_refuses h cb refuses] using h
      · obtain ⟨accepted, records⟩ := add_of_accepts h cb refuses
        simpa [logStep, accepted] using records

theorem records_start (CB : Type) [Inhabited CB] (N : UInt8) (TOPIC_CAP : Nat) :
    FixedSubTable.Records (.start CB N TOPIC_CAP) [] where
  count := rfl
  fits := Nat.zero_le _
  used := rfl

/-! ## The filters without their buffers -/

namespace FixedSubTable

variable {CB : Type} {N : UInt8}

/-- The table of filters that a table with buffers of `MQTT_TOPIC_CAP` stands for. A slot that was
never filled has no filter. -/
def view (t : FixedSubTable CB N MQTT_TOPIC_CAP) : MqttSubTable CB N.toNat where
  slots := fun i =>
    if cText (t.slots i).topic = [] then none
    else some ⟨cText (t.slots i).topic, (t.slots i).callback, (t.slots i).active⟩
  count := t.count.toNat

theorem view_start [Inhabited CB] :
    view (.start CB N MQTT_TOPIC_CAP) = MqttSubTable.empty := by
  simp [view, FixedSubTable.start, MqttSubTable.empty, cText_zeros]

theorem view_reset (t : FixedSubTable CB N MQTT_TOPIC_CAP) : t.reset.view = t.view.reset := by
  simp only [view, FixedSubTable.reset, MqttSubTable.reset, MqttSubTable.mk.injEq, UInt8.toNat_zero,
    and_true]
  funext i
  by_cases unused : cText (t.slots i).topic = [] <;> simp [unused]

/-- An add of a pointer is an add of the text it points to; the null pointer adds as the empty
text does. -/
theorem view_add (t : FixedSubTable CB N MQTT_TOPIC_CAP) (topic : Option Str) (cb : CB) :
    (t.add topic cb).1.view = (t.view.add (topic.elim [] cstr) cb).1 ∧
      (t.add topic cb).2 = (t.view.add (topic.elim [] cstr) cb).2 := by
  simp only [FixedSubTable.add, MqttSubTable.add]
  split
  · rename_i free
    split
    · rename_i refused
      simp [view, free]
    · rename_i accepted
      simp only [Bool.or_eq_true, decide_eq_true_eq, not_or, Nat.not_le] at accepted
      obtain ⟨some, short⟩ := accepted
      have read := cText_memcpy (t.slots ⟨t.count.toNat, free⟩).topic short
        (nul_notMem_pointed topic)
      have room : t.view.count < N.toNat := free
      rw [dif_pos room]
      refine ⟨?_, rfl⟩
      simp only [view, toNat_succ free, MqttSubTable.mk.injEq, and_true]
      funext i
      by_cases last : i = ⟨t.count.toNat, free⟩
      · subst last
        simp [read, some]
      · simp [last]
  · rename_i full
    simp [view, full]

theorem view_step (subscribes : CB → Str → Str → List (Str × CB))
    (s : Logged CB N MQTT_TOPIC_CAP) (call : TableCall CB) :
    (logStep s call).table.view = subStep subscribes s.table.view call.toSub := by
  cases call with
  | reset => exact view_reset s.table
  | add topic cb => exact (view_add s.table topic cb).1

/-- A run of the slots is the run of the filters. -/
theorem view_run [Inhabited CB] (subscribes : CB → Str → Str → List (Str × CB))
    (calls : List (TableCall CB)) :
    let s : Logged CB N MQTT_TOPIC_CAP := run logStep ⟨.start CB N MQTT_TOPIC_CAP, []⟩ calls
    s.table.view = run (subStep subscribes) .empty (calls.map TableCall.toSub) := by
  intro s
  have each (s : Logged CB N MQTT_TOPIC_CAP) :
      (run logStep s calls).table.view =
        run (subStep subscribes) s.table.view (calls.map TableCall.toSub) := by
    induction calls generalizing s with
    | nil => rfl
    | cons call calls ih =>
        rw [run_cons, List.map_cons, run_cons, ih, view_step subscribes]
  exact (each _).trans (by rw [view_start])

end FixedSubTable

open FixedSubTable in
/-- After any resets and adds the table is the log of the adds accepted since the last reset: its
count, its readers and its dispatch see those filters in order, each with its callback. An add is
refused exactly when the table is full or its topic is null, empty or too long for a slot, and
then nothing changes. -/
theorem sub_table_is_its_log {CB : Type} [Inhabited CB] (N : UInt8) (TOPIC_CAP : Nat)
    (calls : List (TableCall CB)) :
    let s : Logged CB N TOPIC_CAP := run logStep ⟨.start CB N TOPIC_CAP, []⟩ calls
    s.table.count.toNat = s.log.length ∧
      (∀ topic, s.table.isRegistered topic = true ↔ ∃ cb, (cstr topic, cb) ∈ s.log) ∧
      (∀ topic payload, s.table.dispatch topic payload =
        (s.log.filter fun e => mqttSubMatches e.1 (cstr topic)).map
          fun e => (e.2, topic, payload)) ∧
      s.table.forEachActive = s.log.map Prod.fst ∧
      ∀ topic cb, ((s.table.add topic cb).2 = false ↔ Refuses N TOPIC_CAP s.log topic) ∧
        ((s.table.add topic cb).2 = false → (s.table.add topic cb).1 = s.table) := by
  intro s
  have h : Records s.table s.log :=
    @run_invariant _ _ logStep (fun s => Records s.table s.log) records_step
      ⟨.start CB N TOPIC_CAP, []⟩ (records_start CB N TOPIC_CAP) calls
  refine ⟨h.count, h.isRegistered, h.dispatch, h.forEachActive, ?_⟩
  intro topic cb
  by_cases refuses : Refuses N TOPIC_CAP s.log topic
  · simp [add_of_refuses h cb refuses, refuses]
  · simp [(add_of_accepts h cb refuses).1, refuses]

/-- After a reset slot 0 is filled again, over a longer filter. -/
example : (run logStep (⟨.start Nat 2 8, []⟩ : Logged Nat 2 8)
    [.add (some "n/cli/#".toList) 1, .reset, .add (some "a".toList) 2]).table.dispatch
      "a".toList [] = [(2, "a".toList, [])] := by
  decide +kernel

end Thesada.Mqtt
