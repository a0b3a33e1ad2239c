import Thesada.Library.CString
import Thesada.Library.Machine
import Thesada.Library.RingBuffer
import Thesada.Library.Word32

/-!
# The offline queue

`MQTTClient` keeps what it cannot publish now in a ring of eight slots. `publish` and
`publishNow` put messages in, `loop` takes one at a time out, a reconnect flushes the ring
and a handoff to the modem link empties it.

Each call is one event, and whether the client is connected and takes a publish is part of
the event. The notes are kept for statements: what was accepted, what was handed to the
client with its answer, and what was dropped.
-/

namespace Thesada.Mqtt

open CString

def MQTT_QUEUE_SIZE : Nat := 8
def MQTT_TOPIC_CAP : Nat := 160
def MQTT_PAYLOAD_CAP : Nat := 256

structure MQTTMessage where
  topic : Str
  payload : Str
  deriving DecidableEq

inductive QueueNote where
  | accepted (msg : MQTTMessage)
  /-- A publish of the head message and the client's answer. -/
  | handed (msg : MQTTMessage) (ok : Bool)
  /-- The full queue dropped its oldest entry. -/
  | overflow (msg : MQTTMessage)
  /-- The handoff to the modem dropped the whole queue. -/
  | handoff (msg : MQTTMessage)
  deriving DecidableEq

structure Outbox where
  queue : RingBuffer MQTTMessage
  lastPublishMs : Nat
  minIntervalMs : Nat
  cellularActive : Bool
  notes : List QueueNote

namespace Outbox

def note (o : Outbox) (entries : List QueueNote) : Outbox := { o with notes := o.notes ++ entries }

/-- The message in the head slot. -/
def headMessage (o : Outbox) : MQTTMessage := (o.queue.slot o.queue.head).value

def headValid (o : Outbox) : Bool := (o.queue.slot o.queue.head).valid

/-- A full queue gives its oldest entry up; the slot is overwritten by the message put in. -/
def dropOldest (o : Outbox) : Outbox :=
  if o.queue.count = MQTT_QUEUE_SIZE then
    { o.note [.overflow o.headMessage] with queue := o.queue.skip MQTT_QUEUE_SIZE }
  else o

/-- A message that does not fit its slot is refused, never clipped. -/
def enqueue (o : Outbox) (topic payload : Str) : Outbox :=
  if MQTT_TOPIC_CAP ≤ topic.length ∨ MQTT_PAYLOAD_CAP ≤ payload.length then o
  else
    let o := o.dropOldest
    { o.note [.accepted { topic, payload }] with
      queue := o.queue.push MQTT_QUEUE_SIZE { topic, payload } }

/-- Inside the send interval a message waits in the queue. -/
def publish (o : Outbox) (connected : Bool) (now : Nat) (topic payload : Str) : Outbox :=
  if topic = [] then o
  else if !connected then o.enqueue topic payload
  else if 0 < o.minIntervalMs then
    if Word32.sub now o.lastPublishMs < o.minIntervalMs then o.enqueue topic payload
    else { o with lastPublishMs := now }
  else o

def publishNow (o : Outbox) (connected : Bool) (topic payload : Str) : Outbox :=
  if topic = [] then o else if !connected then o.enqueue topic payload else o

/-- The drain of `loop` on a live session: one message a turn, kept when the client refuses
it. -/
def drain (o : Outbox) (now : Nat) (ok : Bool) : Outbox :=
  if o.queue.count = 0 then o
  else if o.minIntervalMs = 0 ∨ o.minIntervalMs ≤ Word32.sub now o.lastPublishMs then
    if !o.headValid then o
    else if ok then
      { o.note [.handed o.headMessage true] with
        queue := o.queue.pop MQTT_QUEUE_SIZE, lastPublishMs := now }
    else o.note [.handed o.headMessage false]
  else o

/-- One turn of the flush, which does not look at the client's answer. -/
def flushOne (o : Outbox) (ok : Bool) : Outbox :=
  if o.headValid then
    { o.note [.handed o.headMessage ok] with queue := o.queue.pop MQTT_QUEUE_SIZE }
  else { o with queue := o.queue.skip MQTT_QUEUE_SIZE }

def flushTurns : Nat → (Nat → Bool) → Outbox → Outbox
  | 0, _, o => o
  | turns + 1, ok, o =>
      if o.queue.count = 0 then o
      else flushTurns turns (fun i => ok (i + 1)) (o.flushOne (ok 0))

/-- The flush of a reconnect. Each turn takes one from the count. -/
def flushQueue (o : Outbox) (ok : Nat → Bool) : Outbox := flushTurns o.queue.count ok o

def emptyQueue : RingBuffer MQTTMessage where
  slot := fun _ => { value := { topic := [], payload := [] }, valid := false }
  head := 0
  tail := 0
  count := 0

def unmarkAll (q : RingBuffer MQTTMessage) : RingBuffer MQTTMessage where
  slot := fun i =>
    if i < MQTT_QUEUE_SIZE then { value := (q.slot i).value, valid := false } else q.slot i
  head := 0
  tail := 0
  count := 0

/-- Samples buffered during the WiFi outage are stale on the modem link. -/
def setCellularTransport (o : Outbox) (active : Bool) : Outbox :=
  if active = o.cellularActive then o
  else if active ∧ 0 < o.queue.count then
    { o.note ((o.queue.items MQTT_QUEUE_SIZE).map .handoff) with
      queue := unmarkAll o.queue, cellularActive := active }
  else { o with cellularActive := active }

/-- The outbox of a boot. -/
def fresh : Outbox where
  queue := emptyQueue
  lastPublishMs := 0
  minIntervalMs := 0
  cellularActive := false
  notes := []

end Outbox

inductive OutboxEvent where
  /-- `begin` reads `mqtt.send_interval_s`. -/
  | interval (ms : Nat)
  | publish (connected : Bool) (now : Nat) (topic payload : Str)
  | publishNow (connected : Bool) (topic payload : Str)
  | enqueue (topic payload : Str)
  | loopDrain (now : Nat) (ok : Bool)
  /-- A connect that succeeded flushes; `ok` is the answer to each publish. -/
  | reconnect (ok : Nat → Bool)
  | setCellularTransport (active : Bool)

def outboxStep (o : Outbox) : OutboxEvent → Outbox
  | .interval ms => { o with minIntervalMs := ms }
  | .publish connected now topic payload => o.publish connected now topic payload
  | .publishNow connected topic payload => o.publishNow connected topic payload
  | .enqueue topic payload => o.enqueue topic payload
  | .loopDrain now ok => o.drain now ok
  | .reconnect ok => o.flushQueue ok
  | .setCellularTransport active => o.setCellularTransport active

/-! ## What the notes account for -/

def acceptedOf (notes : List QueueNote) : List MQTTMessage :=
  notes.filterMap fun
    | .accepted msg => some msg
    | _ => none

/-- Messages that left the queue the ways they may: the client took them, the full queue gave
them up, or the handoff did. In the order they left. -/
def settledOf (notes : List QueueNote) : List MQTTMessage :=
  notes.filterMap fun
    | .handed msg true => some msg
    | .overflow msg => some msg
    | .handoff msg => some msg
    | _ => none

/-- The queue holds what was accepted and has not settled, in order. -/
def Accounted (o : Outbox) : Prop :=
  acceptedOf o.notes = settledOf o.notes ++ o.queue.items MQTT_QUEUE_SIZE

/-- A reconnect whose publishes are all taken. -/
def FlushSends (o : Outbox) : OutboxEvent → Prop
  | .reconnect ok => ∀ i < o.queue.count, ok i = true
  | _ => True

/-! ## One call -/

namespace Outbox

@[simp] theorem note_queue (o : Outbox) (entries : List QueueNote) :
    (o.note entries).queue = o.queue := rfl

@[simp] theorem note_notes (o : Outbox) (entries : List QueueNote) :
    (o.note entries).notes = o.notes ++ entries := rfl

@[simp] theorem acceptedOf_append (as bs : List QueueNote) :
    acceptedOf (as ++ bs) = acceptedOf as ++ acceptedOf bs := List.filterMap_append

@[simp] theorem settledOf_append (as bs : List QueueNote) :
    settledOf (as ++ bs) = settledOf as ++ settledOf bs := List.filterMap_append

theorem acceptedOf_handoff (msgs : List MQTTMessage) :
    acceptedOf (msgs.map .handoff) = [] := by
  induction msgs with
  | nil => rfl
  | cons msg msgs ih => simp [acceptedOf]

theorem settledOf_handoff (msgs : List MQTTMessage) :
    settledOf (msgs.map .handoff) = msgs := by
  induction msgs with
  | nil => rfl
  | cons msg msgs ih => simp [settledOf]

/-- The layout every call keeps. -/
def Laid (o : Outbox) : Prop := o.queue.Laid MQTT_QUEUE_SIZE

theorem head_marked {o : Outbox} (laid : o.Laid) (some : 0 < o.queue.count) :
    o.headValid = true := by
  have size : 0 < MQTT_QUEUE_SIZE := by decide
  have marked := laid.valid 0 size
  rw [RingBuffer.place_zero laid.head_lt] at marked
  rw [headValid, marked, decide_eq_true some]

/-- A message that fits goes to the back, past the oldest when the queue is full. -/
theorem enqueue_keeps {o : Outbox} (laid : o.Laid) (topic payload : Str) :
    (o.enqueue topic payload).Laid ∧ (Accounted o → Accounted (o.enqueue topic payload)) := by
  have size : 0 < MQTT_QUEUE_SIZE := by decide
  simp only [enqueue]
  split
  · exact ⟨laid, id⟩
  · by_cases full : o.queue.count = MQTT_QUEUE_SIZE
    · obtain ⟨items, laid'⟩ := RingBuffer.skip_push_items laid full { topic, payload }
      have oldest := RingBuffer.items_skip laid.head_lt (full ▸ size)
      simp only [dropOldest, full, if_true]
      refine ⟨laid', fun accounted => ?_⟩
      simp only [Accounted, note_notes, acceptedOf_append, settledOf_append] at accounted ⊢
      rw [items, accounted, oldest]
      simp [acceptedOf, settledOf, headMessage]
    · have room : o.queue.count < MQTT_QUEUE_SIZE := Nat.lt_of_le_of_ne laid.count_le full
      simp only [dropOldest, full, if_false]
      refine ⟨RingBuffer.push_laid laid room _, fun accounted => ?_⟩
      simp only [Accounted, note_notes, acceptedOf_append, settledOf_append] at accounted ⊢
      rw [RingBuffer.push_items laid room, accounted]
      simp [acceptedOf, settledOf]

/-- Handing the head message over and unmarking it. -/
theorem pop_keeps {o : Outbox} (laid : o.Laid) (some : 0 < o.queue.count) (ok : Bool) (last : Nat) :
    let next : Outbox :=
      { o.note [.handed o.headMessage ok] with
        queue := o.queue.pop MQTT_QUEUE_SIZE, lastPublishMs := last }
    next.Laid ∧ (ok = true → Accounted o → Accounted next) := by
  obtain ⟨laid', items⟩ := RingBuffer.pop_laid laid some
  refine ⟨laid', ?_⟩
  rintro rfl accounted
  simp only [Accounted, note_notes, acceptedOf_append, settledOf_append] at accounted ⊢
  rw [accounted, items]
  simp [acceptedOf, settledOf, headMessage]

theorem drain_keeps {o : Outbox} (laid : o.Laid) (now : Nat) (ok : Bool) :
    (o.drain now ok).Laid ∧ (Accounted o → Accounted (o.drain now ok)) := by
  simp only [drain]
  split_ifs with empty due unmarked taken
  · exact ⟨laid, id⟩
  · exact ⟨laid, id⟩
  · obtain ⟨laid', accounted⟩ := pop_keeps laid (Nat.pos_of_ne_zero empty) true now
    exact ⟨laid', accounted rfl⟩
  · -- a refused publish leaves the message where it was
    refine ⟨laid, fun accounted => ?_⟩
    simp only [Accounted, note_queue, note_notes, acceptedOf_append, settledOf_append] at accounted ⊢
    rw [accounted]
    simp [acceptedOf, settledOf]
  · exact ⟨laid, id⟩

theorem flushOne_keeps {o : Outbox} (laid : o.Laid) (some : 0 < o.queue.count) (ok : Bool) :
    (o.flushOne ok).Laid ∧ (ok = true → Accounted o → Accounted (o.flushOne ok)) ∧
      (o.flushOne ok).queue.count = o.queue.count - 1 := by
  obtain ⟨laid', accounted⟩ := pop_keeps laid some ok o.lastPublishMs
  simp only [flushOne, head_marked laid some, if_true]
  exact ⟨laid', accounted, rfl⟩

/-- The flush takes every message out, and loses none when the client takes them all. -/
theorem flushTurns_keeps {turns : Nat} {o : Outbox} (ok : Nat → Bool) (laid : o.Laid)
    (enough : o.queue.count ≤ turns) :
    (flushTurns turns ok o).Laid ∧ (flushTurns turns ok o).queue.count = 0 ∧
      ((∀ i < o.queue.count, ok i = true) → Accounted o → Accounted (flushTurns turns ok o)) := by
  induction turns generalizing o ok with
  | zero => exact ⟨laid, Nat.le_zero.mp enough, fun _ => id⟩
  | succ turns ih =>
      simp only [flushTurns]
      split
      · rename_i empty
        exact ⟨laid, empty, fun _ => id⟩
      · rename_i nonempty
        have some : 0 < o.queue.count := Nat.pos_of_ne_zero nonempty
        obtain ⟨laid', accounted, count⟩ := flushOne_keeps laid some (ok 0)
        obtain ⟨last, empty, rest⟩ := ih (fun i => ok (i + 1)) laid' (by omega)
        refine ⟨last, empty, fun sends start => ?_⟩
        refine rest (fun i hi => sends (i + 1) (by omega)) (accounted (sends 0 some) start)

theorem setCellularTransport_keeps {o : Outbox} (laid : o.Laid) (active : Bool) :
    (o.setCellularTransport active).Laid ∧
      (Accounted o → Accounted (o.setCellularTransport active)) := by
  have size : 0 < MQTT_QUEUE_SIZE := by decide
  simp only [setCellularTransport]
  split_ifs
  · exact ⟨laid, id⟩
  · refine ⟨⟨size, Nat.zero_le _, rfl, ?_⟩, fun accounted => ?_⟩
    · intro i hi
      change (if _ then _ else _ : RingSlot MQTTMessage).valid = _
      rw [if_pos (RingBuffer.place_lt size i)]
      rfl
    · simp only [Accounted, note_notes, acceptedOf_append, settledOf_append, acceptedOf_handoff,
        settledOf_handoff] at accounted ⊢
      rw [accounted]
      simp [RingBuffer.items, unmarkAll]
  · exact ⟨laid, id⟩

end Outbox

/-! ## Every run -/

/-- One event keeps the layout, and the account unless a flush publish is refused. -/
theorem outboxStep_keeps {o : Outbox} (laid : o.Laid) (e : OutboxEvent) :
    (outboxStep o e).Laid ∧ (FlushSends o e → Accounted o → Accounted (outboxStep o e)) := by
  have queued (topic payload : Str) := Outbox.enqueue_keeps laid topic payload
  cases e with
  | interval ms => exact ⟨laid, fun _ => id⟩
  | publish connected now topic payload =>
      simp only [outboxStep, Outbox.publish]
      split_ifs
      · exact ⟨laid, fun _ => id⟩
      · exact ⟨(queued topic payload).1, fun _ => (queued topic payload).2⟩
      · exact ⟨(queued topic payload).1, fun _ => (queued topic payload).2⟩
      · exact ⟨laid, fun _ => id⟩
      · exact ⟨laid, fun _ => id⟩
  | publishNow connected topic payload =>
      simp only [outboxStep, Outbox.publishNow]
      split_ifs
      · exact ⟨laid, fun _ => id⟩
      · exact ⟨(queued topic payload).1, fun _ => (queued topic payload).2⟩
      · exact ⟨laid, fun _ => id⟩
  | enqueue topic payload => exact ⟨(queued topic payload).1, fun _ => (queued topic payload).2⟩
  | loopDrain now ok =>
      have drained := Outbox.drain_keeps laid now ok
      exact ⟨drained.1, fun _ => drained.2⟩
  | reconnect ok =>
      obtain ⟨laid', -, accounted⟩ := Outbox.flushTurns_keeps ok laid le_rfl
      exact ⟨laid', accounted⟩
  | setCellularTransport active =>
      have handed := Outbox.setCellularTransport_keeps laid active
      exact ⟨handed.1, fun _ => handed.2⟩

theorem fresh_laid : Outbox.fresh.Laid := by
  refine ⟨by decide, Nat.zero_le _, rfl, ?_⟩
  intro i _
  simp [Outbox.fresh, Outbox.emptyQueue]

/-- An outage with nine alerts and a reconnect. -/
def outage : List OutboxEvent :=
  (List.range 9).map (fun i => .publish false i "n/alert".toList [Char.ofNat (48 + i)]) ++
    [.reconnect fun _ => true]

end Thesada.Mqtt
