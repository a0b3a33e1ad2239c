import Thesada.Library.Machine
import Thesada.Library.Word32
import Thesada.Mqtt.Outbox

/-!
# The manifest of retained topics

`MQTTClient` keeps the topics it has published retained in a session, and publishes the list,
retained itself, to `<prefix>/info/retained_topics`. A connect starts an empty list and publishes
it once; a topic that comes later makes it dirty, and `loop` publishes it again.

`RetainedSession.now` counts milliseconds without a wrap, and `millis()` is its value modulo
`2 ^ 32`. The last four fields only record what happened: no step reads them.
-/

namespace Thesada.Mqtt

open CString

/-- What the client and the configuration answer to a publish of the manifest. -/
structure ManifestAnswer where
  connected : Bool
  topicPrefix : Str
  published : Bool

/-- `formatTopic(topic, sizeof(topic), "%s/info/retained_topics", prefix)`. -/
def ManifestAnswer.formatTopic (a : ManifestAnswer) : Option Str :=
  let topic := a.topicPrefix ++ "/info/retained_topics".toList
  if topic.length < MQTT_TOPIC_CAP then some topic else none

/-- A publish of the manifest would succeed. -/
def ManifestAnswer.succeeds (a : ManifestAnswer) : Bool :=
  a.connected && a.formatTopic.isSome && a.published

/-- A call of `publishRetained`, and whether the client is connected. -/
structure RetainedCall where
  topic : Str
  connected : Bool

/-- A turn of `MQTTClient::loop`: the retained publishes before and after the manifest's turn in
it, and the milliseconds that pass before each of the first two. -/
structure LoopTurn where
  wait : Nat
  early : List RetainedCall
  work : Nat
  answer : ManifestAnswer
  late : List RetainedCall

structure RetainedSession where
  now : Nat
  /-- `_retainedTopics` -/
  retainedTopics : List Str
  manifestPublished : Bool
  manifestDirty : Bool
  manifestDirtySinceMs : Nat
  /-- When the last new topic was recorded. -/
  lastNew : Option Nat
  /-- The topics the session has published retained. -/
  sent : List Str
  /-- The manifest the broker retains. -/
  retained : Option (List Str)
  /-- The topic of the manifest published last in the session. -/
  manifestTopic : Option Str

inductive RetainedEvent where
  | pass (ms : Nat)
  | publishRetained (call : RetainedCall)
  /-- From `publishRetainedSet`, by a connect or `config.reload`. -/
  | publishRetainedManifest (answer : ManifestAnswer)
  | loop (turn : LoopTurn)

namespace RetainedSession

/-- `connect` starts a session; the broker may retain a manifest of an earlier one. -/
def connect (now : Nat) (before : Option (List Str)) : RetainedSession where
  now := now
  retainedTopics := []
  manifestPublished := false
  manifestDirty := false
  manifestDirtySinceMs := 0
  lastNew := none
  sent := []
  retained := before
  manifestTopic := none

def millis (s : RetainedSession) : Nat := s.now % Word32.size

def pass (s : RetainedSession) (ms : Nat) : RetainedSession := { s with now := s.now + ms }

def recordRetainedTopic (s : RetainedSession) (topic : Str) : RetainedSession :=
  if topic = [] then s
  else if s.retainedTopics.contains topic then s
  else
    let s := { s with retainedTopics := s.retainedTopics ++ [topic], lastNew := some s.now }
    if s.manifestPublished then
      { s with manifestDirty := true, manifestDirtySinceMs := s.millis }
    else s

def publishRetained (s : RetainedSession) (call : RetainedCall) : RetainedSession :=
  if call.topic = [] then s
  else if !call.connected then s
  else { s with sent := call.topic :: s.sent }.recordRetainedTopic call.topic

def publishRetainedManifest (s : RetainedSession) (a : ManifestAnswer) : RetainedSession :=
  if !a.connected then s
  else
    match a.formatTopic with
    | none => s
    | some topic =>
        let s := s.recordRetainedTopic topic
        if !a.published then s
        else
          { s with
            manifestPublished := true
            manifestDirty := false
            manifestDirtySinceMs := 0
            retained := some s.retainedTopics
            manifestTopic := some topic }

def publishAll (s : RetainedSession) (calls : List RetainedCall) : RetainedSession :=
  calls.foldl publishRetained s

/-- The debounce of `loop`. -/
def manifestTurn (s : RetainedSession) (a : ManifestAnswer) : RetainedSession :=
  if s.manifestDirty && a.connected &&
      decide (5000 ≤ Word32.sub s.millis s.manifestDirtySinceMs) then
    s.publishRetainedManifest a
  else s

def loop (s : RetainedSession) (turn : LoopTurn) : RetainedSession :=
  ((((s.pass turn.wait).publishAll turn.early).pass turn.work).manifestTurn turn.answer).publishAll
    turn.late

def step (s : RetainedSession) : RetainedEvent → RetainedSession
  | .pass ms => s.pass ms
  | .publishRetained call => s.publishRetained call
  | .publishRetainedManifest a => s.publishRetainedManifest a
  | .loop turn => s.loop turn

/-- The manifest that the broker retains lists every topic the session has published retained,
and its own. -/
def Lists (s : RetainedSession) : Prop :=
  ∃ manifest topic, s.retained = some manifest ∧ s.manifestTopic = some topic ∧
    topic ∈ manifest ∧ ∀ other ∈ s.sent, other ∈ manifest

/-- After a turn that starts at least 5 s after the last new topic was recorded, and on which a
publish of the manifest would succeed, the retained manifest is complete. -/
def TurnLists (s : RetainedSession) : RetainedEvent → Prop
  | .loop turn =>
      turn.answer.succeeds = true →
        (∃ recorded ∈ (s.loop turn).lastNew, recorded + 5000 ≤ s.now) → (s.loop turn).Lists
  | _ => True

/-- Before a turn that starts 5 s after the last new topic, and on which a publish of the manifest
would succeed, one has succeeded in the session, and a dirty manifest does not wait for as long as
`millis()` takes to come round. -/
def Announced (s : RetainedSession) : RetainedEvent → Prop
  | .loop turn =>
      turn.answer.succeeds = true → ∀ recorded ∈ s.lastNew, recorded + 5000 ≤ s.now →
        s.manifestPublished = true ∧
          (s.manifestDirty = true → s.now + turn.wait + turn.work < recorded + Word32.size)
  | _ => True

/-! ## What each call keeps -/

/-- The topics published retained are recorded, a clean manifest is retained as it stands, and
a dirty one has the time of the last new topic. -/
structure Sound (s : RetainedSession) : Prop where
  sent : ∀ topic ∈ s.sent, topic ∈ s.retainedTopics
  recent : ∀ recorded, s.lastNew = some recorded → recorded ≤ s.now
  own : s.manifestPublished = true → ∃ topic, s.manifestTopic = some topic ∧
    topic ∈ s.retainedTopics
  clean : s.manifestPublished = true → s.manifestDirty = false →
    s.retained = some s.retainedTopics
  announced : s.manifestDirty = true → s.manifestPublished = true
  dirty : s.manifestDirty = true → ∃ recorded, s.lastNew = some recorded ∧
    s.manifestDirtySinceMs = recorded % Word32.size

theorem connect_sound (now : Nat) (before : Option (List Str)) : (connect now before).Sound where
  sent topic mem := by cases mem
  recent recorded same := by cases same
  own published := by cases published
  clean published := by cases published
  announced dirty := by cases dirty
  dirty dirty := by cases dirty

variable {s : RetainedSession}

/-- What recording a topic does: nothing, or a new topic at the end of the list, which makes a
published manifest dirty. -/
theorem record_cases (s : RetainedSession) (topic : Str) :
    s.recordRetainedTopic topic = s ∨
      (s.manifestPublished = true ∧ s.recordRetainedTopic topic = { s with
        retainedTopics := s.retainedTopics ++ [topic], lastNew := some s.now,
        manifestDirty := true, manifestDirtySinceMs := s.millis }) ∨
      (s.manifestPublished = false ∧ s.recordRetainedTopic topic = { s with
        retainedTopics := s.retainedTopics ++ [topic], lastNew := some s.now }) := by
  unfold recordRetainedTopic
  split
  · exact Or.inl rfl
  · split
    · exact Or.inl rfl
    · cases published : s.manifestPublished with
      | true => exact Or.inr (Or.inl ⟨rfl, rfl⟩)
      | false => exact Or.inr (Or.inr ⟨rfl, rfl⟩)

theorem mem_record (s : RetainedSession) {topic : Str} (some_topic : topic ≠ []) :
    topic ∈ (s.recordRetainedTopic topic).retainedTopics := by
  unfold recordRetainedTopic
  rw [if_neg some_topic]
  split
  · next listed => exact List.contains_iff_mem.mp listed
  · cases s.manifestPublished <;> exact List.mem_append_right _ (List.mem_singleton_self topic)

/-- The topics recorded before stay recorded. -/
theorem subset_record (s : RetainedSession) (topic : Str) :
    ∀ other ∈ s.retainedTopics, other ∈ (s.recordRetainedTopic topic).retainedTopics := by
  intro other mem
  obtain same | ⟨-, same⟩ | ⟨-, same⟩ := record_cases s topic
  · rw [same]
    exact mem
  · rw [same]
    exact List.mem_append_left _ mem
  · rw [same]
    exact List.mem_append_left _ mem

/-- Nothing in recording a topic looks at what was sent. -/
theorem record_sent (s : RetainedSession) (topic : Str) (sent : List Str) :
    { s with sent }.recordRetainedTopic topic = { s.recordRetainedTopic topic with sent } := by
  unfold recordRetainedTopic
  split
  · rfl
  · split
    · rfl
    · cases published : s.manifestPublished <;> rfl

theorem publishRetained_sent (s : RetainedSession) (call : RetainedCall) :
    (s.publishRetained call).sent =
      if call.topic = [] ∨ call.connected = false then s.sent else call.topic :: s.sent := by
  unfold publishRetained
  by_cases empty : call.topic = []
  · rw [if_pos empty, if_pos (Or.inl empty)]
  · rw [if_neg empty]
    cases connected : call.connected with
    | false => exact (if_pos (Or.inr rfl)).symm
    | true =>
        have sends : ¬(call.topic = [] ∨ true = false) := by simp [empty]
        rw [if_neg (by decide), record_sent, if_neg sends]

theorem publishAll_sent_mono (s : RetainedSession) (calls : List RetainedCall) :
    ∀ topic ∈ s.sent, topic ∈ (s.publishAll calls).sent := by
  induction calls generalizing s with
  | nil => exact fun topic mem => mem
  | cons call calls ih =>
      intro topic mem
      apply ih (s.publishRetained call)
      rw [publishRetained_sent]
      split
      · exact mem
      · exact List.mem_cons_of_mem _ mem

theorem mem_publishAll_sent {calls : List RetainedCall} {call : RetainedCall} (mem : call ∈ calls)
    (connected : call.connected = true) (some_topic : call.topic ≠ []) :
    call.topic ∈ (s.publishAll calls).sent := by
  induction calls generalizing s with
  | nil => exact absurd mem List.not_mem_nil
  | cons first calls ih =>
      obtain rfl | later := List.mem_cons.mp mem
      · apply publishAll_sent_mono (s.publishRetained call) calls
        rw [publishRetained_sent, if_neg (by simp [some_topic, connected])]
        exact List.mem_cons_self
      · exact ih later

theorem formatTopic_ne_nil {a : ManifestAnswer} {topic : Str} (fits : a.formatTopic = some topic) :
    topic ≠ [] := by
  unfold ManifestAnswer.formatTopic at fits
  simp only at fits
  split at fits
  · cases fits
    exact List.append_ne_nil_of_right_ne_nil _ (by decide)
  · cases fits

namespace Sound

theorem pass (h : s.Sound) (ms : Nat) : (s.pass ms).Sound :=
  { h with recent := fun recorded same => Nat.le_add_right_of_le (h.recent recorded same) }

theorem record (h : s.Sound) (topic : Str) : (s.recordRetainedTopic topic).Sound := by
  have listed := subset_record s topic
  have recent : ∀ recorded, some s.now = some recorded → recorded ≤ s.now := by
    intro recorded same
    cases same
    exact Nat.le_refl _
  obtain same | ⟨published, same⟩ | ⟨published, same⟩ := record_cases s topic
  · rw [same]
    exact h
  · rw [same] at listed ⊢
    obtain ⟨own, at_own, mem⟩ := h.own published
    exact {
      sent := fun other mem => listed other (h.sent other mem)
      recent := recent
      own := fun _ => ⟨own, at_own, listed own mem⟩
      clean := fun _ clean => by cases clean
      announced := fun _ => published
      dirty := fun _ => ⟨s.now, rfl, rfl⟩ }
  · have clean : s.manifestDirty = false := by
      by_contra dirty
      rw [h.announced (by simpa using dirty)] at published
      cases published
    rw [same] at listed ⊢
    exact {
      sent := fun other mem => listed other (h.sent other mem)
      recent := recent
      own := fun held => by cases published.symm.trans held
      clean := fun held => by cases published.symm.trans held
      announced := fun dirty => by cases clean.symm.trans dirty
      dirty := fun dirty => by cases clean.symm.trans dirty }

theorem publishRetained (h : s.Sound) (call : RetainedCall) : (s.publishRetained call).Sound := by
  unfold RetainedSession.publishRetained
  split
  · exact h
  · next some_topic =>
      split
      · exact h
      · rw [record_sent]
        refine { h.record call.topic with sent := ?_ }
        intro other mem
        rcases List.mem_cons.mp mem with rfl | mem
        · exact mem_record s some_topic
        · exact subset_record s call.topic other (h.sent other mem)

/-- A publish of the manifest that succeeds leaves it clean. -/
theorem publishRetainedManifest (h : s.Sound) (a : ManifestAnswer) :
    (s.publishRetainedManifest a).Sound := by
  unfold RetainedSession.publishRetainedManifest
  split
  · exact h
  · split
    · exact h
    · next topic fits =>
        simp only
        split
        · exact h.record topic
        · exact {
            sent := (h.record topic).sent
            recent := (h.record topic).recent
            own := fun _ => ⟨topic, rfl, mem_record s (formatTopic_ne_nil fits)⟩
            clean := fun _ _ => rfl
            announced := fun dirty => by cases dirty
            dirty := fun dirty => by cases dirty }

theorem publishAll (h : s.Sound) (calls : List RetainedCall) : (s.publishAll calls).Sound := by
  induction calls generalizing s with
  | nil => exact h
  | cons call calls ih => exact ih (h.publishRetained call)

theorem manifestTurn (h : s.Sound) (a : ManifestAnswer) : (s.manifestTurn a).Sound := by
  unfold RetainedSession.manifestTurn
  split
  · exact h.publishRetainedManifest a
  · exact h

theorem loop (h : s.Sound) (turn : LoopTurn) : (s.loop turn).Sound :=
  ((((h.pass turn.wait).publishAll turn.early).pass turn.work).manifestTurn turn.answer).publishAll
    turn.late

theorem step (h : s.Sound) (e : RetainedEvent) : (s.step e).Sound := by
  cases e with
  | pass ms => exact h.pass ms
  | publishRetained call => exact h.publishRetained call
  | publishRetainedManifest a => exact h.publishRetainedManifest a
  | loop turn => exact h.loop turn

end Sound

/-! ## A turn without a new topic -/

/-- Only what was sent differs. -/
def Quiet (s s' : RetainedSession) : Prop := s' = { s with sent := s'.sent }

/-- Recording takes no time, and a topic that is new is the last new one. -/
theorem record_quiet (s : RetainedSession) (topic : Str) :
    (s.recordRetainedTopic topic).now = s.now ∧
      (s.recordRetainedTopic topic = s ∨ (s.recordRetainedTopic topic).lastNew = some s.now) := by
  obtain same | ⟨-, same⟩ | ⟨-, same⟩ := record_cases s topic
  · rw [same]
    exact ⟨rfl, Or.inl rfl⟩
  · rw [same]
    exact ⟨rfl, Or.inr rfl⟩
  · rw [same]
    exact ⟨rfl, Or.inr rfl⟩

theorem publishRetained_quiet (s : RetainedSession) (call : RetainedCall) :
    (s.publishRetained call).now = s.now ∧
      (Quiet s (s.publishRetained call) ∨ (s.publishRetained call).lastNew = some s.now) := by
  unfold publishRetained
  split
  · exact ⟨rfl, Or.inl rfl⟩
  · split
    · exact ⟨rfl, Or.inl rfl⟩
    · rw [record_sent]
      obtain ⟨now, same | new⟩ := record_quiet s call.topic
      · rw [same]
        exact ⟨rfl, Or.inl rfl⟩
      · exact ⟨now, Or.inr new⟩

/-- Calls of `publishRetained` record no new topic, or record one now. -/
theorem publishAll_quiet (s : RetainedSession) (calls : List RetainedCall) :
    (s.publishAll calls).now = s.now ∧
      (Quiet s (s.publishAll calls) ∨ (s.publishAll calls).lastNew = some s.now) := by
  induction calls generalizing s with
  | nil => exact ⟨rfl, Or.inl rfl⟩
  | cons call calls ih =>
      obtain ⟨first_now, first⟩ := publishRetained_quiet s call
      obtain ⟨rest_now, rest⟩ := ih (s.publishRetained call)
      change (s.publishAll (call :: calls)).now = (s.publishRetained call).now at rest_now
      refine ⟨rest_now.trans first_now, ?_⟩
      rcases rest with quiet | new
      · rcases first with quiet' | new'
        · left
          show s.publishAll (call :: calls) = _
          change s.publishAll (call :: calls) = { s.publishRetained call with
            sent := (s.publishAll (call :: calls)).sent } at quiet
          rw [quiet, quiet']
        · right
          change s.publishAll (call :: calls) = { s.publishRetained call with
            sent := (s.publishAll (call :: calls)).sent } at quiet
          rw [quiet]
          exact new'
      · right
        rw [← first_now]
        exact new

/-- The manifest's own topic can be new. -/
theorem publishRetainedManifest_quiet (s : RetainedSession) (a : ManifestAnswer) :
    (s.publishRetainedManifest a).now = s.now ∧
      ((s.publishRetainedManifest a).lastNew = s.lastNew ∨
        (s.publishRetainedManifest a).lastNew = some s.now) := by
  unfold publishRetainedManifest
  split
  · exact ⟨rfl, Or.inl rfl⟩
  · split
    · exact ⟨rfl, Or.inl rfl⟩
    · next topic fits =>
        have recorded : (s.recordRetainedTopic topic).now = s.now ∧
            ((s.recordRetainedTopic topic).lastNew = s.lastNew ∨
              (s.recordRetainedTopic topic).lastNew = some s.now) := by
          obtain ⟨now, same | new⟩ := record_quiet s topic
          · exact ⟨now, Or.inl (by rw [same])⟩
          · exact ⟨now, Or.inr new⟩
        simp only
        split
        · exact recorded
        · exact recorded

theorem manifestTurn_quiet (s : RetainedSession) (a : ManifestAnswer) :
    (s.manifestTurn a).now = s.now ∧
      ((s.manifestTurn a).lastNew = s.lastNew ∨ (s.manifestTurn a).lastNew = some s.now) := by
  unfold manifestTurn
  split
  · exact publishRetainedManifest_quiet s a
  · exact ⟨rfl, Or.inl rfl⟩

/-- The whole list is retained, and the session has published it. -/
def Complete (s : RetainedSession) : Prop :=
  s.manifestPublished = true ∧ s.retained = some s.retainedTopics

theorem publishRetainedManifest_complete {a : ManifestAnswer} (succeeds : a.succeeds = true) :
    (s.publishRetainedManifest a).Complete := by
  simp only [ManifestAnswer.succeeds, Bool.and_eq_true, Option.isSome_iff_exists] at succeeds
  obtain ⟨⟨connected, topic, fits⟩, published⟩ := succeeds
  unfold publishRetainedManifest
  simp only [connected, fits, published]
  exact ⟨rfl, rfl⟩

theorem Sound.lists (h : s.Sound) (complete : s.Complete) : s.Lists := by
  obtain ⟨topic, own, mem⟩ := h.own complete.1
  exact ⟨s.retainedTopics, topic, complete.2, own, mem, h.sent⟩

/-- Five seconds after the last new topic the manifest is clean, or its debounce is over. -/
theorem Sound.turn_complete (h : s.Sound) {a : ManifestAnswer} (succeeds : a.succeeds = true)
    (published : s.manifestPublished = true) {recorded : Nat} (last : s.lastNew = some recorded)
    (waited : recorded + 5000 ≤ s.now)
    (soon : s.manifestDirty = true → s.now < recorded + Word32.size) :
    (s.manifestTurn a).Complete := by
  have connected : a.connected = true := by
    simp only [ManifestAnswer.succeeds, Bool.and_eq_true] at succeeds
    exact succeeds.1.1
  cases dirty : s.manifestDirty with
  | false =>
      have idle : s.manifestTurn a = s := by simp [RetainedSession.manifestTurn, dirty]
      rw [idle]
      exact ⟨published, h.clean published dirty⟩
  | true =>
      obtain ⟨stamped, same, since⟩ := h.dirty dirty
      cases last.symm.trans same
      have within : s.now - recorded < Word32.size := by
        have bound := soon dirty
        omega
      have elapsed : Word32.sub s.millis s.manifestDirtySinceMs = s.now - recorded := by
        rw [since]
        exact Word32.sub_mod_mod (by omega) within
      have fires : s.manifestTurn a = s.publishRetainedManifest a := by
        have due : 5000 ≤ s.now - recorded := by omega
        simp [RetainedSession.manifestTurn, dirty, connected, elapsed, due]
      rw [fires]
      exact publishRetainedManifest_complete succeeds

theorem Sound.turn_lists (h : s.Sound) {turn : LoopTurn} (announced : s.Announced (.loop turn)) :
    s.TurnLists (.loop turn) := by
  rintro succeeds ⟨recorded, last, waited⟩
  let start := s.pass turn.wait
  let early := start.publishAll turn.early
  let waiting := early.pass turn.work
  let checked := waiting.manifestTurn turn.answer
  change (checked.publishAll turn.late).lastNew = some recorded at last
  show (checked.publishAll turn.late).Lists
  obtain ⟨early_now, early_new⟩ := publishAll_quiet start turn.early
  obtain ⟨checked_now, checked_new⟩ := manifestTurn_quiet waiting turn.answer
  obtain ⟨-, late_new⟩ := publishAll_quiet checked turn.late
  have start_now : start.now = s.now + turn.wait := rfl
  have waiting_now : waiting.now = s.now + turn.wait + turn.work := by
    show early.now + turn.work = _
    rw [early_now, start_now]
  -- A topic recorded in this turn would be newer than its start.
  have late : Quiet checked (checked.publishAll turn.late) := by
    rcases late_new with quiet | new
    · exact quiet
    · have same : checked.now = recorded := Option.some.inj (new.symm.trans last)
      rw [checked_now, waiting_now] at same
      omega
  have checked_last : checked.lastNew = some recorded := by
    rw [late] at last
    exact last
  have waiting_last : waiting.lastNew = some recorded := by
    rcases checked_new with same | new
    · exact same.symm.trans checked_last
    · have same : waiting.now = recorded := Option.some.inj (new.symm.trans checked_last)
      rw [waiting_now] at same
      omega
  have quiet : Quiet start early := by
    rcases early_new with quiet | new
    · exact quiet
    · have same : start.now = recorded := Option.some.inj (new.symm.trans waiting_last)
      rw [start_now] at same
      omega
  have waiting_sound : waiting.Sound := ((h.pass turn.wait).publishAll turn.early).pass turn.work
  have kept : waiting.manifestPublished = s.manifestPublished ∧
      waiting.manifestDirty = s.manifestDirty ∧ waiting.lastNew = s.lastNew := by
    have same : waiting = ({ start with sent := early.sent } : RetainedSession).pass turn.work :=
      congrArg (fun t => t.pass turn.work) quiet
    rw [same]
    exact ⟨rfl, rfl, rfl⟩
  have start_last : s.lastNew = some recorded := kept.2.2.symm.trans waiting_last
  obtain ⟨published, soon⟩ := announced succeeds recorded start_last waited
  have complete : checked.Complete := by
    apply waiting_sound.turn_complete succeeds (kept.1.trans published) waiting_last
    · rw [waiting_now]
      omega
    · intro dirty
      rw [waiting_now]
      exact soon (kept.2.1.symm.trans dirty)
  apply ((waiting_sound.manifestTurn turn.answer).publishAll turn.late).lists
  rw [late]
  exact complete

/-- In every session in which a publish of the manifest has succeeded before each such turn of the
loop, each turn that starts 5 s after the last new topic leaves the manifest complete. -/
theorem turns_list (now : Nat) (before : Option (List Str)) (es : List RetainedEvent)
    (announced : Machine.Meets step Announced (connect now before) es) :
    Machine.Meets step TurnLists (connect now before) es := by
  refine announced.yields (fun s e h ok => ⟨h.step e, ?_⟩) (connect_sound now before)
  cases e with
  | loop turn => exact h.turn_lists ok
  | pass ms => trivial
  | publishRetained call => trivial
  | publishRetainedManifest a => trivial

instance (s : RetainedSession) : ∀ e, Decidable (s.Announced e)
  | .loop _ => inferInstanceAs (Decidable (_ → ∀ recorded ∈ s.lastNew, _ → _ ∧ (_ → _ < _)))
  | .pass _ => isTrue trivial
  | .publishRetained _ => isTrue trivial
  | .publishRetainedManifest _ => isTrue trivial

/-- The answers of a node with the prefix "n" on a live connection. -/
def liveAnswer (published : Bool) : ManifestAnswer := ⟨true, "n".toList, published⟩

/-- A topic that comes after the connect is in the manifest six seconds later. -/
theorem turns_list_late : Machine.Meets step TurnLists (connect 0 none)
    [.publishRetained ⟨"n/status".toList, true⟩, .publishRetainedManifest (liveAnswer true),
      .publishRetained ⟨"n/late".toList, true⟩, .pass 6000,
      .loop ⟨0, [], 0, liveAnswer true, []⟩] :=
  turns_list 0 none _ (by decide +kernel)

/-- The publish of the manifest at the connect fails, and no later turn publishes it. -/
theorem manifest_never_published :
    ¬∀ (now : Nat) (before : Option (List Str)) (es : List RetainedEvent),
      Machine.Meets step TurnLists (connect now before) es := by
  intro all
  obtain ⟨-, -, -, last, -⟩ := all 0 none [.publishRetained ⟨"n/status".toList, true⟩,
    .publishRetainedManifest (liveAnswer false), .pass 6000,
    .loop ⟨0, [], 0, liveAnswer true, []⟩]
  obtain ⟨manifest, topic, retained, -⟩ := last (by decide +kernel) ⟨0, rfl, by decide⟩
  cases retained

end RetainedSession

end Thesada.Mqtt
