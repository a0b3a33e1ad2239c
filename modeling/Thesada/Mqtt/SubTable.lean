import Mathlib.Data.Fintype.Basic
import Thesada.Library.TopicFilter
import Thesada.Mqtt.Outbox

/-!
# The MQTT subscription table

Fixed slots, filled in order. A slot's filter matches a topic when the two are equal, or when it
ends in `/#` or `/+` and the topic goes on from there. Other wildcards are compared as they are
spelled, so they match no topic.

A callback may subscribe while a message is dispatched; the loop reads the count again for each
slot, so a filter that is added on the way is served as well.
-/

namespace Thesada.Mqtt

open CString Machine MqttTopic

/-- `strncmp(a, b, n) == 0`. -/
def strneq (a b : Str) (n : Nat) : Bool := a.take n = b.take n

/-- `sub[slen - 2]` and `sub[slen - 1]`. -/
def endsIn (s : Str) (a b : Char) : Bool :=
  2 ≤ s.length && s[s.length - 1]? = some b && s[s.length - 2]? = some a

def mqttSubMatches (sub topic : Str) : Bool :=
  let slen := sub.length
  if endsIn sub '/' '#' then strneq sub topic (slen - 1)
  else if endsIn sub '/' '+' then
    if !strneq sub topic (slen - 1) then false
    else
      let rest := topic.drop (slen - 1)
      rest ≠ [] && '/' ∉ rest
  else sub = topic

structure Slot (CB : Type) where
  topic : Str
  callback : CB
  active : Bool

/-- The slots that were ever filled, and how many are in use. -/
structure MqttSubTable (CB : Type) (N : Nat) where
  slots : Fin N → Option (Slot CB)
  count : Nat

namespace MqttSubTable

variable {CB : Type} {N : Nat}

def empty : MqttSubTable CB N := ⟨fun _ => none, 0⟩

def reset (t : MqttSubTable CB N) : MqttSubTable CB N where
  slots := fun i => (t.slots i).map fun s => { s with active := false }
  count := 0

/-- No change when the table is full, or the topic is empty or does not fit a slot. -/
def add (t : MqttSubTable CB N) (topic : Str) (cb : CB) : MqttSubTable CB N × Bool :=
  if free : t.count < N then
    if topic = [] || MQTT_TOPIC_CAP ≤ topic.length then (t, false)
    else
      (⟨Function.update t.slots ⟨t.count, free⟩ (some ⟨topic, cb, true⟩), t.count + 1⟩, true)
  else (t, false)

/-- What one callback subscribes to, in order. -/
def addAll (t : MqttSubTable CB N) (subs : List (Str × CB)) : MqttSubTable CB N :=
  subs.foldl (fun t s => (t.add s.1 s.2).1) t

/-- The loop of `dispatch` from slot `i` on: the table after the callbacks, and the slots whose
callback was invoked. `subscribes` is what a callback subscribes to when it is invoked. -/
def dispatchFrom (subscribes : CB → Str → Str → List (Str × CB)) (topic payload : Str) :
    List (Fin N) → MqttSubTable CB N → MqttSubTable CB N × List (Fin N)
  | [], t => (t, [])
  | i :: is, t =>
      if t.count ≤ i then (t, [])
      else
        match t.slots i with
        | none => dispatchFrom subscribes topic payload is t
        | some s =>
            if s.active && mqttSubMatches s.topic topic then
              let (t, called) := dispatchFrom subscribes topic payload is
                (t.addAll (subscribes s.callback topic payload))
              (t, i :: called)
            else dispatchFrom subscribes topic payload is t

def dispatch (subscribes : CB → Str → Str → List (Str × CB)) (t : MqttSubTable CB N)
    (topic payload : Str) : MqttSubTable CB N × List (Fin N) :=
  dispatchFrom subscribes topic payload (List.finRange N) t

end MqttSubTable

inductive SubCall (CB : Type) where
  | reset
  | subscribe (topic : Str) (cb : CB)
  | message (topic payload : Str)

def subStep {CB : Type} {N : Nat} (subscribes : CB → Str → Str → List (Str × CB))
    (t : MqttSubTable CB N) : SubCall CB → MqttSubTable CB N
  | .reset => t.reset
  | .subscribe topic cb => (t.add topic cb).1
  | .message topic payload => (t.dispatch subscribes topic payload).1

/-! ## Which topics a filter gets -/

/-- A filter the table serves for a topic: it has no wildcard, or `#` for what is below a topic,
or `+` for one level below a topic that is not empty. -/
def Served (f t : Str) : Prop :=
  Plain f ∨ ∃ p, Plain p ∧ (f = p ++ ['/', '#'] ∧ t ≠ p ∨ f = p ++ ['/', '+'] ∧ t ≠ p ++ ['/'])

theorem endsIn_iff {s : Str} {a b : Char} : endsIn s a b = true ↔ ∃ p, s = p ++ [a, b] := by
  constructor
  · intro ends
    obtain rfl | ⟨front, y, rfl⟩ := s.eq_nil_or_concat
    · simp [endsIn] at ends
    · obtain rfl | ⟨p, x, rfl⟩ := front.eq_nil_or_concat
      · simp [endsIn] at ends
      · refine ⟨p, ?_⟩
        obtain ⟨rfl, rfl⟩ : y = b ∧ x = a := by simpa [endsIn] using ends
        simp
  · rintro ⟨p, rfl⟩
    simp [endsIn]

theorem strneq_front {p topic : Str} (s : Str) :
    strneq (p ++ s) topic p.length = true ↔ ∃ r, topic = p ++ r := by
  simp only [strneq, List.take_left, decide_eq_true_eq]
  constructor
  · intro same
    have cut := List.take_append_drop p.length topic
    rw [← same] at cut
    exact ⟨_, cut.symm⟩
  · rintro ⟨r, rfl⟩
    rw [List.take_left]

theorem slash_hash_length (p : Str) (c : Char) :
    (p ++ ['/', c]).length - 1 = (p ++ ['/']).length := by
  simp

/-- `p/#` takes what is below `p`. -/
theorem mqttSubMatches_hash {p t : Str} :
    mqttSubMatches (p ++ ['/', '#']) t = true ↔ ∃ r, t = p ++ '/' :: r := by
  have ends : endsIn (p ++ ['/', '#']) '/' '#' = true := endsIn_iff.mpr ⟨p, rfl⟩
  have cut : p ++ ['/', '#'] = (p ++ ['/']) ++ ['#'] := by simp
  simp only [mqttSubMatches, ends, if_true, slash_hash_length]
  rw [cut, strneq_front]
  simp

/-- `p/+` takes one level below `p` that is not empty. -/
theorem mqttSubMatches_plus {p t : Str} :
    mqttSubMatches (p ++ ['/', '+']) t = true ↔ ∃ r, t = p ++ '/' :: r ∧ r ≠ [] ∧ '/' ∉ r := by
  have ends : endsIn (p ++ ['/', '+']) '/' '+' = true := endsIn_iff.mpr ⟨p, rfl⟩
  have other : endsIn (p ++ ['/', '+']) '/' '#' = false := by simp [endsIn]
  have cut : p ++ ['/', '+'] = (p ++ ['/']) ++ ['+'] := by simp
  simp only [mqttSubMatches, ends, other, Bool.false_eq_true, if_true, if_false, slash_hash_length]
  by_cases below : ∃ r, t = (p ++ ['/']) ++ r
  · have same : strneq (p ++ ['/', '+']) t (p ++ ['/']).length = true := by
      rw [cut]
      exact (strneq_front _).mpr below
    simp only [same, Bool.not_true, Bool.false_eq_true, if_false]
    obtain ⟨r, rfl⟩ := below
    rw [List.drop_left]
    simp
  · have differs : strneq (p ++ ['/', '+']) t (p ++ ['/']).length = false := by
      rw [Bool.eq_false_iff, cut, Ne, strneq_front]
      exact below
    simp only [differs, Bool.not_false, if_true, Bool.false_eq_true, false_iff]
    rintro ⟨r, rfl, -⟩
    exact below ⟨r, by simp⟩

/-- Other filters are taken as they are spelled. -/
theorem mqttSubMatches_other {f t : Str} (hash : ¬∃ p, f = p ++ ['/', '#'])
    (plus : ¬∃ p, f = p ++ ['/', '+']) : mqttSubMatches f t = true ↔ f = t := by
  rw [← endsIn_iff, Bool.not_eq_true] at hash plus
  simp [mqttSubMatches, hash, plus]

theorem served_hash {p t : Str} : Served (p ++ ['/', '#']) t ↔ Plain p ∧ t ≠ p := by
  constructor
  · rintro (plain | ⟨p', plain, ⟨same, below⟩ | ⟨same, -⟩⟩)
    · simp [Plain] at plain
    · obtain rfl : p = p' := by simpa using same
      exact ⟨plain, below⟩
    · exact absurd (List.append_inj_right' same rfl) (by decide)
  · rintro ⟨plain, below⟩
    exact .inr ⟨p, plain, .inl ⟨rfl, below⟩⟩

theorem served_plus {p t : Str} : Served (p ++ ['/', '+']) t ↔ Plain p ∧ t ≠ p ++ ['/'] := by
  constructor
  · rintro (plain | ⟨p', plain, ⟨same, -⟩ | ⟨same, below⟩⟩)
    · simp [Plain] at plain
    · exact absurd (List.append_inj_right' same rfl) (by decide)
    · obtain rfl : p = p' := by simpa using same
      exact ⟨plain, below⟩
  · rintro ⟨plain, below⟩
    exact .inr ⟨p, plain, .inr ⟨rfl, below⟩⟩

/-- The match is that of MQTT 3.1.1 for the filters and topics that are served, and no other. -/
theorem mqttSubMatches_iff {f t : Str} (name : TopicName t) :
    mqttSubMatches f t = true ↔ delivers f t = true ∧ Served f t := by
  obtain ⟨-, plainTopic⟩ := name
  by_cases hash : ∃ p, f = p ++ ['/', '#']
  · obtain ⟨p, rfl⟩ := hash
    rw [mqttSubMatches_hash, served_hash]
    constructor
    · rintro ⟨r, rfl⟩
      exact ⟨(delivers_hash plainTopic.front).mpr (.inr ⟨r, rfl⟩), plainTopic.front, by simp⟩
    · rintro ⟨delivered, plain, below⟩
      exact ((delivers_hash plain).mp delivered).resolve_left below
  · by_cases plus : ∃ p, f = p ++ ['/', '+']
    · obtain ⟨p, rfl⟩ := plus
      rw [mqttSubMatches_plus, served_plus]
      constructor
      · rintro ⟨r, rfl, level, whole⟩
        exact ⟨(delivers_plus plainTopic.front).mpr ⟨r, rfl, whole⟩, plainTopic.front,
          by simpa using level⟩
      · rintro ⟨delivered, plain, below⟩
        obtain ⟨r, rfl, whole⟩ := (delivers_plus plain).mp delivered
        exact ⟨r, rfl, by simpa using below, whole⟩
    · rw [mqttSubMatches_other hash plus]
      constructor
      · rintro rfl
        exact ⟨(delivers_plain plainTopic).mpr rfl, .inl plainTopic⟩
      · rintro ⟨delivered, plain | ⟨p, -, ⟨rfl, -⟩ | ⟨rfl, -⟩⟩⟩
        · exact ((delivers_plain plain).mp delivered).symm
        · exact absurd ⟨p, rfl⟩ hash
        · exact absurd ⟨p, rfl⟩ plus

/-! ## Runs of the table -/

namespace MqttSubTable

variable {CB : Type} {N : Nat} {t : MqttSubTable CB N} {topic payload : Str}

/-- The slots in use are the active ones. -/
structure Filled (t : MqttSubTable CB N) : Prop where
  fits : t.count ≤ N
  used : ∀ i : Fin N, i < t.count → ∃ s, t.slots i = some s ∧ s.active = true

/-- A later table has the same filters in the slots that were in use. -/
structure Grows (t t' : MqttSubTable CB N) : Prop where
  count : t.count ≤ t'.count
  slots : ∀ i : Fin N, i < t.count → t'.slots i = t.slots i

theorem Grows.refl (t : MqttSubTable CB N) : Grows t t := ⟨Nat.le_refl _, fun _ _ => rfl⟩

theorem Grows.trans {t₁ t₂ t₃ : MqttSubTable CB N} (first : Grows t₁ t₂) (second : Grows t₂ t₃) :
    Grows t₁ t₃ where
  count := first.count.trans second.count
  slots := fun i used =>
    (second.slots i (Nat.lt_of_lt_of_le used first.count)).trans (first.slots i used)

theorem add_cases (t : MqttSubTable CB N) (topic : Str) (cb : CB) :
    (t.add topic cb).1 = t ∨ ∃ free : t.count < N, (t.add topic cb).1 =
      ⟨Function.update t.slots ⟨t.count, free⟩ (some ⟨topic, cb, true⟩), t.count + 1⟩ := by
  simp only [add]
  split
  · rename_i free
    split
    · exact .inl rfl
    · exact .inr ⟨free, rfl⟩
  · exact .inl rfl

theorem Filled.add (h : Filled t) (topic : Str) (cb : CB) :
    Filled (t.add topic cb).1 ∧ Grows t (t.add topic cb).1 := by
  obtain same | ⟨free, added⟩ := add_cases t topic cb
  · rw [same]
    exact ⟨h, .refl t⟩
  · rw [added]
    refine ⟨⟨free, ?_⟩, Nat.le_succ _, ?_⟩
    · intro i used
      by_cases last : i = ⟨t.count, free⟩
      · subst last
        exact ⟨_, Function.update_self .., rfl⟩
      · have before : i < t.count := by
          have other : i.val ≠ t.count := fun same => last (Fin.ext same)
          have within : i.val < t.count + 1 := used
          omega
        simpa only [Function.update_of_ne last] using h.used i before
    · intro i used
      exact Function.update_of_ne (fun same => by simp [same] at used) ..

theorem Filled.addAll (h : Filled t) (subs : List (Str × CB)) :
    Filled (t.addAll subs) ∧ Grows t (t.addAll subs) := by
  induction subs generalizing t with
  | nil => exact ⟨h, .refl t⟩
  | cons sub subs ih =>
      obtain ⟨added, first⟩ := h.add sub.1 sub.2
      obtain ⟨filled, rest⟩ := ih added
      exact ⟨filled, first.trans rest⟩

theorem Filled.reset (t : MqttSubTable CB N) : Filled t.reset :=
  ⟨Nat.zero_le _, fun _ used => absurd used (Nat.not_lt_zero _)⟩

/-- What a dispatch over some slots does: callbacks run in order, each at most once; of the
filters there before, exactly those that match; and no other filter's. -/
structure Dispatched (topic : Str) (is : List (Fin N)) (t t' : MqttSubTable CB N)
    (called : List (Fin N)) : Prop where
  filled : Filled t'
  grows : Grows t t'
  sub : called.Sublist is
  served : ∀ i ∈ is, i < t.count → ∃ s, t.slots i = some s ∧
    (i ∈ called ↔ mqttSubMatches s.topic topic = true)
  only : ∀ i ∈ called, ∃ s, t'.slots i = some s ∧ mqttSubMatches s.topic topic = true

theorem Filled.dispatchFrom (h : Filled t) (subscribes : CB → Str → Str → List (Str × CB))
    (topic payload : Str) {is : List (Fin N)} (ordered : is.Pairwise (· < ·)) :
    Dispatched topic is t (dispatchFrom subscribes topic payload is t).1
      (dispatchFrom subscribes topic payload is t).2 := by
  induction is generalizing t with
  | nil => exact ⟨h, .refl t, .slnil, by simp, by simp [MqttSubTable.dispatchFrom]⟩
  | cons i is ih =>
      obtain ⟨first, ordered⟩ := List.pairwise_cons.mp ordered
      simp only [MqttSubTable.dispatchFrom]
      split
      · rename_i past
        refine ⟨h, .refl t, List.nil_sublist _, ?_, by simp⟩
        intro j inside used
        obtain rfl | later := List.mem_cons.mp inside
        · omega
        · have : i.val < j.val := first j later
          omega
      · rename_i used
        obtain ⟨s, held, active⟩ := h.used i (Nat.not_le.mp used)
        simp only [held, active, Bool.true_and]
        cases matched : mqttSubMatches s.topic topic with
        | true =>
            obtain ⟨added, registered⟩ := h.addAll (subscribes s.callback topic payload)
            have rest := ih added ordered
            simp only [if_true]
            refine ⟨rest.filled, registered.trans rest.grows, rest.sub.cons_cons i, ?_, ?_⟩
            · intro j inside before
              obtain rfl | later := List.mem_cons.mp inside
              · exact ⟨s, held, by simp [matched]⟩
              · obtain ⟨s', held', served⟩ := rest.served j later
                  (Nat.lt_of_lt_of_le before registered.count)
                rw [registered.slots j before] at held'
                refine ⟨s', held', ?_⟩
                rw [List.mem_cons, ← served]
                exact or_iff_right (Fin.ne_of_gt (first j later))
            · intro j called
              obtain rfl | later := List.mem_cons.mp called
              · have kept := (registered.trans rest.grows).slots j (Nat.not_le.mp used)
                exact ⟨s, kept.trans held, matched⟩
              · exact rest.only j later
        | false =>
            have rest := ih h ordered
            simp only [Bool.false_eq_true, if_false]
            refine ⟨rest.filled, rest.grows, rest.sub.cons i, ?_, rest.only⟩
            intro j inside before
            obtain rfl | later := List.mem_cons.mp inside
            · refine ⟨s, held, ?_⟩
              simp only [matched, Bool.false_eq_true, iff_false]
              exact fun called => absurd (first j (rest.sub.subset called)) (lt_irrefl j)
            · exact rest.served j later before

theorem Filled.dispatch (h : Filled t) (subscribes : CB → Str → Str → List (Str × CB))
    (topic payload : Str) :
    Dispatched topic (List.finRange N) t (t.dispatch subscribes topic payload).1
      (t.dispatch subscribes topic payload).2 :=
  h.dispatchFrom subscribes topic payload (List.pairwise_lt_finRange N)

theorem Filled.step (h : Filled t) (subscribes : CB → Str → Str → List (Str × CB))
    (c : SubCall CB) : Filled (subStep subscribes t c) := by
  cases c with
  | reset => exact .reset t
  | subscribe topic cb => exact (h.add topic cb).1
  | message topic payload => exact (h.dispatch subscribes topic payload).filled

theorem Filled.run (h : Filled t) (subscribes : CB → Str → Str → List (Str × CB))
    (cs : List (SubCall CB)) : Filled (run (subStep subscribes) t cs) := by
  induction cs generalizing t with
  | nil => exact h
  | cons c cs ih => exact ih (h.step subscribes c)

end MqttSubTable

end Thesada.Mqtt
