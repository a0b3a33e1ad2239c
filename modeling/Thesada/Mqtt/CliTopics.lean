import Thesada.Library.TopicFilter
import Thesada.Mqtt.SessionAuth
import Thesada.Mqtt.SubTable

/-!
# Command topics and response topics

A device subscribes to `<prefix>/cli/#` and answers on `<prefix>/cli_response`. Each topic is built
in a buffer of `CLI_TOPIC_CAP` bytes and not used when it is cut. The handler takes the name of a
command off its topic, as `Link.cliCommand` has it.
-/

namespace Thesada.Mqtt

open CString MqttTopic

def CLI_TOPIC_INPUT_WILDCARD : Str := "/cli/#".toList
def CLI_TOPIC_RESPONSE : Str := "/cli_response".toList

/-- `snprintf` into `cap` bytes, when they hold all of it. -/
def cliTopicJoin (cap : Nat) (pre suffix : Str) : Option Str :=
  if 0 < (pre ++ suffix).length ∧ (pre ++ suffix).length < cap then some (pre ++ suffix) else none

def cliInputSubscription (cap : Nat) (pre : Str) : Option Str :=
  cliTopicJoin cap pre CLI_TOPIC_INPUT_WILDCARD

def cliCommandTopic (cap : Nat) (pre command : Str) : Option Str :=
  cliTopicJoin cap pre (CLI_TOPIC_INPUT_SEGMENT ++ command)

def cliResponseTopic (cap : Nat) (pre : Str) : Option Str :=
  cliTopicJoin cap pre CLI_TOPIC_RESPONSE

/-- The matcher that stands for the broker in the tests. -/
def cliTopicMatches : (filter topic : Str) → Bool
  | [], t => t.isEmpty
  | '#' :: _, _ => true
  | '+' :: f, t =>
      match f, t.dropWhile fun c => decide (c ≠ '/') with
      | '/' :: f, '/' :: t => cliTopicMatches f t
      | f, t => cliTopicMatches f t
  | _ :: _, [] => false
  | c :: f, d :: t => decide (c = d) && cliTopicMatches f t
termination_by filter => filter.length

theorem cliTopicJoin_eq_some {cap : Nat} {pre suffix t : Str}
    (joined : cliTopicJoin cap pre suffix = some t) : t = pre ++ suffix := by
  unfold cliTopicJoin at joined
  split at joined
  · exact (Option.some.inj joined).symm
  · cases joined

theorem cliTopicJoin_some {cap : Nat} {pre suffix : Str} (some_ : suffix ≠ [])
    (fits : pre.length + suffix.length < cap) :
    cliTopicJoin cap pre suffix = some (pre ++ suffix) := by
  have pos := List.length_pos_iff.mpr some_
  unfold cliTopicJoin
  rw [List.length_append, if_pos ⟨by omega, fits⟩]

/-- A plain start of a filter is compared as it is spelled. -/
theorem cliTopicMatches_plain {p f t : Str} (plain : Plain p) :
    cliTopicMatches (p ++ f) t = true ↔ ∃ r, t = p ++ r ∧ cliTopicMatches f r = true := by
  induction p generalizing t with
  | nil => simp
  | cons c p ih =>
      have rest : Plain p := by
        simp only [Plain, List.mem_cons, not_or] at plain ⊢
        exact ⟨plain.1.2, plain.2.2⟩
      have letter : c ≠ '#' ∧ c ≠ '+' := by
        simp only [Plain, List.mem_cons, not_or] at plain
        exact ⟨Ne.symm plain.2.1, Ne.symm plain.1.1⟩
      rw [List.cons_append]
      cases t with
      | nil => simp [cliTopicMatches, letter]
      | cons d t =>
          have step : cliTopicMatches (c :: (p ++ f)) (d :: t) =
              (decide (c = d) && cliTopicMatches (p ++ f) t) := by
            rw [cliTopicMatches]
            · exact letter.1
            · exact letter.2
          rw [step, Bool.and_eq_true, decide_eq_true_iff, ih rest]
          constructor
          · rintro ⟨rfl, r, rfl, matched⟩
            exact ⟨r, rfl, matched⟩
          · rintro ⟨r, same, matched⟩
            obtain ⟨rfl, rfl⟩ := List.cons.inj same
            exact ⟨rfl, r, rfl, matched⟩

theorem cliTopicMatches_hash (t : Str) : cliTopicMatches HASH t = true := by
  simp [cliTopicMatches, HASH]

/-! ## Under one prefix -/

variable {pre : Str}

/-- The level that commands are under. -/
def cliLevel (pre : Str) : Str := pre ++ "/cli".toList

theorem subscription_cut (pre : Str) :
    pre ++ CLI_TOPIC_INPUT_WILDCARD = cliLevel pre ++ ['/', '#'] := by
  simp [CLI_TOPIC_INPUT_WILDCARD, cliLevel]

theorem segment_cut (pre r : Str) :
    cliLevel pre ++ '/' :: r = pre ++ CLI_TOPIC_INPUT_SEGMENT ++ r := by
  simp [CLI_TOPIC_INPUT_SEGMENT, cliLevel]

theorem Plain.append {p q : Str} (first : Plain p) (second : Plain q) : Plain (p ++ q) := by
  simp only [Plain, List.mem_append, not_or] at first second ⊢
  exact ⟨⟨first.1, second.1⟩, first.2, second.2⟩

theorem cliLevel_plain (plain : Plain pre) : Plain (cliLevel pre) := Plain.append plain (by decide)

/-- The broker delivers what is below the level, and the level itself. -/
theorem subscription_delivers (plain : Plain pre) (t : Str) :
    delivers (pre ++ CLI_TOPIC_INPUT_WILDCARD) t = true ↔
      t = cliLevel pre ∨ ∃ r, t = pre ++ CLI_TOPIC_INPUT_SEGMENT ++ r := by
  rw [subscription_cut]
  have given := delivers_hash (t := t) (cliLevel_plain plain)
  simpa only [segment_cut, HASH] using given

theorem subscription_matches (t : Str) :
    mqttSubMatches (pre ++ CLI_TOPIC_INPUT_WILDCARD) t = true ↔
      ∃ r, t = pre ++ CLI_TOPIC_INPUT_SEGMENT ++ r := by
  rw [subscription_cut, mqttSubMatches_hash]
  simp only [segment_cut]

theorem subscription_cliTopicMatches (plain : Plain pre) (t : Str) :
    cliTopicMatches (pre ++ CLI_TOPIC_INPUT_WILDCARD) t = true ↔
      ∃ r, t = pre ++ CLI_TOPIC_INPUT_SEGMENT ++ r := by
  have cut : pre ++ CLI_TOPIC_INPUT_WILDCARD = (pre ++ CLI_TOPIC_INPUT_SEGMENT) ++ HASH := by
    simp [CLI_TOPIC_INPUT_WILDCARD, CLI_TOPIC_INPUT_SEGMENT, HASH]
  rw [cut, cliTopicMatches_plain (Plain.append plain (by decide))]
  simp [cliTopicMatches_hash]

theorem response_not_below (r : Str) :
    pre ++ CLI_TOPIC_RESPONSE ≠ pre ++ CLI_TOPIC_INPUT_SEGMENT ++ r := by
  rw [List.append_assoc]
  intro same
  have below := List.append_cancel_left same
  have first : CLI_TOPIC_RESPONSE.take 5 = CLI_TOPIC_INPUT_SEGMENT := by
    rw [below]
    rfl
  exact absurd first (by decide)

/-- The name of a command is what is behind the prefix. -/
theorem cliCommand_some {c : Link} {t cmd : Str}
    (fits : (c.topicPrefix ++ CLI_TOPIC_INPUT_SEGMENT).length < CLI_TOPIC_CAP) :
    c.cliCommand t = some cmd ↔ c.shellServesMqtt = true ∧
      t = c.topicPrefix ++ CLI_TOPIC_INPUT_SEGMENT ++ cmd ∧ cmd ≠ [] ∧ cmd ≠ "response".toList := by
  simp only [Link.cliCommand, if_neg (Nat.not_le.mpr fits)]
  cases serves : c.shellServesMqtt with
  | false => simp
  | true =>
      simp only [Bool.not_true, Bool.false_eq_true, if_false, true_and]
      split
      next other =>
        refine iff_of_false nofun fun named => ?_
        rw [named.1, List.isPrefixOf_iff_prefix.mpr (List.prefix_append _ _)] at other
        cases other
      next below =>
        rw [Bool.not_eq_true', Bool.not_eq_false, List.isPrefixOf_iff_prefix] at below
        obtain ⟨rest, rfl⟩ := below
        rw [List.drop_left, List.append_cancel_left_eq]
        split
        next nothing =>
          rw [List.isEmpty_iff] at nothing
          refine iff_of_false nofun ?_
          rintro ⟨rfl, some_, other⟩
          exact nothing.elim some_ other
        next named =>
          rw [List.isEmpty_iff, not_or] at named
          constructor
          · rintro ⟨⟩
            exact ⟨rfl, named⟩
          · rintro ⟨rfl, -⟩
            rfl

/-- A link that serves the shell under the prefix a device has by default. -/
def thesadaNode : Link where
  certs := ⟨⟨none, none⟩, false, none, none⟩
  live := none
  topicPrefix := "thesada/node".toList
  shellServesMqtt := true
  broker := noBroker
  tlsRefused := false
  mtlsActive := false
  transport := .none
  wifiUp := false
  cellularActive := false
  cellularTcp := false
  session := none
  reinitPending := false
  ring := []
  inbound := []
  judged := []

end Thesada.Mqtt
