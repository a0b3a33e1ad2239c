import Mathlib.Data.List.Induction
import Mathlib.Logic.Function.Basic
import Thesada.Clock.NtpSet
import Thesada.Library.CString
import Thesada.Library.Machine

/-!
# The log and the serial console

`Log::write` puts each line in a ring for the web terminal and on the console. The ring has no
lock: its part below is for writes that do not overlap.

The console has one. A task takes it, reads the mode, prints its line byte by byte and gives it
back, while other tasks wait or run. `order` records the calls in the order in which they took the
lock; no step reads it. `serialRun` is what these calls print one after the other, which the wire
is compared with.
-/

namespace Thesada.Log

open CString Clock Machine

/-! ## The ring -/

def LOG_LINE_LEN : Nat := 220

inductive LogLevel where
  | debug
  | info
  | warn
  | error

def levelStr : LogLevel → Str
  | .debug => "DBG".toList
  | .info => "INF".toList
  | .warn => "WRN".toList
  | .error => "ERR".toList

/-- The line of a message, cut to its buffer. -/
def logLine (now : Int) (level : LogLevel) (tag msg : Str) : Str :=
  let stamp := if 1700000000 < now then ['['] ++ gmtimeText now ++ [']'] else []
  (['['] ++ levelStr level ++ [']'] ++ stamp ++ ['['] ++ tag ++ "] ".toList ++ msg).take
    (LOG_LINE_LEN - 1)

/-- A call of `Log::write`, with the clock it reads. -/
structure LogCall where
  now : Int
  level : LogLevel
  tag : Str
  msg : Str

def LogCall.line (c : LogCall) : Str := logLine c.now c.level c.tag c.msg

theorem LogCall.line_fits (c : LogCall) : c.line.length < LOG_LINE_LEN := by
  simp only [LogCall.line, logLine, List.length_take, LOG_LINE_LEN]
  omega

structure LogRing where
  ring : Nat → Str
  ringHead : Nat
  ringUsed : Nat

namespace LogRing

def empty : LogRing := ⟨fun _ => [], 0, 0⟩

/-- The part of `Log::write` on a ring of `size` lines. -/
def write (size : Nat) (r : LogRing) (line : Str) : LogRing where
  ring := Function.update r.ring r.ringHead line
  ringHead := (r.ringHead + 1) % size
  ringUsed := if r.ringUsed < size then r.ringUsed + 1 else r.ringUsed

def ringLine (size : Nat) (r : LogRing) (index : Nat) : Option Str :=
  if r.ringUsed ≤ index then none
  else some (r.ring ((r.ringHead + size - r.ringUsed + index) % size))

/-- What the terminal replays. -/
def replay (size : Nat) (r : LogRing) : List (Option Str) :=
  (List.range r.ringUsed).map (r.ringLine size)

/-- Each of the last `size` lines is where its number says. -/
structure Holds (size : Nat) (lines : List Str) (r : LogRing) : Prop where
  head : r.ringHead = lines.length % size
  used : r.ringUsed = min size lines.length
  lines : ∀ i (h : i < lines.length), lines.length ≤ i + size → r.ring (i % size) = lines[i]

theorem Holds.write {size : Nat} {lines : List Str} {r : LogRing}
    (h : r.Holds size lines) (line : Str) : (r.write size line).Holds size (lines ++ [line]) := by
  have head := h.head
  refine ⟨?_, ?_, fun i inside recent => ?_⟩
  · simp only [LogRing.write, head, List.length_append, List.length_singleton, Nat.mod_add_mod]
  · simp only [LogRing.write, h.used, List.length_append, List.length_singleton]
    split
    · omega
    · omega
  · simp only [LogRing.write, head, List.length_append, List.length_singleton] at inside recent ⊢
    by_cases newest : i = lines.length
    · subst newest
      simp
    · have older : i < lines.length := by omega
      have apart : i % size ≠ lines.length % size := by
        intro same
        have gap : lines.length - i < size := by omega
        have again : (lines.length - i) % size = 0 :=
          Nat.sub_mod_eq_zero_of_mod_eq same.symm
        rw [Nat.mod_eq_of_lt gap] at again
        omega
      rw [Function.update_of_ne apart, h.lines i older (by omega), List.getElem_append_left older]

theorem holds_run (size : Nat) (lines : List Str) :
    (run (write size) empty lines).Holds size lines := by
  induction lines using List.reverseRecOn with
  | nil => exact ⟨(Nat.zero_mod size).symm, (Nat.min_zero size).symm, nofun⟩
  | append_singleton lines line ih =>
      rw [run_append]
      exact ih.write line

end LogRing

/-- The terminal replays the last lines written, as many as the ring has, the oldest first. -/
theorem log_ring_replays (size : Nat) (pos : 0 < size) (calls : List LogCall) :
    (run (fun r (c : LogCall) => LogRing.write size r c.line) .empty calls).replay size =
      ((calls.map LogCall.line).drop (calls.length - size)).map some := by
  have h := LogRing.holds_run size (calls.map LogCall.line)
  have same : run (fun r (c : LogCall) => LogRing.write size r c.line) .empty calls =
      run (LogRing.write size) .empty (calls.map LogCall.line) := by
    simp only [run, List.foldl_map]
  rw [same, ← List.length_map (f := LogCall.line)]
  generalize calls.map LogCall.line = lines at h
  generalize run (LogRing.write size) .empty lines = r at h
  have used := h.used
  refine List.ext_getElem ?_ fun k inside there => ?_
  · simp only [LogRing.replay, used, List.length_map, List.length_range, List.length_drop]
    omega
  · simp only [LogRing.replay, used, List.length_map, List.length_range] at inside
    simp only [LogRing.replay, List.getElem_map, List.getElem_range, List.getElem_drop,
      LogRing.ringLine]
    rw [if_neg (by omega)]
    congr 1
    have place : (r.ringHead + size - r.ringUsed + k) % size =
        (lines.length - size + k) % size := by
      rw [h.head, used]
      by_cases short : lines.length < size
      · rw [Nat.mod_eq_of_lt short, show min size lines.length = lines.length by omega,
          show lines.length - size + k = k by omega,
          show lines.length + size - lines.length + k = k + size by omega, Nat.add_mod_right]
      · rw [show min size lines.length = size by omega,
          show lines.length % size + size - size + k = lines.length % size + k by omega,
          Nat.mod_add_mod,
          show lines.length + k = lines.length - size + k + size by omega, Nat.add_mod_right]
    rw [place]
    exact h.lines (lines.length - size + k) (by omega) (by omega)

/-- A ring of two lines behind three calls. -/
theorem log_ring_replays_two :
    let calls := [LogCall.mk 0 .info "a".toList "1".toList, ⟨0, .warn, "b".toList, "2".toList⟩,
      ⟨0, .error, "c".toList, "3".toList⟩]
    (run (fun r (c : LogCall) => LogRing.write 2 r c.line) .empty calls).replay 2 =
        ((calls.map LogCall.line).drop (calls.length - 2)).map some ∧
      (calls.map LogCall.line).drop (calls.length - 2) =
        ["[WRN][b] 2".toList, "[ERR][c] 3".toList] :=
  ⟨log_ring_replays 2 (by decide) _, by decide⟩

/-! ## The serial console -/

inductive ConsoleMode where
  | normal
  | command
  deriving DecidableEq

/-- The calls that reach the serial port. -/
inductive ConsoleCall where
  | log (line : Str)
  | reply (line : Str)
  | endReply
  | setMode (m : ConsoleMode)

def DONE_MARKER : Str := '\x04' :: "CMD-DONE".toList

def marker (seq : Nat) : Str := DONE_MARKER ++ ' ' :: Nat.toDigits 10 seq

/-- `Serial.println`. -/
def println (line : Str) : Str := line ++ ['\r', '\n']

/-- What a mode and a number print for a call, and what they are behind it. -/
def printed (mode : ConsoleMode) (seq : Nat) : ConsoleCall → List Str × ConsoleMode × Nat
  | .log line => (if mode = .normal then [line] else [], mode, seq)
  | .reply line => ([line], mode, seq)
  | .endReply =>
      if mode = .command then ([marker seq], mode, (seq + 1) % 4294967296) else ([], mode, seq)
  | .setMode m => ([], m, seq)

/-- What a task does behind the lock: nothing yet, or some bytes to go. -/
inductive Held where
  | entering (call : ConsoleCall)
  | printing (rest : Str)

structure Console where
  mode : ConsoleMode
  seq : Nat
  holder : Option (Nat × Held)
  wire : Str
  order : List ConsoleCall

inductive ConsoleEvent where
  /-- A task asks for the lock. -/
  | take (task : Nat) (call : ConsoleCall)
  /-- A task that holds it does its next step. -/
  | act (task : Nat)
  | give (task : Nat)

namespace Console

def boot : Console := ⟨.normal, 0, none, [], []⟩

def step (s : Console) : ConsoleEvent → Console
  | .take task call =>
      match s.holder with
      | none => { s with holder := some (task, .entering call), order := s.order ++ [call] }
      | some _ => s
  | .act task =>
      match s.holder with
      | some (owner, .entering call) =>
          if owner = task then
            let (lines, mode, seq) := printed s.mode s.seq call
            { s with
              mode := mode
              seq := seq
              holder := some (task, .printing (lines.flatMap println)) }
          else s
      | some (owner, .printing (c :: rest)) =>
          if owner = task then
            { s with wire := s.wire ++ [c], holder := some (task, .printing rest) }
          else s
      | _ => s
  | .give task =>
      match s.holder with
      | some (owner, .printing []) => if owner = task then { s with holder := none } else s
      | _ => s

end Console

/-! ## One call after the other -/

/-- The calls in their order, each alone. -/
structure Serial where
  mode : ConsoleMode
  seq : Nat
  out : List Str

def serialStep (s : Serial) (call : ConsoleCall) : Serial :=
  let (lines, mode, seq) := printed s.mode s.seq call
  ⟨mode, seq, s.out ++ lines⟩

def serialRun (calls : List ConsoleCall) : Serial := run serialStep ⟨.normal, 0, []⟩ calls

def onWire (lines : List Str) : Str := lines.flatMap println

/-- What is still to be done is at the end. -/
inductive Console.Serves : Console → Prop
  | free {s : Console} (holder : s.holder = none)
      (mode : s.mode = (serialRun s.order).mode) (seq : s.seq = (serialRun s.order).seq)
      (wire : s.wire = onWire (serialRun s.order).out) : Console.Serves s
  | entering {s : Console} {task : Nat} {call : ConsoleCall} {before : List ConsoleCall}
      (holder : s.holder = some (task, .entering call)) (order : s.order = before ++ [call])
      (mode : s.mode = (serialRun before).mode) (seq : s.seq = (serialRun before).seq)
      (wire : s.wire = onWire (serialRun before).out) : Console.Serves s
  | printing {s : Console} {task : Nat} {rest : Str}
      (holder : s.holder = some (task, .printing rest))
      (mode : s.mode = (serialRun s.order).mode) (seq : s.seq = (serialRun s.order).seq)
      (wire : s.wire ++ rest = onWire (serialRun s.order).out) : Console.Serves s

theorem serialRun_append (before : List ConsoleCall) (call : ConsoleCall) :
    serialRun (before ++ [call]) = serialStep (serialRun before) call := by
  simp [serialRun]

theorem Console.Serves.step {s : Console} (h : s.Serves) (e : ConsoleEvent) :
    (s.step e).Serves := by
  cases h with
  | free holder mode seq wire =>
      cases e with
      | take task call =>
          simp only [Console.step, holder]
          exact .entering rfl rfl mode seq wire
      | act task =>
          simp only [Console.step, holder]
          exact .free holder mode seq wire
      | give task =>
          simp only [Console.step, holder]
          exact .free holder mode seq wire
  | @entering owner call before holder order mode seq wire =>
      cases e with
      | take task other =>
          simp only [Console.step, holder]
          exact .entering holder order mode seq wire
      | act task =>
          simp only [Console.step, holder]
          split
          · have behind := serialRun_append before call
            rw [← order] at behind
            simp only [serialStep, ← mode, ← seq] at behind
            refine .printing rfl (by rw [behind]) (by rw [behind]) ?_
            rw [behind, wire, onWire, onWire, List.flatMap_append]
          · exact .entering holder order mode seq wire
      | give task =>
          simp only [Console.step, holder]
          exact .entering holder order mode seq wire
  | @printing owner rest holder mode seq wire =>
      cases e with
      | take task other =>
          simp only [Console.step, holder]
          exact .printing holder mode seq wire
      | act task =>
          cases rest with
          | nil =>
              simp only [Console.step, holder]
              exact .printing holder mode seq wire
          | cons c rest =>
              simp only [Console.step, holder]
              split
              · exact .printing rfl mode seq (by rw [← wire]; simp)
              · exact .printing holder mode seq wire
      | give task =>
          cases rest with
          | nil =>
              simp only [Console.step, holder]
              split
              · exact .free rfl mode seq (by rw [← wire, List.append_nil])
              · exact .printing holder mode seq wire
          | cons c rest =>
              simp only [Console.step, holder]
              exact .printing holder mode seq wire

theorem boot_serves : Console.boot.Serves := .free rfl rfl rfl rfl

/-- Whatever the tasks do, the wire has the lines of the calls in their order, the last one perhaps
in part. -/
theorem Console.Serves.wire_prefix {s : Console} (h : s.Serves) :
    s.wire <+: onWire (serialRun s.order).out ∧
      (s.holder = none → s.wire = onWire (serialRun s.order).out) := by
  cases h with
  | free holder mode seq wire => exact ⟨wire ▸ List.prefix_refl _, fun _ => wire⟩
  | @entering owner call before holder order mode seq wire =>
      refine ⟨?_, fun free => by simp [holder] at free⟩
      rw [order, serialRun_append, wire]
      simp only [serialStep, onWire, List.flatMap_append]
      exact List.prefix_append _ _
  | printing holder mode seq wire =>
      refine ⟨?_, fun free => by simp [holder] at free⟩
      rw [← wire]
      exact List.prefix_append _ _

/-! ## Frames -/

/-- The calls of a command: its lines, and the end of the reply. -/
def commandCalls (replies : List Str) : List ConsoleCall := replies.map .reply ++ [.endReply]

/-- What a reader in Command mode splits at the markers. -/
def framed (seq : Nat) : List (List Str) → List Str
  | [] => []
  | replies :: commands => replies ++ marker seq :: framed ((seq + 1) % 4294967296) commands

def ConsoleCall.isLog : ConsoleCall → Bool
  | .log _ => true
  | _ => false

def ConsoleCall.isMode : ConsoleCall → Bool
  | .setMode _ => true
  | _ => false

/-- In Command mode the log leaves no trace. -/
theorem serial_without_logs (seq : Nat) (out : List Str) (calls : List ConsoleCall)
    (noMode : ∀ call ∈ calls, call.isMode = false) :
    run serialStep ⟨.command, seq, out⟩ calls =
      run serialStep ⟨.command, seq, out⟩ (calls.filter fun call => !call.isLog) := by
  induction calls generalizing seq out with
  | nil => rfl
  | cons call calls ih =>
      have rest := fun c member => noMode c (List.mem_cons_of_mem call member)
      cases call with
      | log line =>
          have none : serialStep ⟨.command, seq, out⟩ (.log line) = ⟨.command, seq, out⟩ := by
            simp [serialStep, printed]
          rw [run_cons, none, ih seq out rest]
          rfl
      | reply line => exact ih seq (out ++ [line]) rest
      | endReply => exact ih ((seq + 1) % 4294967296) (out ++ [marker seq]) rest
      | setMode m => exact absurd (noMode _ List.mem_cons_self) (by simp [ConsoleCall.isMode])

theorem serial_replies (seq : Nat) (out replies : List Str) :
    run serialStep ⟨.command, seq, out⟩ (replies.map .reply) =
      ⟨.command, seq, out ++ replies⟩ := by
  induction replies generalizing out with
  | nil => simp
  | cons line replies ih =>
      have next := ih (out ++ [line])
      rw [List.append_assoc] at next
      exact next

theorem serial_framed (seq : Nat) (out : List Str) (commands : List (List Str)) :
    (run serialStep ⟨.command, seq, out⟩ (commands.flatMap commandCalls)).out =
      out ++ framed seq commands := by
  induction commands generalizing seq out with
  | nil => simp [framed]
  | cons replies commands ih =>
      have ended : run serialStep ⟨.command, seq, out⟩ (commandCalls replies) =
          ⟨.command, (seq + 1) % 4294967296, out ++ replies ++ [marker seq]⟩ := by
        rw [commandCalls, run_append, serial_replies]
        rfl
      rw [List.flatMap_cons, run_append, ended, ih, framed]
      simp

theorem noMode_of_commands {calls : List ConsoleCall} {commands : List (List Str)}
    (only : (calls.filter fun call => !call.isLog) = commands.flatMap commandCalls) :
    ∀ call ∈ calls, call.isMode = false := by
  intro call member
  cases call with
  | setMode m =>
      have kept : ConsoleCall.setMode m ∈ calls.filter fun call => !call.isLog :=
        List.mem_filter.mpr ⟨member, rfl⟩
      rw [only] at kept
      obtain ⟨replies, -, inside⟩ := List.mem_flatMap.mp kept
      simp [commandCalls] at inside
  | log line => rfl
  | reply line => rfl
  | endReply => rfl

/-- From the switch to Command mode on, while one task runs commands and any others log, the wire
has the replies of each command and behind them its marker, numbered one up each time, and nothing
between them, whoever has the lock and wherever a line stands. -/
theorem console_frames (es : List ConsoleEvent) (before calls : List ConsoleCall)
    (commands : List (List Str))
    (switched : (run Console.step .boot es).order = before ++ .setMode .command :: calls)
    (only : (calls.filter fun call => !call.isLog) = commands.flatMap commandCalls) :
    (run Console.step .boot es).wire <+:
        onWire ((serialRun before).out ++ framed (serialRun before).seq commands) ∧
      ((run Console.step .boot es).holder = none →
        (run Console.step .boot es).wire =
          onWire ((serialRun before).out ++ framed (serialRun before).seq commands)) := by
  have h : (run Console.step .boot es).Serves :=
    @run_invariant _ _ Console.step Console.Serves (fun _ e held => held.step e) _ boot_serves es
  have out : (serialRun (run Console.step .boot es).order).out =
      (serialRun before).out ++ framed (serialRun before).seq commands := by
    rw [switched, serialRun, run_append, run_cons]
    change (run serialStep ⟨.command, (serialRun before).seq, (serialRun before).out ++ []⟩
      calls).out = _
    rw [List.append_nil, serial_without_logs _ _ _ (noMode_of_commands only), only, serial_framed]
  rw [← out]
  exact h.wire_prefix

/-- Task 1 logs while task 0 switches the mode and replies. -/
theorem console_frames_logged :
    let es := [ConsoleEvent.take 0 (.setMode .command), .act 0, .give 0, .take 1 (.log ['l']),
      .take 0 (.reply ['r']), .act 1, .give 1, .take 0 (.reply ['r']), .act 0, .act 0,
      .take 1 (.log ['m']), .act 0, .act 0, .give 0, .take 0 .endReply, .act 0]
    ((run Console.step .boot es).wire <+: onWire ([] ++ framed 0 [[['r']]]) ∧
      ((run Console.step .boot es).holder = none →
        (run Console.step .boot es).wire = onWire ([] ++ framed 0 [[['r']]]))) ∧
    (run Console.step .boot es).wire = ['r', '\r', '\n'] :=
  ⟨console_frames _ [] [.log ['l'], .reply ['r'], .endReply] [[['r']]] rfl rfl, by decide⟩

end Thesada.Log
