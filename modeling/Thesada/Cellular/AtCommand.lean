import Mathlib.Tactic.Common
import Thesada.Library.CString
import Thesada.Library.Machine
import Thesada.Library.Word32

/-!
# The answer to an AT command

`cellAT` reads bytes in a loop that ends at a deadline, and takes each line for the answer, for an
error or for its callback. A byte too many empties the line buffer, and what is left of the line
is then taken for a line.

When the loop tests its clock, and which bytes it reads, is an event. Beside the loop stands what
arrived: whole lines of any length, up to the first test at which the time is up.
-/

namespace Thesada.Cellular

open CString Machine

/-- The longest line of the buffer. -/
def AT_LINE_MAX : Nat := 511

/-- A call, and the milliseconds since the boot at its start. -/
structure AtCall where
  expect : Str
  timeoutMs : Nat
  start : Nat
  text : '\x00' ∉ expect

inductive AtEvent where
  /-- The test of the loop. -/
  | test (now : Nat)
  | byte (c : Char)

def isErr (line : Str) : Bool :=
  "+CME ERROR".toList.isPrefixOf line || "+CMS ERROR".toList.isPrefixOf line

/-! ## `cellAT` -/

structure AtLoop where
  line : Str
  /-- What `lineCallback` was called with. -/
  calls : List Str
  result : Option Int

/-- The test of the loop, in 32 bits. -/
def AtCall.waits (a : AtCall) (now : Nat) : Bool :=
  now % Word32.size < Word32.add (a.start % Word32.size) a.timeoutMs

def lineEnd (a : AtCall) (s : AtLoop) : AtLoop :=
  if s.line = [] then s
  else if cstr s.line = a.expect then { s with result := some 1 }
  else if cstr s.line = "ERROR".toList then { s with result := some (-1) }
  else if isErr (cstr s.line) then
    { s with calls := s.calls ++ [cstr s.line], result := some (-1) }
  else { s with calls := s.calls ++ [cstr s.line], line := [] }

def cellAT (a : AtCall) (s : AtLoop) : AtEvent → AtLoop
  | .test now => if a.waits now then s else { s with result := some 0 }
  | .byte c =>
      if c = '\r' then s
      else if c = '\n' then lineEnd a s
      else if s.line.length < AT_LINE_MAX then { s with line := s.line ++ [c] }
      else { s with line := [] }

/-! ## What arrives -/

structure Arrived where
  /-- What came since the last line end. -/
  part : Str
  lines : List Str
  expired : Bool

def arrive (a : AtCall) (s : Arrived) : AtEvent → Arrived
  | .test now => { s with expired := s.expired || a.start + a.timeoutMs ≤ now }
  | .byte c =>
      if s.expired || c = '\r' then s
      else if c = '\n' then { s with part := [], lines := s.lines ++ [s.part] }
      else { s with part := s.part ++ [c] }

/-- The first line that ends the answer, and the lines for the callback before it. -/
def answer (expect : Str) : List Str → Option Int × List Str
  | [] => (none, [])
  | line :: lines =>
      if AT_LINE_MAX < line.length then answer expect lines
      else if line = expect then (some 1, [])
      else if line = "ERROR".toList then (some (-1), [])
      else if isErr line then (some (-1), [line])
      else if line = [] then answer expect lines
      else ((answer expect lines).1, line :: (answer expect lines).2)

/-- What the call returns for what arrived. -/
def Arrived.result (a : AtCall) (s : Arrived) : Option Int :=
  (answer a.expect s.lines).1.or (if s.expired then some 0 else none)

/-! ## A call -/

/-- The loop until it returns, and what arrives. -/
abbrev AtRun := AtLoop × Arrived

def AtRun.start : AtRun := (⟨[], [], none⟩, ⟨[], [], false⟩)

def atStep (a : AtCall) (s : AtRun) (e : AtEvent) : AtRun :=
  (if s.1.result = none then cellAT a s.1 e else s.1, arrive a s.2 e)

/-- The loop returned what the lines say, and the callback had its lines. -/
def Answered (a : AtCall) (s : AtRun) : Prop :=
  s.1.result = s.2.result a ∧ s.1.calls = (answer a.expect s.2.lines).2

instance (a : AtCall) (s : AtRun) : Decidable (Answered a s) :=
  inferInstanceAs (Decidable (_ ∧ _))

/-- A line that the buffer holds, or that leaves nothing in it. -/
def PlainLine (expect line : Str) : Prop :=
  if line = [] then expect ≠ []
  else if AT_LINE_MAX < line.length then line.length % (AT_LINE_MAX + 1) = 0
  else '\x00' ∉ line

/-- Until the loop returns its test tells the time, and each line is plain. -/
def AtOk (a : AtCall) (s : AtRun) (e : AtEvent) : Prop :=
  s.1.result = none →
    match e with
    | .test now => a.waits now = true ↔ now < a.start + a.timeoutMs
    | .byte c => c = '\n' → PlainLine a.expect s.2.part

/-! ## Lines -/

section

variable {a : AtCall} {s : AtRun} {e : AtEvent} {expect line : Str} {lines : List Str} {c : Char}

/-- A line behind others counts when none of them ended the answer. -/
theorem answer_concat (expect : Str) (lines : List Str) (line : Str) :
    answer expect (lines ++ [line]) =
      if (answer expect lines).1 = none then
        ((answer expect [line]).1, (answer expect lines).2 ++ (answer expect [line]).2)
      else answer expect lines := by
  induction lines with
  | nil => rfl
  | cons first lines ih =>
      rw [List.cons_append, answer, answer]
      by_cases long : AT_LINE_MAX < first.length
      · rw [if_pos long, if_pos long]
        exact ih
      · rw [if_neg long, if_neg long]
        by_cases done : first = expect
        · rw [if_pos done, if_pos done]
          rfl
        · rw [if_neg done, if_neg done]
          by_cases error : first = "ERROR".toList
          · rw [if_pos error, if_pos error]
            rfl
          · rw [if_neg error, if_neg error]
            by_cases detail : isErr first = true
            · rw [if_pos detail, if_pos detail]
              rfl
            · rw [if_neg detail, if_neg detail]
              by_cases blank : first = []
              · rw [if_pos blank, if_pos blank]
                exact ih
              · rw [if_neg blank, if_neg blank, ih]
                dsimp only
                split
                · rfl
                · rfl

/-- What the buffer holds of a line. -/
def clip (line : Str) : Str := line.drop ((AT_LINE_MAX + 1) * (line.length / (AT_LINE_MAX + 1)))

theorem clip_nil : clip [] = [] := List.drop_nil

theorem length_clip (line : Str) : (clip line).length = line.length % (AT_LINE_MAX + 1) := by
  rw [clip, List.length_drop]
  have := Nat.mod_add_div line.length (AT_LINE_MAX + 1)
  omega

theorem clip_short (short : line.length ≤ AT_LINE_MAX) : clip line = line := by
  rw [clip, Nat.div_eq_of_lt (Nat.lt_succ_of_le short), Nat.mul_zero, List.drop_zero]

/-- One more byte, or none is left. -/
theorem clip_concat (line : Str) (c : Char) :
    clip (line ++ [c]) = if (clip line).length < AT_LINE_MAX then clip line ++ [c] else [] := by
  have length := length_clip line
  have rest := length_clip (line ++ [c])
  rw [List.length_append, List.length_singleton] at rest
  rw [AT_LINE_MAX] at length rest ⊢
  split
  · next room =>
      have same : (line.length + 1) / 512 = line.length / 512 := by omega
      rw [clip, clip, AT_LINE_MAX, List.length_append, List.length_singleton, same,
        List.drop_append_of_le_length (Nat.mul_div_le line.length 512)]
  · next full =>
      apply List.eq_nil_of_length_eq_zero
      omega

/-- What a buffer is taken for leaves a trace. -/
theorem lineEnd_treats {t : AtLoop} (some : t.line ≠ []) :
    ((lineEnd a t).result = none → (lineEnd a t).calls = t.calls ++ [cstr t.line]) ∧
      ((lineEnd a t).calls = t.calls ∨ (lineEnd a t).calls = t.calls ++ [cstr t.line]) := by
  rw [lineEnd, if_neg some]
  split
  · exact ⟨fun none => (nomatch none), .inl rfl⟩
  · split
    · exact ⟨fun none => (nomatch none), .inl rfl⟩
    · split
      · exact ⟨fun none => (nomatch none), .inr rfl⟩
      · exact ⟨fun _ => rfl, .inr rfl⟩

/-- A line with a NUL ends the answer at most as an error with detail. -/
theorem answer_nul (a : AtCall) (short : line.length ≤ AT_LINE_MAX) (nul : '\x00' ∈ line) :
    (answer a.expect [line]).2 = [line] := by
  have other : line ≠ a.expect := fun same => a.text (same ▸ nul)
  have error : line ≠ "ERROR".toList := by
    rintro rfl
    revert nul
    decide
  have some : line ≠ [] := List.ne_nil_of_mem nul
  rw [answer, if_neg (Nat.not_lt.mpr short), if_neg other, if_neg error, if_neg some]
  split
  · rfl
  · rfl

/-- A line that is not kept. -/
theorem answer_long (long : AT_LINE_MAX < line.length) : answer expect [line] = (none, []) := by
  rw [answer, if_pos long]
  rfl

theorem lineEnd_plain {t : AtLoop} (open_ : t.result = none) (short : t.line.length ≤ AT_LINE_MAX)
    (some : t.line ≠ []) (plain : '\x00' ∉ t.line) :
    (lineEnd a t).result = (answer a.expect [t.line]).1 ∧
      (lineEnd a t).calls = t.calls ++ (answer a.expect [t.line]).2 ∧
        ((lineEnd a t).result = none → (lineEnd a t).line = []) := by
  have whole : cstr t.line = t.line := cstr_eq_self fun c mem => ne_of_mem_of_not_mem mem plain
  rw [lineEnd, if_neg some, whole, answer, if_neg (Nat.not_lt.mpr short)]
  split
  · exact ⟨rfl, (List.append_nil _).symm, fun none => (nomatch none)⟩
  · split
    · exact ⟨rfl, (List.append_nil _).symm, fun none => (nomatch none)⟩
    · split
      · exact ⟨rfl, rfl, fun none => (nomatch none)⟩
      · exact ⟨open_, rfl, fun _ => rfl⟩

/-- The loop takes a line for what it is exactly when the line is plain. -/
theorem lineEnd_iff {t : AtLoop} (open_ : t.result = none) (held : t.line = clip line) :
    ((lineEnd a t).result = (answer a.expect [line]).1 ∧
      (lineEnd a t).calls = t.calls ++ (answer a.expect [line]).2) ↔
        PlainLine a.expect line := by
  rw [PlainLine]
  by_cases blank : line = []
  · subst blank
    have none : t.line = [] := held
    rw [if_pos rfl, lineEnd, if_pos none, open_]
    by_cases empty : a.expect = []
    · rw [empty]
      exact ⟨fun both => (nomatch both.1), fun no => absurd rfl no⟩
    · have other : ¬ [] = a.expect := fun same => empty same.symm
      rw [answer, if_neg (by decide), if_neg other]
      exact ⟨fun _ => empty, fun _ => ⟨rfl, (List.append_nil _).symm⟩⟩
  · rw [if_neg blank]
    by_cases long : AT_LINE_MAX < line.length
    · rw [if_pos long, answer_long long, List.append_nil, ← length_clip, ← held]
      constructor
      · rintro ⟨result, calls⟩
        by_contra rest
        have some : t.line ≠ [] := mt List.length_eq_zero_iff.mpr rest
        have treated := (lineEnd_treats some).1 result
        rw [calls] at treated
        have lengths := congrArg List.length treated
        simp at lengths
      · intro nothing
        rw [lineEnd, if_pos (List.eq_nil_of_length_eq_zero nothing)]
        exact ⟨open_, rfl⟩
    · rw [if_neg long]
      have short := Nat.not_lt.mp long
      rw [clip_short short] at held
      subst held
      constructor
      · rintro ⟨-, calls⟩ nul
        rw [answer_nul a short nul] at calls
        rcases (lineEnd_treats (a := a) blank).2 with same | cut
        · rw [calls] at same
          have lengths := congrArg List.length same
          simp at lengths
        · rw [calls] at cut
          have same := List.append_cancel_left cut
          injection same with same
          have none := nul_notMem_cstr t.line
          rw [← same] at none
          exact none nul
      · intro plain
        obtain ⟨result, calls, -⟩ := lineEnd_plain open_ short blank plain
        exact ⟨result, calls⟩

theorem lineEnd_line {t : AtLoop} (open_ : t.result = none) (held : t.line = clip line)
    (plain : PlainLine a.expect line) (none : (lineEnd a t).result = none) :
    (lineEnd a t).line = [] := by
  by_cases blank : t.line = []
  · rw [lineEnd, if_pos blank]
    exact blank
  · by_cases long : AT_LINE_MAX < line.length
    · have some : line ≠ [] := List.ne_nil_of_length_pos (Nat.lt_of_le_of_lt (Nat.zero_le _) long)
      rw [PlainLine, if_neg some, if_pos long, ← length_clip, ← held] at plain
      exact absurd (List.eq_nil_of_length_eq_zero plain) blank
    · have short := Nat.not_lt.mp long
      rw [clip_short short] at held
      subst held
      rw [PlainLine, if_neg blank, if_neg long] at plain
      exact (lineEnd_plain open_ short blank plain).2.2 none

/-! ## The call -/

/-- The state before the loop returns. -/
structure AtInv (a : AtCall) (s : AtRun) : Prop where
  answered : Answered a s
  held : s.1.result = none → s.1.line = clip s.2.part

theorem AtInv.start (a : AtCall) : AtInv a AtRun.start where
  answered := ⟨rfl, rfl⟩
  held := fun _ => rfl

/-- While the loop waits, the time is not up and no line ended the answer. -/
theorem Answered.waiting (answered : Answered a s) (open_ : s.1.result = none) :
    s.2.expired = false ∧ (answer a.expect s.2.lines).1 = none := by
  have none := answered.1.symm.trans open_
  rw [Arrived.result, Option.or_eq_none_iff] at none
  refine ⟨?_, none.1⟩
  cases expired : s.2.expired with
  | false => rfl
  | true =>
      rw [expired] at none
      cases none.2

theorem atStep_open (open_ : s.1.result = none) (e : AtEvent) :
    atStep a s e = (cellAT a s.1 e, arrive a s.2 e) := by
  rw [atStep, if_pos open_]

theorem atStep_returned (done : s.1.result ≠ none) (e : AtEvent) :
    atStep a s e = (s.1, arrive a s.2 e) := by
  rw [atStep, if_neg done]

/-- Nothing that arrives changes an answer. -/
theorem arrive_returned {t : Arrived} (done : t.result a ≠ none) (e : AtEvent) :
    (arrive a t e).result a = t.result a ∧
      (answer a.expect (arrive a t e).lines).2 = (answer a.expect t.lines).2 := by
  cases verdict : (answer a.expect t.lines).1 with
  | some v =>
      have ends : (answer a.expect t.lines).1 ≠ none := by rw [verdict]; exact Option.some_ne_none v
      cases e with
      | test now =>
          refine ⟨?_, rfl⟩
          rw [Arrived.result, Arrived.result, verdict, arrive, verdict]
          rfl
      | byte c =>
          rw [arrive]
          split
          · exact ⟨rfl, rfl⟩
          · split
            · rw [Arrived.result, Arrived.result, answer_concat, if_neg ends, verdict]
              exact ⟨rfl, rfl⟩
            · exact ⟨rfl, rfl⟩
  | none =>
      cases expired : t.expired with
      | false =>
          rw [Arrived.result, verdict, expired] at done
          exact absurd rfl done
      | true =>
          cases e with
          | test now => simp [arrive, Arrived.result, expired]
          | byte c => simp [arrive, expired]

theorem AtInv.returned (inv : AtInv a s) (done : s.1.result ≠ none) (e : AtEvent) :
    AtInv a (atStep a s e) := by
  obtain ⟨result, calls⟩ := inv.answered
  have arrived : s.2.result a ≠ none := result ▸ done
  obtain ⟨same, lines⟩ := arrive_returned arrived e
  rw [atStep_returned done]
  exact ⟨⟨result.trans same.symm, calls.trans lines.symm⟩, fun none => absurd none done⟩

/-- A test of the loop is right exactly when it tells the time. -/
theorem AtInv.test_iff (inv : AtInv a s) (open_ : s.1.result = none) (now : Nat) :
    (Answered a (atStep a s (.test now)) ↔ AtOk a s (.test now)) ∧
      (AtOk a s (.test now) → AtInv a (atStep a s (.test now))) := by
  obtain ⟨running, silent⟩ := inv.answered.waiting open_
  have calls := inv.answered.2
  have up : (arrive a s.2 (.test now)).result a =
      if now < a.start + a.timeoutMs then none else some 0 := by
    rw [Arrived.result, arrive, silent, running, Bool.false_or, Option.none_or]
    by_cases early : now < a.start + a.timeoutMs
    · rw [if_pos early, if_neg]
      simpa using early
    · rw [if_neg early, if_pos]
      simpa using early
  have step : atStep a s (.test now) =
      (if a.waits now then s.1 else { s.1 with result := some 0 }, arrive a s.2 (.test now)) :=
    atStep_open open_ _
  have ok : AtOk a s (.test now) ↔ (a.waits now = true ↔ now < a.start + a.timeoutMs) :=
    ⟨fun ok => ok open_, fun same _ => same⟩
  have iff : Answered a (atStep a s (.test now)) ↔ AtOk a s (.test now) := by
    rw [step, Answered, up, ok]
    by_cases waits : a.waits now = true
    · rw [if_pos waits]
      by_cases early : now < a.start + a.timeoutMs
      · rw [if_pos early]
        exact ⟨fun _ => iff_of_true waits early, fun _ => ⟨open_, calls⟩⟩
      · rw [if_neg early]
        refine ⟨fun both => ?_, fun same => absurd (same.mp waits) early⟩
        exact absurd (open_.symm.trans both.1) (Option.some_ne_none 0).symm
    · rw [if_neg waits]
      by_cases early : now < a.start + a.timeoutMs
      · rw [if_pos early]
        exact ⟨fun both => (nomatch both.1), fun same => absurd (same.mpr early) waits⟩
      · rw [if_neg early]
        exact ⟨fun _ => iff_of_false waits early, fun _ => ⟨rfl, calls⟩⟩
  refine ⟨iff, fun ok => ⟨iff.mpr ok, fun none => ?_⟩⟩
  rw [step] at none ⊢
  by_cases waits : a.waits now = true
  · rw [if_pos waits]
    exact inv.held open_
  · rw [if_neg waits] at none
    cases none

/-- A line end is taken for what it is exactly when the line is plain. -/
theorem AtInv.line_iff (inv : AtInv a s) (open_ : s.1.result = none) :
    (Answered a (atStep a s (.byte '\n')) ↔ AtOk a s (.byte '\n')) ∧
      (AtOk a s (.byte '\n') → AtInv a (atStep a s (.byte '\n'))) := by
  obtain ⟨running, silent⟩ := inv.answered.waiting open_
  have held := inv.held open_
  have step : atStep a s (.byte '\n') =
      (lineEnd a s.1, ⟨[], s.2.lines ++ [s.2.part], s.2.expired⟩) := by
    rw [atStep_open open_, cellAT, if_neg (by decide), if_pos rfl, arrive, running, if_neg (by decide),
      if_pos rfl]
  have ok : AtOk a s (.byte '\n') ↔ PlainLine a.expect s.2.part :=
    ⟨fun ok => ok open_ rfl, fun plain _ _ => plain⟩
  have iff : Answered a (atStep a s (.byte '\n')) ↔ AtOk a s (.byte '\n') := by
    rw [step, Answered, Arrived.result, answer_concat, if_pos silent, running, ok,
      ← lineEnd_iff open_ held, inv.answered.2]
    simp
  refine ⟨iff, fun plain => ⟨iff.mpr plain, fun none => ?_⟩⟩
  rw [step] at none ⊢
  have cleared := lineEnd_line open_ held (ok.mp plain) none
  exact cleared.trans clip_nil.symm

/-- A byte inside a line is not answered. -/
theorem AtInv.byte (inv : AtInv a s) (open_ : s.1.result = none) (inside : c ≠ '\n') :
    AtInv a (atStep a s (.byte c)) := by
  obtain ⟨running, -⟩ := inv.answered.waiting open_
  have held := inv.held open_
  by_cases cr : c = '\r'
  · have same : atStep a s (.byte c) = s := by
      rw [atStep_open open_, cellAT, if_pos cr, arrive, if_pos (by simp [cr])]
    rw [same]
    exact inv
  · have step : atStep a s (.byte c) =
        (if s.1.line.length < AT_LINE_MAX then { s.1 with line := s.1.line ++ [c] }
          else { s.1 with line := [] }, { s.2 with part := s.2.part ++ [c] }) := by
      have reads : (s.2.expired || c = '\r' : Bool) = false := by simp [running, cr]
      rw [atStep_open open_, cellAT, if_neg cr, if_neg inside, arrive, reads,
        if_neg Bool.false_ne_true, if_neg inside]
    obtain ⟨result, calls⟩ := inv.answered
    rw [step]
    by_cases room : s.1.line.length < AT_LINE_MAX
    · rw [if_pos room]
      refine ⟨⟨result, calls⟩, fun _ => ?_⟩
      rw [clip_concat, ← held, if_pos room]
    · rw [if_neg room]
      refine ⟨⟨result, calls⟩, fun _ => ?_⟩
      rw [clip_concat, ← held, if_neg room]

/-- A step of the loop keeps its answer right exactly when its test and its line are. -/
theorem AtInv.step_iff (inv : AtInv a s) (e : AtEvent) :
    (Answered a (atStep a s e) ↔ AtOk a s e) ∧ (AtOk a s e → AtInv a (atStep a s e)) := by
  by_cases open_ : s.1.result = none
  · cases e with
    | test now => exact inv.test_iff open_ now
    | byte c =>
        by_cases inside : c = '\n'
        · subst inside
          exact inv.line_iff open_
        · have kept := inv.byte open_ inside
          exact ⟨⟨fun _ _ same => absurd same inside, fun _ => kept.answered⟩, fun _ => kept⟩
  · exact ⟨⟨fun _ none => absurd none open_, fun _ => (inv.returned open_ e).answered⟩,
      fun _ => inv.returned open_ e⟩

/-- The test tells the time as long as the counter does not wrap. -/
theorem waits_iff {now : Nat} (room : a.start % Word32.size + a.timeoutMs < Word32.size)
    (period : now / Word32.size = a.start / Word32.size) :
    a.waits now = true ↔ now < a.start + a.timeoutMs := by
  rw [AtCall.waits, decide_eq_true_eq]
  exact Word32.before_iff room period

/-- A call answers right at every step of its loop exactly when its tests tell the time and its
lines are plain until it returns. -/
theorem cell_at_iff (a : AtCall) (es : List AtEvent) :
    Meets (atStep a) (fun s e => Answered a (atStep a s e)) AtRun.start es ↔
      Meets (atStep a) (AtOk a) AtRun.start es :=
  @meets_congr AtRun AtEvent (atStep a) (fun s e => Answered a (atStep a s e)) (AtOk a) (AtInv a)
    (fun _ e inv answered => (inv.step_iff e).2 ((inv.step_iff e).1.mp answered))
    (fun _ e inv => (inv.step_iff e).1) AtRun.start (AtInv.start a) es

end

def okCall : AtCall where
  expect := "OK".toList
  timeoutMs := 2000
  start := 0
  text := by decide

/-- A line of 514 bytes. -/
def longLine : List AtEvent :=
  ((List.replicate 512 'x') ++ "OK\r\n".toList).map .byte

theorem long_line_answers :
    ¬ Meets (atStep okCall) (fun s e => Answered okCall (atStep okCall s e)) AtRun.start
      longLine := by
  decide +kernel

end Thesada.Cellular
