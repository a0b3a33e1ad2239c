import Mathlib.Data.List.GetD
import Mathlib.Logic.Function.Basic
import Thesada.Library.Machine
import Thesada.Shell.DeferredRing

/-!
# The serial console

`Shell::pumpConsole` collects typed bytes in one static buffer and passes each line to
`Shell::execute`. A command that blocks pumps the console again, so a line can be typed and run
while another one runs, and a line begun in one pump can end in another.

The calls that are running are a stack of frames, the innermost first. A buffer is a memory of
characters and an argument a place in it. Which bytes are there, when a handler pumps or calls
`execute` for another transport and when it returns are events.
-/

namespace Thesada.Shell

open CString Machine

abbrev Mem := Nat → Char

def SHELL_LINE_MAX : Nat := 1024
def SHELL_ARGS_MAX : Nat := 16
def SHELL_NEST_MAX : Nat := 2

inductive ShellLine where
  | ok
  | tooLong
  | tooManyArgs
  deriving DecidableEq

/-- The C string at `p`, in a buffer that ends `left` places on. -/
def readStr (m : Mem) (p : Nat) : (left : Nat) → Str
  | 0 => []
  | left + 1 => if m p = '\x00' then [] else m p :: readStr m (p + 1) left

/-- A C string with its terminator, at the start of a buffer. -/
def copyStr (m : Mem) (text : Str) : Mem :=
  fun i => if i ≤ text.length then text.getD i '\x00' else m i

def isBlank (c : Char) : Bool := c = ' ' || c = '\t'

def skipBlanks (m : Mem) : (left : Nat) → Nat → Nat
  | 0, p => p
  | left + 1, p => if isBlank (m p) then skipBlanks m left (p + 1) else p

def skipWord (m : Mem) : (left : Nat) → Nat → Nat
  | 0, p => p
  | left + 1, p => if m p ≠ '\x00' && !isBlank (m p) then skipWord m left (p + 1) else p

/-- Back over the blanks before `p`. -/
def trimEnd (m : Mem) : (left : Nat) → Nat → Nat
  | 0, p => p
  | left + 1, p => if isBlank (m (p - 1)) then trimEnd m left (p - 1) else p

/-- The loop of `shellSplitLine`. Each turn but the last finds an argument. -/
def splitWords (restFrom : Nat) : (turns : Nat) → Mem → Nat → List Nat → ShellLine × Mem × List Nat
  | 0, m, _, argv => (.ok, m, argv)
  | turns + 1, m, p, argv =>
      let p := skipBlanks m SHELL_LINE_MAX p
      if m p = '\x00' then (.ok, m, argv)
      else if SHELL_ARGS_MAX ≤ argv.length then (.tooManyArgs, m, [])
      else if argv.length = restFrom && 0 < restFrom then
        let last := p + (readStr m p SHELL_LINE_MAX).length
        (.ok, Function.update m (trimEnd m SHELL_LINE_MAX last) '\x00', argv ++ [p])
      else
        let e := skipWord m SHELL_LINE_MAX p
        if m e ≠ '\x00' then
          splitWords restFrom turns (Function.update m e '\x00') (e + 1) (argv ++ [p])
        else splitWords restFrom turns m e (argv ++ [p])

/-- The buffer and the places of the arguments in it. -/
def shellSplitLine (line : Str) (buf : Mem) (restFrom : Nat) : ShellLine × Mem × List Nat :=
  if !shellFits (some line) SHELL_LINE_MAX then (.tooLong, buf, [])
  else splitWords restFrom (SHELL_ARGS_MAX + 1) (copyStr buf line) 0 []

/-- A free parse buffer for a command at this depth. -/
def shellParseSlot (depth : Nat) : Option Nat := if depth < SHELL_NEST_MAX then some depth else none

structure ShellEntry where
  name : Str
  restFrom : Nat

/-- The text of an argument. -/
def argText (m : Mem) (p : Nat) : Str := readStr m p SHELL_LINE_MAX

inductive Frame where
  | pump
  /-- A running handler: its parse buffer, its `argv`, and what that held at the call. -/
  | handler (slot : Nat) (argv : List Nat) (args : List Str)

structure ConsoleRun where
  buf : Mem
  pos : Nat
  overflow : Bool
  parseBuf : Nat → Mem
  depth : Nat
  frames : List Frame
  /-- The bytes read so far. -/
  typed : Str
  /-- The lines the console passed to `execute`. -/
  passed : List Str

def findCommand (commands : List ShellEntry) (m : Mem) (argv : List Nat) : Option ShellEntry :=
  argv.head?.bind fun p => commands.find? fun cmd => strcaseeq (argText m p) cmd.name

/-- `Shell::execute` up to the call of the handler. -/
def execute (commands : List ShellEntry) (s : ConsoleRun) (line : Str) : ConsoleRun :=
  if line = [] then s
  else
    match shellParseSlot s.depth with
    | none => s
    | some slot =>
        let first := shellSplitLine line (s.parseBuf slot) 1
        match if first.1 = .ok then findCommand commands first.2.1 first.2.2 else none with
        | none => { s with parseBuf := Function.update s.parseBuf slot first.2.1 }
        | some cmd =>
            let again := shellSplitLine line first.2.1 cmd.restFrom
            let parsed := { s with parseBuf := Function.update s.parseBuf slot again.2.1 }
            if again.1 ≠ .ok then parsed
            else
              { parsed with
                depth := s.depth + 1
                frames :=
                  .handler slot again.2.2 (again.2.2.map (argText again.2.1)) :: s.frames }

def isEnd (c : Char) : Bool := c = '\n' || c = '\r'

/-- One byte in the loop of `pumpConsole`. -/
def readByte (commands : List ShellEntry) (s : ConsoleRun) (c : Char) : ConsoleRun :=
  let s := { s with typed := s.typed ++ [c] }
  if isEnd c then
    let ended := { s with buf := Function.update s.buf s.pos '\x00', pos := 0, overflow := false }
    if s.overflow then ended
    else if 0 < s.pos then
      let line := readStr ended.buf 0 DEFERRED_LINE_LEN
      execute commands { ended with passed := s.passed ++ [line] } line
    else ended
  else if s.pos < DEFERRED_LINE_LEN - 1 then
    { s with buf := Function.update s.buf s.pos c, pos := s.pos + 1 }
  else { s with overflow := true }

inductive ConsoleEvent where
  /-- The main loop or a running handler pumps. -/
  | pump (allowed : Bool)
  /-- A byte is there for the innermost pump. -/
  | byte (c : Char)
  /-- No byte is there. -/
  | idle
  /-- A running handler or the main loop executes a line of another transport. -/
  | execute (line : Str)
  /-- The innermost handler returns. -/
  | finish

def consoleStep (commands : List ShellEntry) (s : ConsoleRun) : ConsoleEvent → ConsoleRun
  | .pump allowed =>
      match s.frames with
      | .pump :: _ => s
      | _ =>
          if allowed then { s with frames := .pump :: s.frames }
          else { s with pos := 0, overflow := false }
  | .byte c =>
      match s.frames with
      | .pump :: _ => readByte commands s c
      | _ => s
  | .idle =>
      match s.frames with
      | .pump :: outer => { s with frames := outer }
      | _ => s
  | .execute line =>
      match s.frames with
      | .pump :: _ => s
      | _ => execute commands s line
  | .finish =>
      match s.frames with
      | .handler .. :: outer => { s with frames := outer, depth := s.depth - 1 }
      | _ => s

def ConsoleRun.boot : ConsoleRun where
  buf := fun _ => '\x00'
  pos := 0
  overflow := false
  parseBuf := fun _ _ => '\x00'
  depth := 0
  frames := []
  typed := []
  passed := []

/-- The mode allows the console and no byte is NUL. -/
def Typeable : ConsoleEvent → Prop
  | .pump allowed => allowed = true
  | .byte c => c ≠ '\x00'
  | _ => True

instance : (e : ConsoleEvent) → Decidable (Typeable e)
  | .pump _ => inferInstanceAs (Decidable (_ = _))
  | .byte _ => inferInstanceAs (Decidable (_ ≠ _))
  | .idle => inferInstanceAs (Decidable True)
  | .execute _ => inferInstanceAs (Decidable True)
  | .finish => inferInstanceAs (Decidable True)

/-- The lines that have ended, and the one that has not. -/
def lineStep (lines : List Str × Str) (c : Char) : List Str × Str :=
  if isEnd c then (lines.1 ++ [lines.2], []) else (lines.1, lines.2 ++ [c])

def linesOf (typed : Str) : List Str × Str := typed.foldl lineStep ([], [])

/-- A line that is passed on. -/
def Passes (line : Str) : Bool := 0 < line.length && line.length ≤ DEFERRED_LINE_LEN - 1

/-! ## C strings -/

theorem readStr_eq {m : Mem} {p left : Nat} {text : Str} (fits : text.length < left)
    (plain : ∀ c ∈ text, c ≠ '\x00')
    (same : ∀ i, i ≤ text.length → m (p + i) = text.getD i '\x00') :
    readStr m p left = text := by
  induction text generalizing p left with
  | nil =>
      obtain ⟨left, rfl⟩ : ∃ n, left = n + 1 := ⟨left - 1, by simp at fits; omega⟩
      rw [readStr, if_pos]
      exact same 0 (Nat.le_refl _)
  | cons c text ih =>
      obtain ⟨left, rfl⟩ : ∃ n, left = n + 1 := ⟨left - 1, by simp at fits; omega⟩
      have head : m p = c := same 0 (Nat.zero_le _)
      rw [readStr, head, if_neg (plain c List.mem_cons_self)]
      congr 1
      apply ih (Nat.lt_of_succ_lt_succ fits) fun d mem => plain d (List.mem_cons_of_mem c mem)
      intro i le
      have next := same (i + 1) (Nat.succ_le_succ le)
      rw [List.getD_cons_succ] at next
      rw [← next, Nat.add_assoc, Nat.add_comm 1 i]

/-! ## The frames -/

/-- The parse buffers of the running handlers, the innermost first. -/
def slotsOf (frames : List Frame) : List Nat :=
  frames.filterMap fun
    | .pump => none
    | .handler slot .. => some slot

theorem mem_slotsOf {frames : List Frame} {slot : Nat} {argv : List Nat} {args : List Str}
    (mem : Frame.handler slot argv args ∈ frames) : slot ∈ slotsOf frames :=
  List.mem_filterMap.mpr ⟨_, mem, rfl⟩

/-- Each running handler has a parse buffer of its own, and that still holds its arguments. -/
structure ConsoleRun.Framed (s : ConsoleRun) : Prop where
  slots : slotsOf s.frames = (List.range s.depth).reverse
  args : ∀ slot argv args, Frame.handler slot argv args ∈ s.frames →
    argv.map (argText (s.parseBuf slot)) = args

/-- What `execute` comes to: its parse buffer is written, and a handler may run in it. -/
theorem execute_cases (commands : List ShellEntry) (s : ConsoleRun) (line : Str) :
    execute commands s line = s ∨
      ∃ m, execute commands s line =
          { s with parseBuf := Function.update s.parseBuf s.depth m } ∨
        ∃ argv, execute commands s line =
          { s with
            parseBuf := Function.update s.parseBuf s.depth m
            depth := s.depth + 1
            frames := .handler s.depth argv (argv.map (argText m)) :: s.frames } := by
  by_cases empty : line = []
  · exact .inl (by rw [execute, if_pos empty])
  by_cases room : s.depth < SHELL_NEST_MAX
  · have slot : shellParseSlot s.depth = some s.depth := if_pos room
    simp only [execute, if_neg empty, slot]
    refine .inr ?_
    split
    · exact ⟨_, .inl rfl⟩
    · split
      · exact ⟨_, .inl rfl⟩
      · exact ⟨_, .inr ⟨_, rfl⟩⟩
  · have busy : shellParseSlot s.depth = none := if_neg room
    exact .inl (by simp only [execute, if_neg empty, busy])

namespace ConsoleRun.Framed

variable {s : ConsoleRun} (h : s.Framed)

include h

/-- Writing the parse buffer of the next command leaves the arguments of those that run. -/
theorem args_beside (m : Mem) {slot : Nat} {argv : List Nat} {args : List Str}
    (mem : Frame.handler slot argv args ∈ s.frames) :
    argv.map (argText (Function.update s.parseBuf s.depth m slot)) = args := by
  have lower : slot < s.depth := by
    have inside := mem_slotsOf mem
    rw [h.slots, List.mem_reverse, List.mem_range] at inside
    exact inside
  rw [Function.update_of_ne (Nat.ne_of_lt lower)]
  exact h.args slot argv args mem

theorem execute (commands : List ShellEntry) (line : Str) :
    (Shell.execute commands s line).Framed := by
  obtain same | ⟨m, parsed | ⟨argv, runs⟩⟩ := execute_cases commands s line
  · rw [same]
    exact h
  · rw [parsed]
    exact ⟨h.slots, fun slot argv args mem => h.args_beside m mem⟩
  · rw [runs]
    constructor
    · show s.depth :: slotsOf s.frames = _
      rw [h.slots, List.range_succ, List.reverse_append]
      rfl
    · intro slot argv' args mem
      obtain new | outer := List.mem_cons.mp mem
      · cases new
        show argv.map (argText (Function.update s.parseBuf s.depth m s.depth)) = _
        rw [Function.update_self]
      · exact h.args_beside m outer

theorem readByte (commands : List ShellEntry) (c : Char) :
    (Shell.readByte commands s c).Framed := by
  simp only [Shell.readByte]
  split
  · split
    · exact ⟨h.slots, h.args⟩
    · split
      · apply ConsoleRun.Framed.execute
        exact ⟨h.slots, h.args⟩
      · exact ⟨h.slots, h.args⟩
  · split
    · exact ⟨h.slots, h.args⟩
    · exact ⟨h.slots, h.args⟩

theorem step (commands : List ShellEntry) (e : ConsoleEvent) :
    (consoleStep commands s e).Framed := by
  cases e with
  | pump allowed =>
      simp only [consoleStep]
      split
      · exact h
      · split
        · refine ⟨h.slots, ?_⟩
          intro slot argv args mem
          obtain new | outer := List.mem_cons.mp mem
          · cases new
          · exact h.args slot argv args outer
        · exact ⟨h.slots, h.args⟩
  | byte c =>
      simp only [consoleStep]
      split
      · exact h.readByte commands c
      · exact h
  | idle =>
      simp only [consoleStep]
      split
      · rename_i outer frames
        have slots := h.slots
        rw [frames] at slots
        refine ⟨slots, ?_⟩
        intro slot argv args mem
        exact h.args slot argv args (frames ▸ List.mem_cons_of_mem _ mem)
      · exact h
  | execute line =>
      simp only [consoleStep]
      split
      · exact h
      · exact h.execute commands line
  | finish =>
      simp only [consoleStep]
      split
      · rename_i slot argv args outer frames
        have slots := h.slots
        rw [frames] at slots
        have left : slot :: slotsOf outer = (List.range s.depth).reverse := slots
        constructor
        · cases depth : s.depth with
          | zero =>
              rw [depth] at left
              cases left
          | succ depth =>
              rw [depth, List.range_succ, List.reverse_append] at left
              exact (List.cons.inj left).2
        · intro slot' argv' args' mem
          exact h.args slot' argv' args' (frames ▸ List.mem_cons_of_mem _ mem)
      · exact h

end ConsoleRun.Framed

/-! ## The lines -/

theorem linesOf_snoc (typed : Str) (c : Char) :
    linesOf (typed ++ [c]) = lineStep (linesOf typed) c := by
  rw [linesOf, List.foldl_append]
  rfl

/-- The buffer holds the line that has not ended, and the lines that have were passed on. -/
structure ConsoleRun.Follows (s : ConsoleRun) : Prop where
  passed : s.passed = (linesOf s.typed).1.filter Passes
  pos : s.pos = min (linesOf s.typed).2.length (DEFERRED_LINE_LEN - 1)
  overflow : s.overflow = decide (DEFERRED_LINE_LEN - 1 < (linesOf s.typed).2.length)
  held : ∀ i < s.pos, s.buf i = (linesOf s.typed).2.getD i '\x00'
  plain : ∀ c ∈ (linesOf s.typed).2, c ≠ '\x00'

/-- `execute` leaves the console's own state alone, from which the lines follow. -/
theorem ConsoleRun.Follows.execute {s : ConsoleRun} (h : s.Follows) (commands : List ShellEntry)
    (line : Str) : (Shell.execute commands s line).Follows := by
  obtain same | ⟨m, parsed | ⟨argv, runs⟩⟩ := execute_cases commands s line
  · rw [same]
    exact h
  · rw [parsed]
    exact ⟨h.passed, h.pos, h.overflow, h.held, h.plain⟩
  · rw [runs]
    exact ⟨h.passed, h.pos, h.overflow, h.held, h.plain⟩

/-- An empty buffer, when the lines up to a line end were passed on. -/
theorem follows_ended {s : ConsoleRun} {typed : Str} {c : Char} (ends : isEnd c = true)
    (text : s.typed = typed ++ [c]) (pos : s.pos = 0) (overflow : s.overflow = false)
    (passed : s.passed = ((linesOf typed).1 ++ [(linesOf typed).2]).filter Passes) :
    s.Follows := by
  have lines : linesOf s.typed = ((linesOf typed).1 ++ [(linesOf typed).2], []) := by
    rw [text, linesOf_snoc, lineStep, if_pos ends]
  refine ⟨?_, ?_, ?_, ?_, ?_⟩
  · rw [passed, lines]
  · rw [pos, lines]
    rfl
  · rw [overflow, lines]
    rfl
  · intro i low
    rw [pos] at low
    exact absurd low (Nat.not_lt_zero i)
  · rw [lines]
    simp

theorem filter_passes_snoc {lines : List Str} {line : Str} (refused : Passes line = false) :
    (lines ++ [line]).filter Passes = lines.filter Passes := by
  have drops : ¬Passes line = true := by simp [refused]
  rw [List.filter_append, List.filter_cons_of_neg drops, List.filter_nil, List.append_nil]

namespace ConsoleRun.Follows

variable {s : ConsoleRun} (h : s.Follows)

include h

theorem overlong (long : s.overflow = true) : Passes (linesOf s.typed).2 = false := by
  have behind : DEFERRED_LINE_LEN - 1 < (linesOf s.typed).2.length :=
    of_decide_eq_true (h.overflow ▸ long)
  rw [Passes, decide_eq_false (Nat.not_le_of_lt behind), Bool.and_false]

/-- A line that has not run over is whole in the buffer. -/
theorem whole (short : s.overflow = false) :
    s.pos = (linesOf s.typed).2.length ∧ (linesOf s.typed).2.length ≤ DEFERRED_LINE_LEN - 1 := by
  have within : (linesOf s.typed).2.length ≤ DEFERRED_LINE_LEN - 1 :=
    Nat.not_lt.mp (of_decide_eq_false (h.overflow ▸ short))
  exact ⟨h.pos.trans (Nat.min_eq_left within), within⟩

/-- With its terminator it is the line that is executed. -/
theorem readStr_line (short : s.overflow = false) :
    readStr (Function.update s.buf s.pos '\x00') 0 DEFERRED_LINE_LEN = (linesOf s.typed).2 := by
  obtain ⟨whole, within⟩ := h.whole short
  have cap : DEFERRED_LINE_LEN = 256 := rfl
  apply readStr_eq (by omega) h.plain
  intro i le
  rw [Nat.zero_add]
  obtain inside | last := Nat.lt_or_eq_of_le le
  · rw [Function.update_of_ne (by omega), h.held i (by omega)]
  · rw [last, whole, Function.update_self, List.getD_eq_default _ _ (Nat.le_refl _)]

/-- A line end: the line is passed on when it fits and is not empty. -/
theorem readByte_end (commands : List ShellEntry) {c : Char} (ends : isEnd c = true) :
    (Shell.readByte commands s c).Follows := by
  simp only [Shell.readByte, ends, if_true]
  split
  · next long =>
      apply follows_ended ends rfl rfl rfl
      rw [filter_passes_snoc (h.overlong long)]
      exact h.passed
  · next short =>
      have short := Bool.eq_false_iff.mpr short
      obtain ⟨whole, within⟩ := h.whole short
      split
      · next some =>
          apply ConsoleRun.Follows.execute
          apply follows_ended ends rfl rfl rfl
          have passes : Passes (linesOf s.typed).2 = true := by
            rw [Passes, decide_eq_true (whole ▸ some), decide_eq_true within]
            rfl
          rw [h.readStr_line short, List.filter_append, List.filter_cons_of_pos passes,
            List.filter_nil, ← h.passed]
      · next none =>
          apply follows_ended ends rfl rfl rfl
          have refused : Passes (linesOf s.typed).2 = false := by
            rw [Passes, decide_eq_false (whole ▸ none), Bool.false_and]
          rw [filter_passes_snoc refused]
          exact h.passed

/-- A byte of a line: it is kept, or dropped once the buffer is full. -/
theorem readByte_goes (commands : List ShellEntry) {c : Char} (goes : ¬isEnd c = true)
    (plain : c ≠ '\x00') : (Shell.readByte commands s c).Follows := by
  have cap : DEFERRED_LINE_LEN = 256 := rfl
  have lines : linesOf (s.typed ++ [c]) = ((linesOf s.typed).1, (linesOf s.typed).2 ++ [c]) := by
    rw [linesOf_snoc, lineStep, if_neg goes]
  have plain' : ∀ d ∈ (linesOf s.typed).2 ++ [c], d ≠ '\x00' := by
    intro d mem
    obtain old | new := List.mem_append.mp mem
    · exact h.plain d old
    · rw [List.mem_singleton.mp new]
      exact plain
  have length : ((linesOf s.typed).2 ++ [c]).length = (linesOf s.typed).2.length + 1 := by
    rw [List.length_append]
    rfl
  have pos := h.pos
  have kept : ∀ i < s.pos, s.buf i = ((linesOf s.typed).2 ++ [c]).getD i '\x00' := by
    intro i low
    rw [h.held i low, List.getD_append]
    omega
  simp only [Shell.readByte, goes, Bool.false_eq_true, if_false]
  split
  · next room =>
      have whole : s.pos = (linesOf s.typed).2.length := by omega
      refine ⟨?_, ?_, ?_, ?_, ?_⟩
      all_goals simp only [lines]
      · exact h.passed
      · rw [length]
        omega
      · rw [h.overflow, length, decide_eq_decide]
        omega
      · intro i low
        obtain inside | last := Nat.lt_or_eq_of_le (Nat.lt_succ_iff.mp low)
        · rw [Function.update_of_ne (Nat.ne_of_lt inside)]
          exact kept i inside
        · rw [last, Function.update_self, whole, List.getD_append_right _ _ _ _ (Nat.le_refl _),
            Nat.sub_self]
          rfl
      · exact plain'
  · refine ⟨?_, ?_, ?_, ?_, ?_⟩
    all_goals simp only [lines]
    · exact h.passed
    · rw [length]
      omega
    · rw [length, eq_comm, decide_eq_true_eq]
      omega
    · exact kept
    · exact plain'

theorem readByte (commands : List ShellEntry) {c : Char} (plain : c ≠ '\x00') :
    (Shell.readByte commands s c).Follows := by
  by_cases ends : isEnd c = true
  · exact h.readByte_end commands ends
  · exact h.readByte_goes commands ends plain

end ConsoleRun.Follows

theorem ConsoleRun.Follows.step {s : ConsoleRun} (h : s.Follows) (commands : List ShellEntry)
    {e : ConsoleEvent} (typeable : Typeable e) : (consoleStep commands s e).Follows := by
  have same {frames : List Frame} {depth : Nat} : Follows { s with frames, depth } :=
    ⟨h.passed, h.pos, h.overflow, h.held, h.plain⟩
  cases e with
  | pump allowed =>
      have allowed : allowed = true := typeable
      simp only [consoleStep, allowed, if_true]
      split
      · exact h
      · exact same
  | byte c =>
      simp only [consoleStep]
      split
      · exact h.readByte commands typeable
      · exact h
  | idle =>
      simp only [consoleStep]
      split
      · exact same
      · exact h
  | execute line =>
      simp only [consoleStep]
      split
      · exact h
      · exact h.execute commands line
  | finish =>
      simp only [consoleStep]
      split
      · exact same
      · exact h

/-- However the pumps nest: the lines passed to `execute` are those that have ended and fit the
buffer, each once and in the order they ended, and a running handler still has the arguments it
was called with. -/
theorem console_runs (commands : List ShellEntry) (es : List ConsoleEvent)
    (typeable : ∀ e ∈ es, Typeable e) :
    (run (consoleStep commands) .boot es).passed =
        (linesOf (run (consoleStep commands) .boot es).typed).1.filter Passes ∧
      ∀ slot argv args,
        Frame.handler slot argv args ∈ (run (consoleStep commands) .boot es).frames →
          argv.map (argText ((run (consoleStep commands) .boot es).parseBuf slot)) = args := by
  have start : ConsoleRun.boot.Follows ∧ ConsoleRun.boot.Framed := by
    refine ⟨⟨rfl, rfl, rfl, fun i low => absurd low (Nat.not_lt_zero i), ?_⟩, rfl, ?_⟩
    · simp [ConsoleRun.boot, linesOf]
    · simp [ConsoleRun.boot]
  have kept : (run (consoleStep commands) .boot es).Follows ∧
      (run (consoleStep commands) .boot es).Framed := by
    generalize ConsoleRun.boot = s at *
    induction es generalizing s with
    | nil => exact start
    | cons e es ih =>
        apply ih fun e' mem => typeable e' (List.mem_cons_of_mem e mem)
        exact ⟨start.1.step commands (typeable e List.mem_cons_self), start.2.step commands e⟩
  exact ⟨kept.1.passed, kept.2.args⟩

/-- A blocking command pumps the console: one line runs inside it, and one begins there and ends
after it. -/
def typedInside : List ConsoleEvent :=
  .pump true :: ("wait 5\n".toList.map .byte ++ .pump true :: ("version\r".toList.map .byte ++
    .finish :: ("\nver".toList.map .byte ++ [.idle, .finish] ++
      "sion\n".toList.map .byte ++ [.finish, .idle])))

def waitCommands : List ShellEntry := [⟨"wait".toList, 0⟩, ⟨"version".toList, 0⟩]

theorem console_runs_inside :
    (run (consoleStep waitCommands) .boot typedInside).passed =
        (linesOf (run (consoleStep waitCommands) .boot typedInside).typed).1.filter Passes ∧
      ∀ slot argv args,
        Frame.handler slot argv args ∈
            (run (consoleStep waitCommands) .boot typedInside).frames →
          argv.map (argText ((run (consoleStep waitCommands) .boot typedInside).parseBuf slot)) =
            args :=
  console_runs waitCommands typedInside (by decide)

example : (run (consoleStep waitCommands) .boot typedInside).passed =
    ["wait 5".toList, "version".toList, "version".toList] := by decide +kernel

end Thesada.Shell
