import Mathlib.Data.List.Basic
import Thesada.Library.CString
import Thesada.Library.Machine

/-!
# Names resolved by the modem

`+CDNSGIP` is answered with `OK` at once and with a line that carries the addresses at some later
time. The modem, other commands and `resolveHost` share one stream of lines: stale bytes are
drained before a command, the command reads up to its `OK`, and what comes next is searched for
an answer until one is found or the time is up.

The modem answers each command that it takes once and in order. What it sends while other
commands run, and when anything is read or times out, is the environment's choice.
-/

namespace Thesada.Cellular

open CString

def TAG : Str := "+CDNSGIP:".toList

/-! ## The lines of the modem -/

/-- A text that an AT string parameter can carry. -/
def quotable (s : Str) : Bool := s.all fun c => c ≠ '"' && c ≠ '\n'

abbrev HostName := { s : Str // quotable s = true }

/-- The longest text of an address, with its terminator. -/
def INET6_ADDRSTRLEN : Nat := 46

structure Address where
  text : Str
  plain : quotable text = true
  short : text.length < INET6_ADDRSTRLEN

abbrev OtherLine := { s : Str // '\n' ∉ s ∧ strstr TAG s = none }

inductive Line where
  | other (text : OtherLine)
  /-- An answer: an error code, or the first address and the others. -/
  | answer (name : HostName) (result : Except Nat (Address × List Address))

def quoted (s : Str) : Str := '"' :: (s ++ ['"'])

def Line.text : Line → Str
  | .other text => text
  | .answer _ (.error err) => TAG ++ " 0,".toList ++ Nat.toDigits 10 err ++ ['\r']
  | .answer name (.ok (first, more)) =>
      TAG ++ " 1,".toList ++ quoted name ++ ',' :: quoted first.text ++
        (more.flatMap fun a => ',' :: quoted a.text) ++ ['\r']

def Line.bytes (l : Line) : Str := l.text ++ ['\n']

def Line.name : Line → List Str
  | .other _ => []
  | .answer name _ => [name]

/-- The modem reported this address for this name. -/
def Reports (sent : List Line) (name address : Str) : Prop :=
  ∃ (host : HostName) (first : Address) (more : List Address),
    Line.answer host (.ok (first, more)) ∈ sent ∧ host = name ∧
      ∃ a ∈ first :: more, a.text = address

/-! ## Reading the answer -/

/-- `indexOf` of an Arduino `String`. -/
def indexOf (c : Char) (s : Str) (start : Nat) : Option Nat :=
  ((s.drop start).idxOf? c).map (start + ·)

/-- Behind a position that was found, or the start of the text. -/
def behind (at_ : Option Nat) : Nat := at_.elim 0 (· + 1)

/-- The whole line of an answer, from its tag on. -/
def answerLine (buf : Str) : Option Str :=
  (strstr TAG buf).bind fun rest =>
    if rest.contains '\n' then some (rest.takeWhile (· ≠ '\n')) else none

/-- The first address in the line of a success. -/
def lineAddress (l : Str) : Option Str :=
  match indexOf ',' l 0 with
  | none => none
  | some firstComma =>
      if 0 < firstComma && ((l.take firstComma).drop TAG.length).contains '1' then
        let q1 := indexOf '"' l firstComma
        let q2 := indexOf '"' l (behind q1)
        let q3 := indexOf '"' l (behind q2)
        let q4 := indexOf '"' l (behind q3)
        match q3, q4 with
        | some q3, some q4 =>
            if 0 < q3 ∧ q3 < q4 then some ((l.take q4).drop (q3 + 1)) else none
        | _, _ => none
      else none

/-! ## The machine -/

/-- `cellAT`'s line after a byte, or what it returns. -/
def cellATByte (line : Str) (c : Char) : Except Int Str :=
  if c = '\r' then .ok line
  else if c = '\n' then
    let text := cstr line
    if line = [] then .ok line
    else if text = "OK".toList then .error 1
    else if text = "ERROR".toList then .error (-1)
    else if "+CME ERROR".toList.isPrefixOf text || "+CMS ERROR".toList.isPrefixOf text then
      .error (-1)
    else .ok []
  else if line.length < 511 then .ok (line ++ [c])
  else .ok []

inductive Phase where
  | idle
  | command (host : Str) (outLen : Nat) (line : Str)
  | answer (host : Str) (outLen : Nat) (buf : Str)

structure Cell where
  /-- The names of the commands that the modem took and did not answer yet. -/
  pending : List HostName
  sent : List Line
  /-- How many of the bytes sent were read. -/
  read : Nat
  phase : Phase
  /-- The calls that returned true, with what they wrote to `out`. -/
  returned : List (Str × Str)

def Cell.start : Cell := ⟨[], [], 0, .idle, []⟩

def stream (sent : List Line) : Str := sent.flatMap Line.bytes

def Cell.unread (s : Cell) : Str := (stream s.sent).drop s.read

inductive Event where
  /-- The modem sends a line that answers no name. -/
  | urc (text : OtherLine)
  /-- The modem answers the oldest command. -/
  | answer (result : Except Nat (Address × List Address))
  /-- Something else reads `n` bytes. -/
  | elsewhere (n : Nat)
  /-- A call drains `n` bytes and sends its command, which the modem takes or not. -/
  | resolveHost (host : Str) (outLen n : Nat) (taken : Bool)
  /-- `cellAT` reads a byte. -/
  | byte
  /-- The loop for the answer reads `n` bytes. -/
  | poll (n : Nat)
  | timeout

/-- The address that a call copies to `foundIp` and then to `out`. -/
def copied (outLen : Nat) (address : Str) : Str := (address.take 47).take (outLen - 1)

/-- A command that fits and that the modem takes. -/
def takeCommand (pending : List HostName) (host : Str) (taken : Bool) : List HostName :=
  if ok : quotable host = true then if taken then pending ++ [⟨host, ok⟩] else pending else pending

def step (s : Cell) : Event → Cell
  | .urc text => { s with sent := s.sent ++ [.other text] }
  | .answer result =>
      match s.pending with
      | [] => s
      | name :: pending => { s with pending, sent := s.sent ++ [.answer name result] }
  | .elsewhere n =>
      match s.phase with
      | .idle => { s with read := s.read + (s.unread.take n).length }
      | _ => s
  | .resolveHost host outLen n taken =>
      match s.phase with
      | .idle =>
          if outLen = 0 then s
          else if 160 ≤ ("+CDNSGIP=\"".toList ++ host ++ "\",2,5000".toList).length then s
          else
            { s with
              read := s.read + (s.unread.take n).length
              pending := takeCommand s.pending host taken
              phase := .command host outLen [] }
      | _ => s
  | .byte =>
      match s.phase, s.unread with
      | .command host outLen line, c :: _ =>
          { s with
            read := s.read + 1
            phase :=
              match cellATByte line c with
              | .ok line => .command host outLen line
              | .error 1 => .answer host outLen []
              | .error _ => .idle }
      | _, _ => s
  | .poll n =>
      match s.phase with
      | .answer host outLen buf =>
          let buf := buf ++ s.unread.take n
          let s := { s with read := s.read + (s.unread.take n).length }
          match answerLine buf with
          | none => { s with phase := .answer host outLen buf }
          | some l =>
              { s with
                phase := .idle
                returned := s.returned ++
                  ((lineAddress l).map fun ip => (host, copied outLen ip)).toList }
      | _ => s
  | .timeout => { s with phase := .idle }

/-! ## What the modem owes -/

/-- The names of the answers that begin at or behind byte `k`. -/
def unreadNames : List Line → Nat → List Str
  | [], _ => []
  | l :: ls, k => (if k = 0 then l.name else []) ++ unreadNames ls (k - l.bytes.length)

/-- The names that answers behind byte `k` are for: those sent, and those still to come. -/
def Cell.owed (s : Cell) (k : Nat) : List Str :=
  unreadNames s.sent k ++ s.pending.map Subtype.val

/-- A call starts when the modem owes no answer for another name, with room for an address. -/
def Settled (s : Cell) : Event → Prop
  | .resolveHost host outLen n _ =>
      (∀ name ∈ s.owed (s.read + (s.unread.take n).length), name = host) ∧
        INET6_ADDRSTRLEN ≤ outLen
  | _ => True

instance : ∀ (s : Cell) (e : Event), Decidable (Settled s e)
  | s, .resolveHost host outLen n _ =>
      inferInstanceAs (Decidable
        ((∀ name ∈ s.owed (s.read + (s.unread.take n).length), name = host) ∧
          INET6_ADDRSTRLEN ≤ outLen))
  | _, .urc _ | _, .answer _ | _, .elsewhere _ | _, .byte | _, .poll _ | _, .timeout =>
      isTrue trivial

/-- Each call that returned true has an address that the modem reported for its host. -/
def Right (s : Cell) : Prop := ∀ call ∈ s.returned, Reports s.sent call.1 call.2

/-! ## The stream -/

theorem stream_append (a b : List Line) : stream (a ++ b) = stream a ++ stream b :=
  List.flatMap_append

theorem unreadNames_append (a b : List Line) (k : Nat) :
    unreadNames (a ++ b) k = unreadNames a k ++ unreadNames b (k - (stream a).length) := by
  induction a generalizing k with
  | nil => rfl
  | cons l a ih =>
      have count : k - (stream (l :: a)).length = k - l.bytes.length - (stream a).length := by
        rw [stream, List.flatMap_cons, List.length_append, Nat.sub_sub]
        rfl
      rw [List.cons_append, unreadNames, unreadNames, ih, count, List.append_assoc]

theorem unreadNames_zero (ls : List Line) : unreadNames ls 0 = ls.flatMap Line.name := by
  induction ls with
  | nil => rfl
  | cons l ls ih => rw [unreadNames, if_pos rfl, Nat.zero_sub, ih, List.flatMap_cons]

theorem unreadNames_mono {ls : List Line} {k k' : Nat} (le : k ≤ k') {name : Str}
    (mem : name ∈ unreadNames ls k') : name ∈ unreadNames ls k := by
  induction ls generalizing k k' with
  | nil => exact mem
  | cons l ls ih =>
      rw [unreadNames, List.mem_append] at mem ⊢
      obtain first | rest := mem
      · left
        by_cases zero : k' = 0
        · have zero' : k = 0 := by omega
          rw [if_pos zero] at first
          rwa [if_pos zero']
        · rw [if_neg zero] at first
          exact absurd first List.not_mem_nil
      · exact .inr (ih (Nat.sub_le_sub_right le _) rest)

theorem quotable_notMem {s : Str} (plain : quotable s = true) : '"' ∉ s ∧ '\n' ∉ s := by
  rw [quotable, List.all_eq_true] at plain
  refine ⟨fun mem => ?_, fun mem => ?_⟩
  · exact absurd (plain _ mem) (by decide)
  · exact absurd (plain _ mem) (by decide)

theorem newline_notMem_quoted {s : Str} (plain : quotable s = true) : '\n' ∉ quoted s := by
  have inner := (quotable_notMem plain).2
  simp [quoted, inner]

theorem newline_notMem_text (l : Line) : '\n' ∉ l.text := by
  cases l with
  | other text => exact text.2.1
  | answer name result =>
      have tag : '\n' ∉ TAG ++ " 0,".toList ∧ '\n' ∉ TAG ++ " 1,".toList := by decide
      cases result with
      | error err =>
          have digits : '\n' ∉ Nat.toDigits 10 err := fun mem =>
            absurd (Nat.isDigit_of_mem_toDigits (by decide) (by decide) mem) (by decide)
          rw [Line.text, List.mem_append, List.mem_append]
          rintro ((start | code) | last)
          · exact tag.1 start
          · exact digits code
          · exact absurd last (by decide)
      | ok found =>
          obtain ⟨first, more⟩ := found
          have others : '\n' ∉ more.flatMap fun a => ',' :: quoted a.text := by
            intro mem
            obtain ⟨a, -, inside⟩ := List.mem_flatMap.mp mem
            obtain same | inside := List.mem_cons.mp inside
            · exact absurd same (by decide)
            · exact newline_notMem_quoted a.plain inside
          simp only [Line.text, List.mem_append, List.mem_cons, not_or]
          refine ⟨⟨⟨⟨?_, newline_notMem_quoted name.2⟩, by decide,
            newline_notMem_quoted first.plain⟩, others⟩, by decide, List.not_mem_nil⟩
          simpa using tag.2

/-- Behind a line end a line begins. -/
theorem line_start {sent : List Line} {k : Nat} {rest : Str}
    (here : (stream sent).drop k = '\n' :: rest) :
    ∃ before after, sent = before ++ after ∧ (stream before).length = k + 1 := by
  induction sent generalizing k with
  | nil => simp [stream] at here
  | cons l sent ih =>
      have split : stream (l :: sent) = l.text ++ '\n' :: stream sent := by
        simp [stream, Line.bytes]
      rw [split, List.drop_append] at here
      obtain before | at_end | behind := Nat.lt_trichotomy k l.text.length
      · obtain ⟨c, tail, text⟩ := List.exists_cons_of_ne_nil
          (List.ne_nil_of_length_pos (by rw [List.length_drop]; omega) : l.text.drop k ≠ [])
        rw [text, List.cons_append] at here
        have mem : c ∈ l.text := List.mem_of_mem_drop (text ▸ List.mem_cons_self)
        exact absurd ((List.cons.inj here).1 ▸ mem) (newline_notMem_text l)
      · refine ⟨[l], sent, rfl, ?_⟩
        simp [stream, Line.bytes, at_end]
      · obtain ⟨j, rfl⟩ : ∃ j, k = l.text.length + (j + 1) := ⟨k - l.text.length - 1, by omega⟩
        have rest : (stream sent).drop j = '\n' :: rest := by
          simpa [List.drop_eq_nil_of_le] using here
        obtain ⟨before, after, same, count⟩ := ih rest
        refine ⟨l :: before, after, by rw [same, List.cons_append], ?_⟩
        rw [stream, List.flatMap_cons, List.length_append, Line.bytes, List.length_append]
        rw [stream] at count
        simp only [List.length_singleton]
        omega

/-! ## The parse of an answer -/

/-- A character that comes first behind a text without it. -/
theorem indexOf_append {c : Char} {a : Str} (absent : c ∉ a) (start b : Str) :
    indexOf c (start ++ (a ++ c :: b)) start.length = some (start.length + a.length) := by
  have found : (a ++ c :: b).idxOf? c = some a.length := by
    induction a with
    | nil => simp [List.idxOf?_cons]
    | cons x a ih =>
        have other : x ≠ c := fun same => absent (same ▸ List.mem_cons_self)
        rw [List.cons_append, List.idxOf?_cons, ih fun mem => absent (List.mem_cons_of_mem _ mem)]
        simp [other]
  rw [indexOf, List.drop_left, found, Option.map_some]

theorem text_between (start a b : Str) :
    ((start ++ (a ++ b)).take (start.length + a.length)).drop start.length = a := by
  rw [← List.append_assoc, ← List.length_append, List.take_left, List.drop_left]

theorem lineAddress_status {head : Str} (comma : ',' ∉ head)
    (status : (head.drop TAG.length).contains '1' = false) (rest : Str) :
    lineAddress (head ++ ',' :: rest) = none := by
  have first := indexOf_append comma [] rest
  simp only [List.nil_append, List.length_nil, Nat.zero_add] at first
  simp only [lineAddress, first, List.take_left, status, Bool.and_false, Bool.false_eq_true,
    if_false]

/-- The text between the third and the fourth quote. -/
theorem lineAddress_quotes {head name ip : Str} (comma : ',' ∉ head) (some_ : 0 < head.length)
    (status : (head.drop TAG.length).contains '1' = true) (name_plain : '"' ∉ name)
    (ip_plain : '"' ∉ ip) (tail : Str) :
    lineAddress (head ++ ',' :: '"' :: (name ++ '"' :: ',' :: '"' :: (ip ++ '"' :: tail))) =
      some ip := by
  have no_quote : '"' ∉ [','] := by decide
  generalize whole :
    head ++ ',' :: '"' :: (name ++ '"' :: ',' :: '"' :: (ip ++ '"' :: tail)) = l
  have first : indexOf ',' l 0 = some head.length := by
    have found := indexOf_append comma []
      ('"' :: (name ++ '"' :: ',' :: '"' :: (ip ++ '"' :: tail)))
    rw [← whole]
    simpa using found
  have q1 : indexOf '"' l head.length = some (head.length + 1) := by
    have found := indexOf_append no_quote head (name ++ '"' :: ',' :: '"' :: (ip ++ '"' :: tail))
    rw [← whole]
    simpa using found
  have q2 : indexOf '"' l (behind (some (head.length + 1))) =
      some (head.length + 2 + name.length) := by
    have found := indexOf_append name_plain (head ++ [',', '"']) (',' :: '"' :: (ip ++ '"' :: tail))
    rw [← whole]
    simpa [behind] using found
  have q3 : indexOf '"' l (behind (some (head.length + 2 + name.length))) =
      some (head.length + 2 + name.length + 2) := by
    have found := indexOf_append no_quote (head ++ ',' :: '"' :: (name ++ ['"']))
      (ip ++ '"' :: tail)
    rw [← whole]
    simpa [behind, Nat.add_assoc, Nat.add_comm, Nat.add_left_comm] using found
  have q4 : indexOf '"' l (behind (some (head.length + 2 + name.length + 2))) =
      some (head.length + 2 + name.length + 3 + ip.length) := by
    have found := indexOf_append ip_plain (head ++ ',' :: '"' :: (name ++ ['"', ',', '"'])) tail
    rw [← whole]
    simpa [behind, Nat.add_assoc, Nat.add_comm, Nat.add_left_comm] using found
  have cut : (l.take (head.length + 2 + name.length + 3 + ip.length)).drop
      (head.length + 2 + name.length + 3) = ip := by
    have between := text_between (head ++ ',' :: '"' :: (name ++ ['"', ',', '"'])) ip ('"' :: tail)
    rw [← whole]
    simpa [Nat.add_assoc, Nat.add_comm, Nat.add_left_comm] using between
  have success : (0 < head.length &&
      ((l.take head.length).drop TAG.length).contains '1') = true := by
    rw [← whole, List.take_left, status, Bool.and_true]
    exact decide_eq_true some_
  simp only [lineAddress, first, if_pos success, q1, q2, q3, q4]
  rw [if_pos ⟨by omega, by omega⟩]
  exact congrArg some cut

/-- The address of a success is its first; an error has none. -/
theorem lineAddress_text (name : HostName) (result : Except Nat (Address × List Address)) :
    lineAddress (Line.answer name result).text = result.toOption.map (·.1.text) := by
  cases result with
  | error err =>
      have text : (Line.answer name (.error err)).text =
          TAG ++ [' ', '0'] ++ ',' :: (Nat.toDigits 10 err ++ ['\r']) := by
        have zero : " 0,".toList = [' ', '0', ','] := by decide
        simp [Line.text, zero]
      rw [text]
      exact lineAddress_status (by decide) (by decide) _
  | ok found =>
      obtain ⟨first, more⟩ := found
      have text : (Line.answer name (.ok (first, more))).text =
          TAG ++ [' ', '1'] ++ ',' :: '"' :: (name ++ '"' :: ',' :: '"' :: (first.text ++ '"' ::
            ((more.flatMap fun a => ',' :: quoted a.text) ++ ['\r']))) := by
        have one : " 1,".toList = [' ', '1', ','] := by decide
        simp [Line.text, quoted, one]
      rw [text]
      exact lineAddress_quotes (by decide) (by decide) (by decide)
        (quotable_notMem name.2).1 (quotable_notMem first.plain).1 _

theorem strstr_suffix {needle s rest : Str} (found : strstr needle s = some rest) :
    rest <:+ s := by
  induction s with
  | nil =>
      rw [strstr] at found
      split at found
      · exact Option.some.inj found ▸ List.suffix_refl _
      · exact absurd found (by simp)
  | cons c s ih =>
      rw [strstr] at found
      split at found
      · exact Option.some.inj found ▸ List.suffix_refl _
      · exact (ih found).trans (List.suffix_cons c s)

/-- A line without the needle does not end in a part of it. -/
theorem strstr_behind_line {needle text : Str} (plain : '\n' ∉ needle) (some : needle ≠ [])
    (absent : strstr needle text = none) (rest : Str) :
    strstr needle (text ++ '\n' :: rest) = strstr needle rest := by
  induction text with
  | nil =>
      rw [List.nil_append, strstr, if_neg]
      intro start
      obtain ⟨c, needle, rfl⟩ := List.exists_cons_of_ne_nil some
      rw [List.isPrefixOf_iff_prefix, List.cons_prefix_cons] at start
      exact plain (start.1 ▸ List.mem_cons_self)
  | cons x text ih =>
      rw [strstr] at absent
      split at absent
      · exact absurd absent (by simp)
      · rename_i other
        rw [List.cons_append, strstr, if_neg, ih absent]
        intro start
        rw [List.isPrefixOf_iff_prefix] at start
        have line : x :: text ++ ['\n'] <+: x :: (text ++ '\n' :: rest) := ⟨rest, by simp⟩
        obtain short | long := List.prefix_or_prefix_of_prefix start line
        · obtain same | inside := List.prefix_concat_iff.mp short
          · exact plain (same ▸ by simp)
          · exact other (List.isPrefixOf_iff_prefix.mpr inside)
        · exact plain (long.subset (by simp))

theorem strstr_here {needle s : Str} (some : needle ≠ []) (start : needle <+: s) :
    strstr needle s = .some s := by
  cases s with
  | nil => exact absurd (List.prefix_nil.mp start) some
  | cons c s => rw [strstr, if_pos (List.isPrefixOf_iff_prefix.mpr start)]

theorem answer_starts (name : HostName) (result : Except Nat (Address × List Address)) :
    TAG <+: (Line.answer name result).text := by
  cases result with
  | error err =>
      simp only [Line.text, List.append_assoc]
      exact List.prefix_append _ _
  | ok found =>
      simp only [Line.text, List.append_assoc]
      exact List.prefix_append _ _

theorem answerLine_line {text : Str} (start : TAG <+: text) (ends : '\n' ∉ text) (rest : Str) :
    answerLine (text ++ '\n' :: rest) = some text := by
  have plain : ∀ c ∈ text, decide (c ≠ '\n') = true := by
    intro c mem
    have other : c ≠ '\n' := fun same => ends (same ▸ mem)
    simpa using other
  have here := strstr_here (by decide)
    (start.trans (List.prefix_append text ('\n' :: rest)))
  rw [answerLine, here, Option.bind_some, if_pos (by simp), List.takeWhile_append_of_pos plain]
  simp

/-- What the loop finds is the first answer of the lines that it reads. -/
theorem answerLine_found {lines : List Line} {buf l : Str} (read : buf <+: stream lines)
    (found : answerLine buf = some l) :
    ∃ name result, Line.answer name result ∈ lines ∧ l = (Line.answer name result).text := by
  induction lines generalizing buf with
  | nil =>
      obtain rfl : buf = [] := List.prefix_nil.mp read
      have nothing : answerLine [] = none := by decide
      exact absurd (nothing.symm.trans found) (by simp)
  | cons line lines ih =>
      obtain ⟨more, split⟩ := read
      have head : stream (line :: lines) = line.text ++ '\n' :: stream lines := by
        simp [stream, Line.bytes]
      have ends := newline_notMem_text line
      rw [head, List.append_eq_append_iff] at split
      have within : ∀ t, line.text = buf ++ t → False := by
        intro t text
        rw [answerLine, Option.bind_eq_some_iff] at found
        obtain ⟨rest, start, whole⟩ := found
        split at whole
        · rename_i ended
          have mem := (strstr_suffix start).subset (List.contains_iff_mem.mp ended)
          exact ends (text ▸ List.mem_append_left _ mem)
        · exact absurd whole (by simp)
      obtain ⟨t, text, -⟩ | ⟨t, longer, rest⟩ := split
      · exact absurd text (fun text => within t text)
      obtain _ | ⟨c, buf'⟩ := t
      · exact absurd longer (fun same => within [] (by simpa using same.symm))
      obtain ⟨rfl, tail⟩ := List.cons.inj rest
      subst longer
      cases line with
      | other text =>
          have skipped : answerLine (text.1 ++ '\n' :: buf') = answerLine buf' := by
            rw [answerLine, answerLine,
              strstr_behind_line (by decide) (by decide) text.2.2]
          rw [Line.text, skipped] at found
          obtain ⟨name, result, mem, same⟩ := ih ⟨more, tail.symm⟩ found
          exact ⟨name, result, List.mem_cons_of_mem _ mem, same⟩
      | answer name result =>
          refine ⟨name, result, List.mem_cons_self, ?_⟩
          rw [answerLine_line (answer_starts name result) ends] at found
          exact (Option.some.inj found).symm

/-! ## Every schedule -/

/-- Where a call stands: it is owed nothing for another name, and behind its `OK` it has read the
lines from some line on. -/
def InPhase (s : Cell) : Phase → Prop
  | .idle => True
  | .command host outLen _ =>
      INET6_ADDRSTRLEN ≤ outLen ∧ ∀ name ∈ s.owed s.read, name = host
  | .answer host outLen buf =>
      INET6_ADDRSTRLEN ≤ outLen ∧ ∃ before after, s.sent = before ++ after ∧
        s.read = (stream before).length + buf.length ∧ buf <+: stream after ∧
        ∀ name ∈ after.flatMap Line.name ++ s.pending.map Subtype.val, name = host

structure Inv (s : Cell) : Prop where
  read_le : s.read ≤ (stream s.sent).length
  right : Right s
  inPhase : InPhase s s.phase

theorem Inv.start : Inv Cell.start :=
  ⟨Nat.le_refl _, fun _ mem => absurd mem List.not_mem_nil, trivial⟩

theorem Reports.mono {sent : List Line} {name address : Str} (reports : Reports sent name address)
    (more : List Line) : Reports (sent ++ more) name address := by
  obtain ⟨host, first, others, mem, found⟩ := reports
  exact ⟨host, first, others, List.mem_append_left _ mem, found⟩

theorem Reports.named {sent : List Line} {name address : Str}
    (reports : Reports sent name address) : name ∈ sent.flatMap Line.name := by
  obtain ⟨host, first, more, mem, rfl, -⟩ := reports
  exact List.mem_flatMap.mpr ⟨_, mem, List.mem_singleton.mpr rfl⟩

/-- Lines that come in leave a call where it stands when their names were owed already. -/
theorem Inv.sends {s : Cell} (inv : Inv s) (l : Line) (pending : List HostName)
    (owed : ∀ name ∈ l.name ++ pending.map Subtype.val, name ∈ s.pending.map Subtype.val) :
    Inv { s with pending, sent := s.sent ++ [l] } := by
  refine ⟨?_, fun call mem => (inv.right call mem).mono [l], ?_⟩
  · rw [stream_append, List.length_append]
    exact inv.read_le.trans (Nat.le_add_right _ _)
  have phase := inv.inPhase
  show InPhase _ s.phase
  cases at_ : s.phase with
  | idle => trivial
  | command host outLen line =>
      rw [at_] at phase
      refine ⟨phase.1, fun name mem => phase.2 name ?_⟩
      rw [Cell.owed, unreadNames_append, List.append_assoc, List.mem_append] at mem
      rw [Cell.owed, List.mem_append]
      obtain sent | more := mem
      · exact .inl sent
      · refine .inr (owed name ?_)
        rw [List.mem_append] at more ⊢
        refine more.imp_left fun inside => ?_
        have first := unreadNames_mono (Nat.zero_le _) inside
        rw [unreadNames_zero] at first
        simpa using first
  | answer host outLen buf =>
      rw [at_] at phase
      obtain ⟨room, before, after, sent, read, found, names⟩ := phase
      refine ⟨room, before, after ++ [l], by rw [sent, List.append_assoc], read, ?_, ?_⟩
      · rw [stream_append]
        exact found.trans (List.prefix_append _ _)
      · intro name mem
        apply names
        rw [List.flatMap_append, List.append_assoc, List.mem_append] at mem
        rw [List.mem_append]
        refine mem.imp_right fun more => owed name ?_
        simpa using more

theorem mem_takeCommand {pending : List HostName} {host : Str} {taken : Bool} {name : HostName}
    (mem : name ∈ takeCommand pending host taken) : name ∈ pending ∨ name.1 = host := by
  unfold takeCommand at mem
  split at mem
  · split at mem
    · obtain old | new := List.mem_append.mp mem
      · exact .inl old
      · exact .inr (congrArg Subtype.val (List.mem_singleton.mp new))
    · exact .inl mem
  · exact .inl mem

/-- `cellAT` returns 1 behind a line end only. -/
theorem cellATByte_ok {line : Str} {c : Char} (done : cellATByte line c = .error 1) : c = '\n' := by
  by_cases same : c = '\n'
  · exact same
  · unfold cellATByte at done
    rw [if_neg same] at done
    split at done
    · exact absurd done (by simp)
    · split at done <;> exact absurd done (by simp)

theorem Cell.read_more {s : Cell} (le : s.read ≤ (stream s.sent).length) (n : Nat) :
    s.read + (s.unread.take n).length ≤ (stream s.sent).length := by
  rw [List.length_take, unread, List.length_drop]
  omega

theorem copied_address {outLen : Nat} (room : INET6_ADDRSTRLEN ≤ outLen) (a : Address) :
    copied outLen a.text = a.text := by
  have short : a.text.length < 46 := a.short
  have room : 46 ≤ outLen := room
  rw [copied, List.take_of_length_le (by omega : a.text.length ≤ 47), List.take_of_length_le]
  omega

/-- A read of the loop: it goes on, or it ends with the first answer in the lines behind `OK`. -/
theorem Inv.polls {s : Cell} (inv : Inv s) {host : Str} {outLen : Nat} {buf : Str}
    (at_ : s.phase = .answer host outLen buf) (n : Nat) : Inv (step s (.poll n)) := by
  have phase := inv.inPhase
  rw [at_] at phase
  obtain ⟨room, before, after, sent, read, found, names⟩ := phase
  have more : buf ++ s.unread.take n <+: stream after := by
    obtain ⟨tail, whole⟩ := found
    have unread : s.unread = tail := by
      rw [Cell.unread, sent, stream_append, read, ← List.drop_drop, List.drop_left, ← whole,
        List.drop_left]
    rw [unread, ← whole]
    exact (List.prefix_append_right_inj buf).mpr (List.take_prefix n tail)
  simp only [step, at_]
  cases line : answerLine (buf ++ s.unread.take n) with
  | none =>
      refine ⟨Cell.read_more inv.read_le n, inv.right, room, before, after, sent, ?_, more, names⟩
      rw [List.length_append, ← Nat.add_assoc, ← read]
  | some l =>
      refine ⟨Cell.read_more inv.read_le n, fun call mem => ?_, trivial⟩
      obtain ⟨name, result, inside, rfl⟩ := answerLine_found more line
      dsimp only at mem ⊢
      rw [lineAddress_text] at mem
      obtain old | new := List.mem_append.mp mem
      · exact inv.right call old
      cases result with
      | error err => exact absurd new (by simp [Except.toOption])
      | ok result =>
          obtain ⟨first, others⟩ := result
          obtain rfl : call = (host, copied outLen first.text) := by
            simpa [Except.toOption] using new
          have same : name.1 = host := by
            apply names
            refine List.mem_append_left _ (List.mem_flatMap.mpr ⟨_, inside, ?_⟩)
            exact List.mem_singleton.mpr rfl
          rw [copied_address room]
          refine ⟨name, first, others, ?_, same, first, List.mem_cons_self, rfl⟩
          rw [sent]
          exact List.mem_append_right _ inside

/-- A byte of the command's window: the loop for the answer starts at the start of a line. -/
theorem Inv.reads {s : Cell} (inv : Inv s) {host : Str} {outLen : Nat} {line : Str}
    (at_ : s.phase = .command host outLen line) : Inv (step s .byte) := by
  have phase := inv.inPhase
  rw [at_] at phase
  obtain ⟨room, owed⟩ := phase
  simp only [step, at_]
  cases unread : s.unread with
  | nil => exact inv
  | cons c rest =>
      have within : s.read + 1 ≤ (stream s.sent).length := by
        have count := congrArg List.length unread
        rw [Cell.unread, List.length_drop, List.length_cons] at count
        omega
      have fewer : ∀ name ∈ s.owed (s.read + 1), name = host := by
        intro name mem
        apply owed
        rw [Cell.owed, List.mem_append] at mem ⊢
        exact mem.imp_left (unreadNames_mono (Nat.le_succ _))
      refine ⟨within, inv.right, ?_⟩
      simp only
      split
      · exact ⟨room, fewer⟩
      · rename_i done
        obtain rfl := cellATByte_ok done
        obtain ⟨before, after, sent, count⟩ := line_start unread
        refine ⟨room, before, after, sent, count.symm, List.nil_prefix, fun name mem => ?_⟩
        apply fewer
        rw [Cell.owed, sent, unreadNames_append, count, Nat.sub_self, unreadNames_zero]
        rw [List.append_assoc]
        exact List.mem_append_right _ mem
      · trivial

theorem Inv.step {s : Cell} {e : Event} (inv : Inv s) (settled : Settled s e) :
    Inv (Cellular.step s e) := by
  cases e with
  | urc text =>
      refine inv.sends (.other text) s.pending fun name mem => ?_
      simpa [Line.name] using mem
  | answer result =>
      cases pending : s.pending with
      | nil => simpa [Cellular.step, pending] using inv
      | cons name rest =>
          simp only [Cellular.step, pending]
          refine inv.sends (.answer name result) rest fun other mem => ?_
          simpa [Line.name, pending] using mem
  | elsewhere n =>
      simp only [Cellular.step]
      split
      · rename_i idle
        refine ⟨Cell.read_more inv.read_le n, inv.right, ?_⟩
        simp only [idle]
        trivial
      · exact inv
  | resolveHost host outLen n taken =>
      obtain ⟨owed, room⟩ := settled
      simp only [Cellular.step]
      split
      · split
        · exact inv
        split
        · exact inv
        refine ⟨Cell.read_more inv.read_le n, inv.right, room, fun name mem => ?_⟩
        rw [Cell.owed, List.mem_append] at mem
        obtain sent | asked := mem
        · exact owed name (List.mem_append_left _ sent)
        · obtain ⟨asked, mem, rfl⟩ := List.mem_map.mp asked
          obtain old | new := mem_takeCommand mem
          · exact owed _ (List.mem_append_right _ (List.mem_map_of_mem old))
          · exact new
      · exact inv
  | byte =>
      cases at_ : s.phase with
      | command host outLen line => exact inv.reads at_
      | idle => simpa [Cellular.step, at_] using inv
      | answer host outLen buf => simpa [Cellular.step, at_] using inv
  | poll n =>
      cases at_ : s.phase with
      | answer host outLen buf => exact inv.polls at_ n
      | idle => simpa [Cellular.step, at_] using inv
      | command host outLen line => simpa [Cellular.step, at_] using inv
  | timeout => exact ⟨inv.read_le, inv.right, trivial⟩

/-- Whatever the modem and the clock do, a call that starts when no answer for another name is
owed returns an address of its own host. -/
theorem resolveHost_runs (events : List Event)
    (settled : Machine.Meets step Settled .start events) :
    Right (Machine.run step .start events) := by
  have kept : Inv (Machine.run step .start events) :=
    settled.invariant (fun _ _ inv settled => inv.step settled) Inv.start
  exact kept.right

def okLine : OtherLine := ⟨"OK".toList, by decide⟩

def someAddress : Address := ⟨"1.1.1.1".toList, by decide, by decide⟩

/-- A call whose command the modem takes and confirms. -/
def asks (host : Str) : List Event :=
  [.resolveHost host 48 0 true, .urc okLine, .byte, .byte, .byte]

/-- The answer to `a`, in time. -/
def inTime : List Event := asks ['a'] ++ [.answer (.ok (someAddress, [])), .poll 64]

theorem resolveHost_runs_inTime :
    (Machine.run step .start inTime).returned = [(['a'], "1.1.1.1".toList)] ∧
      Right (Machine.run step .start inTime) :=
  ⟨by decide, resolveHost_runs inTime (by decide)⟩

/-- The answer to `a` after its call timed out and the one for `b` began. -/
def late : List Event :=
  asks ['a'] ++ .timeout :: asks ['b'] ++ [.answer (.ok (someAddress, [])), .poll 64]

theorem resolveHost_late :
    (Machine.run step .start late).returned = [(['b'], "1.1.1.1".toList)] ∧
      ¬Right (Machine.run step .start late) := by
  have result : (Machine.run step .start late).returned = [(['b'], "1.1.1.1".toList)] := by
    decide
  refine ⟨result, fun right => ?_⟩
  have reports := right (['b'], "1.1.1.1".toList) (by rw [result]; exact List.mem_singleton.mpr rfl)
  have unnamed : ['b'] ∉ (Machine.run step .start late).sent.flatMap Line.name := by
    decide
  exact unnamed reports.named

end Thesada.Cellular
