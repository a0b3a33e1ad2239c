import Mathlib.Data.List.Basic
import Thesada.Library.CString

/-!
# The head of an HTTPS reply

`httpsGet` reads a reply byte by byte up to its first empty line. A line keeps what fits its
buffer; the status line and `Content-Length` are read from that.

A reply is a status line, headers with at most one `Content-Length` among them, an empty line and
a body. Reading it is one function of the bytes to come, however they are split.
-/

namespace Thesada.Cellular

open CString

/-- `sizeof(lineBuf) - 1`. -/
def HEAD_LINE_MAX : Nat := 255

def contentLengthName : Str := "content-length".toList

/-! ## Reading -/

inductive GetPhase where
  | status
  | headers
  | body
  deriving DecidableEq

structure Head where
  phase : GetPhase
  line : Str
  status : Int
  contentLen : Int
  deriving DecidableEq

def Head.start : Head := ⟨.status, [], 0, -1⟩

def atoi (s : Str) : Int := (strtol s).1

/-- What follows the first space. -/
def afterSpace : Str → Option Str
  | [] => none
  | c :: rest => if c = ' ' then some rest else afterSpace rest

/-- `strncasecmp` with the name and its colon. -/
def isLengthLine (line : Str) : Bool :=
  (line.take 15).map Char.toLower = contentLengthName ++ [':']

def endLine (h : Head) : Head :=
  match h.phase with
  | .status =>
      { h with
        phase := .headers, line := [], status := (afterSpace (cstr h.line)).elim h.status atoi }
  | .headers =>
      if h.line = [] then { h with phase := .body }
      else if isLengthLine (cstr h.line) then
        { h with line := [], contentLen := atoi ((cstr h.line).drop 15) }
      else { h with line := [] }
  | .body => h

def headByte (h : Head) (c : Char) : Head :=
  if c = '\r' then h
  else if c = '\n' then endLine h
  else if h.line.length < HEAD_LINE_MAX then { h with line := h.line ++ [c] }
  else h

/-- The head after some bytes, and the bytes behind its empty line. -/
def readHead : Head → Str → Head × Str
  | h, [] => (h, [])
  | h, c :: rest =>
      if (headByte h c).phase = .body then (headByte h c, rest) else readHead (headByte h c) rest

/-! ## Replies -/

/-- No byte of a line ends it. -/
def Inline (s : Str) : Prop := ∀ c ∈ s, c ≠ '\r' ∧ c ≠ '\n' ∧ c ≠ '\x00'

/-- A header of another name. -/
structure HeaderLine where
  name : Str
  value : Str
  other : name.map Char.toLower ≠ contentLengthName
  colon : ':' ∉ name
  name_inline : Inline name
  value_inline : Inline value

def HeaderLine.text (h : HeaderLine) : Str := h.name ++ ':' :: h.value

/-- `Content-Length` in any case, with blanks around its digits. -/
structure LengthLine where
  name : Str
  lead : Str
  digits : Str
  trail : Str
  named : name.map Char.toLower = contentLengthName
  lead_blank : ∀ c ∈ lead, c = ' ' ∨ c = '\t'
  trail_blank : ∀ c ∈ trail, c = ' ' ∨ c = '\t'
  digits_ne : digits ≠ []
  digits_plain : ∀ c ∈ digits, c.isDigit = true

def LengthLine.text (l : LengthLine) : Str := l.name ++ ':' :: (l.lead ++ l.digits ++ l.trail)

def LengthLine.value (l : LengthLine) : Nat := decimal l.digits

/-- A final reply, with what arrives of its body. -/
structure Reply where
  code : Str
  reason : Str
  before : List HeaderLine
  length : Option LengthLine
  after : List HeaderLine
  body : Str
  code_length : code.length = 3
  code_plain : ∀ c ∈ code, c.isDigit = true
  code_final : 200 ≤ decimal code
  reason_inline : Inline reason
  body_le : ∀ l ∈ length, l.value < 2147483648 → body.length ≤ l.value

def crlf : Str := ['\r', '\n']

def Reply.statusLine (r : Reply) : Str := "HTTP/1.1 ".toList ++ r.code ++ ' ' :: r.reason

def Reply.headers (r : Reply) : List Str :=
  r.before.map HeaderLine.text ++ r.length.toList.map LengthLine.text ++
    r.after.map HeaderLine.text

def Reply.text (r : Reply) : Str :=
  r.statusLine ++ crlf ++ r.headers.flatMap (· ++ crlf) ++ crlf ++ r.body

/-- The value that is left of the length in the line buffer. -/
def LengthLine.read (l : LengthLine) : Int := atoi ((l.text.take HEAD_LINE_MAX).drop 15)

def Reply.contentLen (r : Reply) : Int := r.length.elim (-1) LengthLine.read

/-! ## Lines -/

section

variable {h : Head} {line rest s : Str} {c : Char}

/-- A line is clipped as its bytes arrive. -/
theorem take_clipped (front line : Str) (n : Nat) :
    (front.take n ++ line).take n = (front ++ line).take n := by
  by_cases short : front.length ≤ n
  · rw [List.take_of_length_le short]
  · have long := Nat.le_of_not_le short
    rw [List.take_append_of_le_length long,
      List.take_left' ((List.length_take).trans (Nat.min_eq_left long))]

theorem headByte_cr (h : Head) : headByte h '\r' = h := if_pos rfl

theorem headByte_lf (h : Head) : headByte h '\n' = endLine h := rfl

theorem headByte_inside (short : line.length ≤ HEAD_LINE_MAX)
    (inside : c ≠ '\r' ∧ c ≠ '\n' ∧ c ≠ '\x00') :
    headByte { h with line := line } c = { h with line := (line ++ [c]).take HEAD_LINE_MAX } := by
  rw [headByte, if_neg inside.1, if_neg inside.2.1]
  split
  · next room =>
      rw [List.take_of_length_le]
      rw [List.length_append]
      exact room
  · next full =>
      rw [List.take_append_of_le_length (Nat.not_lt.mp full), List.take_of_length_le short]

theorem readHead_inside {more : Str} (open_ : h.phase ≠ .body)
    (short : more.length ≤ HEAD_LINE_MAX) (inline : Inline line) (rest : Str) :
    readHead { h with line := more } (line ++ rest) =
      readHead { h with line := (more ++ line).take HEAD_LINE_MAX } rest := by
  induction line generalizing more with
  | nil => rw [List.append_nil, List.take_of_length_le short, List.nil_append]
  | cons c line ih =>
      have inside := inline c List.mem_cons_self
      have later : Inline line := fun d mem => inline d (List.mem_cons_of_mem c mem)
      have clipped := take_clipped (more ++ [c]) line HEAD_LINE_MAX
      rw [List.cons_append, readHead, headByte_inside short inside, if_neg open_,
        ih (List.length_take_le _ _) later, clipped, List.append_assoc]
      rfl

/-- A line is read as far as its buffer goes, and then ended. -/
theorem readHead_line {next : Head} (open_ : h.phase ≠ .body) (empty : h.line = [])
    (inline : Inline line) (ended : endLine { h with line := line.take HEAD_LINE_MAX } = next)
    (later : next.phase ≠ .body) (rest : Str) :
    readHead h (line ++ crlf ++ rest) = readHead next rest := by
  have same : h = { h with line := [] } := by rw [← empty]
  rw [same, List.append_assoc, readHead_inside open_ (Nat.zero_le _) inline, List.nil_append]
  rw [crlf, List.cons_append, List.cons_append, List.nil_append, readHead, headByte_cr,
    if_neg open_, readHead, headByte_lf, ended, if_neg later]

/-- A head is read however its bytes are split. -/
theorem readHead_append (open_ : h.phase ≠ .body) (front rest : Str) :
    readHead h (front ++ rest) =
      if (readHead h front).1.phase = .body then
        ((readHead h front).1, (readHead h front).2 ++ rest)
      else readHead (readHead h front).1 rest := by
  induction front generalizing h with
  | nil => exact (if_neg open_).symm
  | cons c front ih =>
      rw [List.cons_append, readHead, readHead]
      by_cases body : (headByte h c).phase = .body
      · rw [if_pos body, if_pos body, if_pos body]
      · rw [if_neg body, if_neg body]
        exact ih body

/-- Bytes are left only behind the empty line. -/
theorem readHead_left (open_ : (readHead h s).1.phase ≠ .body) : (readHead h s).2 = [] := by
  induction s generalizing h with
  | nil => rfl
  | cons c s ih =>
      rw [readHead] at open_ ⊢
      by_cases body : (headByte h c).phase = .body
      · rw [if_pos body] at open_
        exact absurd body open_
      · rw [if_neg body] at open_ ⊢
        exact ih open_

theorem inline_of_all
    (all : (s.all fun c => decide (c ≠ '\r' ∧ c ≠ '\n' ∧ c ≠ '\x00')) = true) : Inline s :=
  fun c mem => of_decide_eq_true (List.all_eq_true.mp all c mem)

theorem Inline.cstr_eq (inline : Inline line) : cstr line = line :=
  cstr_eq_self fun c mem => (inline c mem).2.2

theorem Inline.take (inline : Inline line) (n : Nat) : Inline (line.take n) :=
  fun c mem => inline c (List.mem_of_mem_take mem)

theorem Inline.append (front : Inline line) (back : Inline rest) : Inline (line ++ rest) :=
  fun c mem => (List.mem_append.mp mem).elim (front c) (back c)

theorem Inline.cons (first : c ≠ '\r' ∧ c ≠ '\n' ∧ c ≠ '\x00') (back : Inline rest) :
    Inline (c :: rest) := by
  intro d mem
  rcases List.mem_cons.mp mem with rfl | mem
  · exact first
  · exact back d mem

theorem inside_of_digit (digit : c.isDigit = true) : c ≠ '\r' ∧ c ≠ '\n' ∧ c ≠ '\x00' := by
  refine ⟨?_, ?_, ?_⟩
  all_goals
    rintro rfl
    exact absurd digit (by decide)

theorem endLine_status (line : Str) (status contentLen : Int) :
    endLine ⟨.status, line, status, contentLen⟩ =
      ⟨.headers, [], (afterSpace (cstr line)).elim status atoi, contentLen⟩ := rfl

theorem endLine_header (some : line ≠ []) (status contentLen : Int) :
    endLine ⟨.headers, line, status, contentLen⟩ =
      if isLengthLine (cstr line) then ⟨.headers, [], status, atoi ((cstr line).drop 15)⟩
      else ⟨.headers, [], status, contentLen⟩ := if_neg some

/-! ## The lines of a reply -/

theorem colon_of_toLower (same : c.toLower = ':') : c = ':' := by
  unfold Char.toLower at same
  split at same
  · next upper =>
      have value := congrArg (fun d : Char => d.val.toNat) same
      have low : 65 ≤ c.val.toNat := upper.1
      have high : c.val.toNat ≤ 90 := upper.2
      have sum : (c.val + ('a'.val - 'A'.val)).toNat = c.val.toNat + 32 := by
        rw [UInt32.toNat_add]
        exact Nat.mod_eq_of_lt (by change c.val.toNat + 32 < 4294967296; omega)
      have colon : c.val.toNat + 32 = 58 := sum.symm.trans value
      omega
  · exact same

theorem HeaderLine.inline (l : HeaderLine) : Inline l.text :=
  l.name_inline.append (.cons (by decide) l.value_inline)

/-- Only the first bytes of a line tell whether it gives the length. -/
theorem isLengthLine_take (line : Str) :
    isLengthLine (line.take HEAD_LINE_MAX) = isLengthLine line := by
  rw [isLengthLine, List.take_take]
  rfl

theorem HeaderLine.plain (l : HeaderLine) : isLengthLine l.text = false := by
  rw [isLengthLine, decide_eq_false_iff_not]
  intro same
  apply l.other
  have lowered : l.text.map Char.toLower =
      contentLengthName ++ ':' :: (l.text.map Char.toLower).drop 15 := by
    have whole := List.take_append_drop 15 (l.text.map Char.toLower)
    rw [← List.map_take, same, List.append_assoc] at whole
    exact whole.symm
  have colonless : ∀ c ∈ l.name.map Char.toLower, decide (c ≠ ':') = true := by
    intro c mem
    obtain ⟨d, named, rfl⟩ := List.mem_map.mp mem
    exact decide_eq_true fun colon => l.colon (colon_of_toLower colon ▸ named)
  have name : (l.text.map Char.toLower).takeWhile (· ≠ ':') = l.name.map Char.toLower := by
    rw [HeaderLine.text, List.map_append, List.takeWhile_append_of_pos colonless, List.map_cons,
      List.takeWhile_cons_of_neg (by decide), List.append_nil]
  have known : ∀ c ∈ contentLengthName, decide (c ≠ ':') = true :=
    List.all_eq_true.mp (by decide)
  rw [← name, lowered, List.takeWhile_append_of_pos known,
    List.takeWhile_cons_of_neg (by decide), List.append_nil]

theorem LengthLine.inline (l : LengthLine) : Inline l.text := by
  have blank : ∀ c, c = ' ' ∨ c = '\t' → c ≠ '\r' ∧ c ≠ '\n' ∧ c ≠ '\x00' := by
    rintro c (rfl | rfl)
    · decide
    · decide
  have letter : ∀ c, c.toLower ∈ contentLengthName → c ≠ '\r' ∧ c ≠ '\n' ∧ c ≠ '\x00' := by
    intro c letter
    refine ⟨?_, ?_, ?_⟩
    all_goals
      rintro rfl
      exact absurd letter (by decide)
  have name : Inline l.name := fun c mem => letter c (l.named ▸ List.mem_map_of_mem mem)
  have lead : Inline l.lead := fun c mem => blank c (l.lead_blank c mem)
  have digits : Inline l.digits := fun c mem => inside_of_digit (l.digits_plain c mem)
  have trail : Inline l.trail := fun c mem => blank c (l.trail_blank c mem)
  exact name.append (.cons (by decide) ((lead.append digits).append trail))

theorem LengthLine.name_length (l : LengthLine) : l.name.length = 14 := by
  have lengths := congrArg List.length l.named
  rw [List.length_map] at lengths
  exact lengths

theorem LengthLine.text_split (l : LengthLine) :
    l.text = (l.name ++ [':']) ++ (l.lead ++ l.digits ++ l.trail) ∧
      (l.name ++ [':']).length = 15 := by
  constructor
  · rw [List.append_assoc]
    rfl
  · rw [List.length_append, l.name_length]
    rfl

theorem LengthLine.isLength (l : LengthLine) : isLengthLine l.text = true := by
  obtain ⟨split, length⟩ := l.text_split
  rw [isLengthLine, decide_eq_true_eq, split, List.take_left' length, List.map_append, l.named]
  rfl

/-- The digits are read where they are within the buffer. -/
theorem LengthLine.read_of_le (l : LengthLine)
    (room : 15 + l.lead.length + l.digits.length ≤ HEAD_LINE_MAX) :
    l.read = clampLong l.value := by
  obtain ⟨split, length⟩ := l.text_split
  have blank {s : Str} (blanks : ∀ c ∈ s, c = ' ' ∨ c = '\t') : ∀ c ∈ s, isSpace c = true := by
    intro c mem
    rcases blanks c mem with rfl | rfl
    · rfl
    · rfl
  have kept : (l.lead ++ l.digits).length ≤ HEAD_LINE_MAX - 15 := by
    rw [List.length_append]
    omega
  have value : (l.text.take HEAD_LINE_MAX).drop 15 = l.lead ++ l.digits ++
      l.trail.take (HEAD_LINE_MAX - 15 - (l.lead ++ l.digits).length) := by
    rw [List.drop_take, split, List.drop_left' length, List.take_append,
      List.take_of_length_le kept]
  rw [LengthLine.read, value, atoi]
  apply strtol_digits (blank l.lead_blank) l.digits_ne l.digits_plain
  intro c first
  have mem := List.mem_of_mem_take (List.mem_of_mem_head? first)
  rcases l.trail_blank c mem with rfl | rfl
  · rfl
  · rfl

/-! ## The head of a reply -/

theorem Reply.code_value (r : Reply) :
    atoi (r.code ++ (' ' :: r.reason).take (HEAD_LINE_MAX - 12)) = decimal r.code := by
  have some : r.code ≠ [] := List.ne_nil_of_length_eq_add_one r.code_length
  have small : decimal r.code ≤ 999 := by
    obtain ⟨a, b, c, digits⟩ := List.length_eq_three.mp r.code_length
    have plain := r.code_plain
    rw [digits] at plain ⊢
    have first := digitValue_le (plain a (by simp))
    have second := digitValue_le (plain b (by simp))
    have third := digitValue_le (plain c (by simp))
    simp only [decimal, List.foldl_cons, List.foldl_nil]
    omega
  have read := @strtol_digits [] r.code ((' ' :: r.reason).take (HEAD_LINE_MAX - 12)) (by simp)
    some r.code_plain (by simp [HEAD_LINE_MAX])
  rw [List.nil_append] at read
  rw [atoi, read, clampLong]
  omega

theorem Reply.statusLine_inline (r : Reply) : Inline r.statusLine := by
  have version : Inline "HTTP/1.1 ".toList := inline_of_all (by decide)
  have code : Inline r.code := fun c mem => inside_of_digit (r.code_plain c mem)
  exact (version.append code).append (.cons (by decide) r.reason_inline)

/-- The buffer holds the code, however long the reason is. -/
theorem Reply.statusLine_take (r : Reply) :
    r.statusLine.take HEAD_LINE_MAX =
      "HTTP/1.1 ".toList ++ (r.code ++ (' ' :: r.reason).take (HEAD_LINE_MAX - 12)) := by
  have version : "HTTP/1.1 ".toList.length = 9 := by decide
  have front : ("HTTP/1.1 ".toList ++ r.code).length = 12 := by
    rw [List.length_append, r.code_length, version]
  have whole : ("HTTP/1.1 ".toList ++ r.code).length ≤ HEAD_LINE_MAX := by
    rw [front]
    decide
  have taken := @List.take_append _ ("HTTP/1.1 ".toList ++ r.code) (' ' :: r.reason) HEAD_LINE_MAX
  rw [List.take_of_length_le whole, front, List.append_assoc] at taken
  exact taken

theorem afterSpace_version (s : Str) : afterSpace ("HTTP/1.1 ".toList ++ s) = some s := rfl

theorem Reply.readHead_status (r : Reply) (rest : Str) :
    readHead Head.start (r.statusLine ++ crlf ++ rest) =
      readHead ⟨.headers, [], decimal r.code, -1⟩ rest := by
  have ended : endLine ⟨.status, r.statusLine.take HEAD_LINE_MAX, 0, -1⟩ =
      ⟨.headers, [], decimal r.code, -1⟩ := by
    rw [endLine_status, (r.statusLine_inline.take _).cstr_eq, r.statusLine_take,
      afterSpace_version, Option.elim_some, r.code_value]
  exact readHead_line GetPhase.noConfusion rfl r.statusLine_inline ended GetPhase.noConfusion rest

/-- A header of another name changes nothing, whatever its length. -/
theorem readHead_other (l : HeaderLine) (status contentLen : Int) (rest : Str) :
    readHead ⟨.headers, [], status, contentLen⟩ (l.text ++ crlf ++ rest) =
      readHead ⟨.headers, [], status, contentLen⟩ rest := by
  have some : l.text.take HEAD_LINE_MAX ≠ [] := by
    simp [HeaderLine.text, HEAD_LINE_MAX]
  have ended : endLine ⟨.headers, l.text.take HEAD_LINE_MAX, status, contentLen⟩ =
      ⟨.headers, [], status, contentLen⟩ := by
    rw [endLine_header some, (l.inline.take _).cstr_eq, isLengthLine_take, l.plain]
    rfl
  exact readHead_line GetPhase.noConfusion rfl l.inline ended GetPhase.noConfusion rest

theorem readHead_others (ls : List HeaderLine) (status contentLen : Int) (rest : Str) :
    readHead ⟨.headers, [], status, contentLen⟩
        ((ls.map HeaderLine.text).flatMap (· ++ crlf) ++ rest) =
      readHead ⟨.headers, [], status, contentLen⟩ rest := by
  induction ls with
  | nil => rfl
  | cons l ls ih =>
      rw [List.map_cons, List.flatMap_cons, List.append_assoc, readHead_other]
      exact ih

theorem readHead_length (l : LengthLine) (status contentLen : Int) (rest : Str) :
    readHead ⟨.headers, [], status, contentLen⟩ (l.text ++ crlf ++ rest) =
      readHead ⟨.headers, [], status, l.read⟩ rest := by
  have some : l.text.take HEAD_LINE_MAX ≠ [] := by
    simp [LengthLine.text, HEAD_LINE_MAX]
  have ended : endLine ⟨.headers, l.text.take HEAD_LINE_MAX, status, contentLen⟩ =
      ⟨.headers, [], status, l.read⟩ := by
    rw [endLine_header some, (l.inline.take _).cstr_eq, isLengthLine_take, l.isLength]
    rfl
  exact readHead_line GetPhase.noConfusion rfl l.inline ended GetPhase.noConfusion rest

/-- Reading a reply gives its code, its length and its body. -/
theorem readHead_reply (r : Reply) :
    readHead Head.start r.text = (⟨.body, [], decimal r.code, r.contentLen⟩, r.body) := by
  have blank (status contentLen : Int) :
      readHead ⟨.headers, [], status, contentLen⟩ (crlf ++ r.body) =
        (⟨.body, [], status, contentLen⟩, r.body) := rfl
  rw [Reply.text, Reply.headers, List.flatMap_append, List.flatMap_append]
  simp only [List.append_assoc]
  rw [← List.append_assoc, r.readHead_status, readHead_others]
  cases length : r.length with
  | none =>
      rw [Option.toList_none, List.map_nil, List.flatMap_nil, List.nil_append, readHead_others,
        blank, Reply.contentLen, length]
      rfl
  | some l =>
      rw [Option.toList_some, List.map_singleton, List.flatMap_singleton, readHead_length,
        readHead_others, blank, Reply.contentLen, length]
      rfl

end

end Thesada.Cellular
