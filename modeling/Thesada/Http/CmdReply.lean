import Mathlib.Data.List.Forall2
import Thesada.Config.CmdConfigVerdict

/-!
# The reply of `POST /api/cmd`

A shell command's output lines come back as an array of JSON strings that the route writes by
hand. It escapes the quote, the backslash and the two line ends; every other byte goes out as it
is. A line is the bytes before its terminator.
-/

namespace Thesada.Http

open CString JsonGrammar
open Config (OneMember Spelled ascii decodes_ascii)

def escapeByte (c : UInt8) : Bytes :=
  if c = QUOTE then [BACKSLASH, QUOTE]
  else if c = BACKSLASH then [BACKSLASH, BACKSLASH]
  else if c = 0x0A then [BACKSLASH, 0x6E]
  else if c = 0x0D then [BACKSLASH, 0x72]
  else [c]

def escapeLine (line : Bytes) : Bytes := line.flatMap escapeByte

/-- What the output callback shares with the route. -/
structure CmdOutput where
  output : Bytes
  first : Bool

/-- The output callback. -/
def CmdOutput.line (o : CmdOutput) (line : Bytes) : CmdOutput where
  output := o.output ++ (if o.first then [] else [COMMA]) ++ QUOTE :: (escapeLine line ++ [QUOTE])
  first := false

def cmdOutput (lines : List Bytes) : Bytes :=
  (lines.foldl CmdOutput.line ⟨[opening false], true⟩).output ++ [closing false]

def replyHead (ok : Bool) : Bytes :=
  ascii (if ok then "\x7b\"ok\":true,\"output\":".toList else "\x7b\"ok\":false,\"output\":".toList)

/-- The body of the 200 reply. -/
def cmdReply (ok : Bool) (lines : List Bytes) : Bytes :=
  replyHead ok ++ cmdOutput lines ++ [closing true]

def K_OK : Str := "ok".toList
def K_OUTPUT : Str := "output".toList

/-- An array of strings that decode to the lines. -/
def LinesArray (lines : List Bytes) (t : Tree) : Prop :=
  ∃ es, t = .node false es ∧
    List.Forall₂ (fun e line => ∃ b ns, e.2 = .str b ∧ Decodes b ns ∧ Utf8Text line ns) es lines

/-- RFC 8259 text of an object whose output is the lines. -/
def Replies (lines : List Bytes) (body : Bytes) : Prop :=
  ∃ d t, Text RfcBody d body t ∧ OneMember (Spelled K_OUTPUT) (LinesArray lines) t

/-- A byte that a string can hold, or one that the route escapes. -/
def Written (c : UInt8) : Prop := 0x20 ≤ c ∨ c = 0x0A ∨ c = 0x0D

/-! ## Escaping -/

theorem escapeByte_self {c : UInt8} (quote : c ≠ QUOTE) (slash : c ≠ BACKSLASH) (lf : c ≠ 0x0A)
    (cr : c ≠ 0x0D) : escapeByte c = [c] := by
  simp only [escapeByte, quote, slash, lf, cr, if_false]

theorem escapeByte_quoted (c : UInt8) : Quoted (escapeByte c) := by
  simp only [escapeByte]
  split_ifs with quote slash
  · exact .escaped .nil
  · exact .escaped .nil
  · exact .escaped .nil
  · exact .escaped .nil
  · exact .plain slash quote .nil

theorem escapeLine_quoted (line : Bytes) : Quoted (escapeLine line) := by
  induction line with
  | nil => exact .nil
  | cons c line ih =>
      rw [escapeLine, List.flatMap_cons]
      exact (escapeByte_quoted c).append ih

/-- A control character that is not escaped is no part of a string of the RFC. -/
theorem written_of_rfc {line : Bytes} (rfc : RfcBody (escapeLine line)) :
    ∀ c ∈ line, Written c := by
  intro c inside
  by_cases quote : c = QUOTE
  · exact .inl (by rw [quote]; decide)
  · by_cases slash : c = BACKSLASH
    · exact .inl (by rw [slash]; decide)
    · by_cases lf : c = 0x0A
      · exact .inr (.inl lf)
      · by_cases cr : c = 0x0D
        · exact .inr (.inr cr)
        · refine .inl (rfc.quoted.2 c (List.mem_flatMap.mpr ⟨c, inside, ?_⟩))
          rw [escapeByte_self quote slash lf cr]
          exact List.mem_singleton_self c

/-- The bytes of a character outside ASCII go out as they are. -/
theorem escapeLine_high {w : Bytes} (high : ∀ c ∈ w, 0x80 ≤ c) : escapeLine w = w := by
  induction w with
  | nil => rfl
  | cons c w ih =>
      obtain ⟨first, rest⟩ := List.forall_mem_cons.mp high
      have other {d : UInt8} (low : ¬ 0x80 ≤ d) : c ≠ d := fun same => low (same ▸ first)
      rw [escapeLine, List.flatMap_cons, escapeByte_self (other (by decide)) (other (by decide))
        (other (by decide)) (other (by decide))]
      exact congrArg (c :: ·) (ih rest)

theorem escapeLine_character {w : Bytes} {n : Nat} (utf8 : Utf8 w n)
    (written : ∀ c ∈ w, Written c) : Character (escapeLine w) n := by
  by_cases ascii : ∃ a, w = [a] ∧ a < 0x80
  · obtain ⟨a, rfl, -⟩ := ascii
    cases utf8 with
    | one low =>
        have out : escapeLine [a] = escapeByte a := by simp [escapeLine]
        rw [out]
        by_cases quote : a = QUOTE
        · subst quote
          exact .short (by decide)
        · by_cases slash : a = BACKSLASH
          · subst slash
            exact .short (by decide)
          · by_cases lf : a = 0x0A
            · subst lf
              exact .short (by decide)
            · by_cases cr : a = 0x0D
              · subst cr
                exact .short (by decide)
              · rw [escapeByte_self quote slash lf cr]
                obtain printable | same | same := written a List.mem_cons_self
                · exact .unescaped (.one low) (UInt8.le_iff_toNat_le.mp printable)
                    (fun same => quote (UInt8.toNat_inj.mp same))
                    (fun same => slash (UInt8.toNat_inj.mp same))
                · exact absurd same lf
                · exact absurd same cr
  · have high : ∀ c ∈ w, 0x80 ≤ c := utf8.high fun a same low => ascii ⟨a, same, low⟩
    have value := utf8.value_high high
    rw [escapeLine_high high]
    exact .unescaped utf8 (by omega) (by omega) (by omega)

theorem escapeLine_decodes {line : Bytes} {ns : List Nat} (utf8 : Utf8Text line ns)
    (written : ∀ c ∈ line, Written c) : Decodes (escapeLine line) ns := by
  induction utf8 with
  | nil => exact .nil
  | cons first _ ih =>
      rw [escapeLine, List.flatMap_append]
      exact .cons
        (escapeLine_character first fun c inside => written c (List.mem_append_left _ inside))
        (ih fun c inside => written c (List.mem_append_right _ inside))

/-! ## The tree of a reply -/

def wordOf (ok : Bool) : Bytes := ascii (if ok then "true".toList else "false".toList)

def lineElement (line : Bytes) : Bytes × Tree := ([], .str (escapeLine line))

def replyTree (ok : Bool) (lines : List Bytes) : Tree :=
  .node true [(ascii K_OK, .scalar (wordOf ok)),
    (ascii K_OUTPUT, .node false (lines.map lineElement))]

theorem replyHead_eq (ok : Bool) :
    replyHead ok = opening true :: QUOTE :: (ascii K_OK ++ QUOTE :: COLON :: (wordOf ok ++
      COMMA :: QUOTE :: (ascii K_OUTPUT ++ [QUOTE, COLON]))) := by
  cases ok <;> decide

/-- What follows the first line of an array. -/
def moreLines (lines : List Bytes) : Bytes :=
  lines.flatMap fun line => COMMA :: QUOTE :: (escapeLine line ++ [QUOTE])

theorem foldl_line (output : Bytes) (lines : List Bytes) :
    (lines.foldl CmdOutput.line ⟨output, false⟩).output = output ++ moreLines lines := by
  induction lines generalizing output with
  | nil => simp [moreLines]
  | cons line lines ih =>
      rw [List.foldl_cons, CmdOutput.line]
      simp only [Bool.false_eq_true, if_false, ih, moreLines, List.flatMap_cons]
      simp

theorem cmdOutput_cons (line : Bytes) (lines : List Bytes) :
    cmdOutput (line :: lines) = opening false :: QUOTE :: (escapeLine line ++
      QUOTE :: (moreLines lines ++ [closing false])) := by
  rw [cmdOutput, List.foldl_cons, CmdOutput.line]
  simp only [if_true, foldl_line]
  simp

theorem moreLines_members (line : Bytes) (lines : List Bytes) (rest : Bytes) :
    Members Quoted false (Value Quoted 0)
      (QUOTE :: (escapeLine line ++ QUOTE :: (moreLines lines ++ closing false :: rest)))
      ((line :: lines).map lineElement) rest := by
  induction lines generalizing line with
  | nil => exact .last .element (.str (escapeLine_quoted line)) rfl
  | cons next lines ih =>
      have cut : moreLines (next :: lines) ++ closing false :: rest =
          COMMA :: QUOTE ::
            (escapeLine next ++ QUOTE :: (moreLines lines ++ closing false :: rest)) := by
        simp only [moreLines, List.flatMap_cons, List.cons_append, List.append_assoc,
          List.nil_append]
      rw [cut]
      refine .more .element (.str (escapeLine_quoted line)) rfl ?_
      rw [skipWs_of_not_ws rfl]
      exact ih next

theorem cmdOutput_value (lines : List Bytes) (rest : Bytes) :
    Value Quoted 1 (skipWs (cmdOutput lines ++ rest)) (.node false (lines.map lineElement))
      rest := by
  cases lines with
  | nil => exact .inr (.empty rfl)
  | cons line lines =>
      have cut : cmdOutput (line :: lines) ++ rest = opening false :: QUOTE :: (escapeLine line ++
          QUOTE :: (moreLines lines ++ closing false :: rest)) := by
        simp only [cmdOutput_cons, List.cons_append, List.append_assoc, List.nil_append]
      rw [cut, skipWs_of_not_ws rfl]
      refine .inr (.members ?_)
      rw [skipWs_of_not_ws rfl]
      exact moreLines_members line lines rest

theorem wordOf_value (ok : Bool) (rest : Bytes) :
    Value Quoted 1 (skipWs (wordOf ok ++ rest)) (.scalar (wordOf ok)) rest := by
  have known : wordOf ok ∈ WORDS := by
    cases ok <;> decide
  cases ok with
  | false => exact .inl (.word known)
  | true => exact .inl (.word known)

theorem cmdReply_text (ok : Bool) (lines : List Bytes) :
    Text Quoted 2 (cmdReply ok lines) (replyTree ok lines) := by
  have names : Quoted (ascii K_OK) ∧ Quoted (ascii K_OUTPUT) :=
    ⟨.of_plain (by decide +kernel), .of_plain (by decide +kernel)⟩
  refine ⟨[], .inr ?_, rfl⟩
  rw [cmdReply, replyHead_eq]
  simp only [List.cons_append, List.append_assoc, List.nil_append]
  rw [skipWs_of_not_ws rfl]
  refine .members ?_
  rw [skipWs_of_not_ws rfl]
  refine .more (.name names.1 rfl) (wordOf_value ok _) rfl ?_
  rw [skipWs_of_not_ws rfl]
  exact .last (.name names.2 rfl) (cmdOutput_value lines [closing true]) rfl

/-! ## What a reply says -/

theorem mem_strings {ok : Bool} {lines : List Bytes} {b : Bytes} :
    b ∈ (replyTree ok lines).strings ↔
      b = ascii K_OK ∨ b = ascii K_OUTPUT ∨ ∃ line ∈ lines, escapeLine line = b := by
  have elements (lines : List Bytes) :
      memberStrings false (lines.map lineElement) = lines.map escapeLine := by
    induction lines with
    | nil => rfl
    | cons line lines ih => simp [memberStrings, lineElement, Tree.strings, ih]
  simp [replyTree, Tree.strings, memberStrings, elements]

/-- The reply is text of the RFC only if no control character goes out as it is. -/
theorem written_of_text {ok : Bool} {lines : List Bytes} {d : Nat} {t : Tree}
    (text : Text RfcBody d (cmdReply ok lines) t) : ∀ line ∈ lines, ∀ c ∈ line, Written c := by
  obtain ⟨wide, strict⟩ := (Text.narrows fun _ rfc => rfc.quoted.1).mp text
  obtain rfl : t = replyTree ok lines :=
    Text.unique quoted_cuts (wide.deepen (Nat.le_max_left d 2))
      ((cmdReply_text ok lines).deepen (Nat.le_max_right d 2))
  intro line inside
  exact written_of_rfc (strict _ (mem_strings.mpr (.inr (.inr ⟨line, inside, rfl⟩))))

theorem decodes_length_le {b : Bytes} {ns : List Nat} (decodes : Decodes b ns) :
    ns.length ≤ b.length := by
  induction decodes with
  | nil => exact Nat.le_refl 0
  | cons first _ ih =>
      have : 0 < _ := List.length_pos_iff.mpr (Config.Character.nonempty first)
      simp only [List.length_cons, List.length_append]
      omega

theorem replies_of_written {lines : List Bytes} (ok : Bool)
    (utf8 : ∀ line ∈ lines, ∃ ns, Utf8Text line ns)
    (written : ∀ line ∈ lines, ∀ c ∈ line, Written c) : Replies lines (cmdReply ok lines) := by
  have output : Spelled K_OUTPUT (ascii K_OUTPUT) := decodes_ascii (by decide +kernel)
  have ok_name : Spelled K_OK (ascii K_OK) := decodes_ascii (by decide +kernel)
  have line_decodes {line : Bytes} (inside : line ∈ lines) :
      ∃ ns, Decodes (escapeLine line) ns ∧ Utf8Text line ns := by
    obtain ⟨ns, text⟩ := utf8 line inside
    exact ⟨ns, escapeLine_decodes text (written line inside), text⟩
  refine ⟨2, replyTree ok lines, (Text.narrows fun _ rfc => rfc.quoted.1).mpr
    ⟨cmdReply_text ok lines, ?_⟩, ?_⟩
  · intro b string
    obtain rfl | rfl | ⟨line, inside, rfl⟩ := mem_strings.mp string
    · exact ⟨_, ok_name⟩
    · exact ⟨_, output⟩
    · obtain ⟨ns, decodes, -⟩ := line_decodes inside
      exact ⟨ns, decodes⟩
  · refine ⟨[(ascii K_OK, .scalar (wordOf ok))], _, _, [], rfl, output, ⟨_, rfl, ?_⟩, ?_⟩
    · rw [List.forall₂_map_left_iff, List.forall₂_same]
      intro line inside
      obtain ⟨ns, decodes, text⟩ := line_decodes inside
      exact ⟨_, ns, rfl, decodes, text⟩
    · intro m other spelled
      obtain rfl := List.mem_singleton.mp other
      have short : (K_OUTPUT.map Char.toNat).length ≤ (ascii K_OK).length :=
        decodes_length_le spelled
      exact absurd short (by decide)

/-- The reply is RFC 8259 text whose output decodes to the lines exactly when the lines hold no
control character but line feeds and carriage returns. -/
theorem cmdReply_replies_iff (ok : Bool) (lines : List Bytes)
    (utf8 : ∀ line ∈ lines, ∃ ns, Utf8Text line ns) :
    Replies lines (cmdReply ok lines) ↔
      ∀ line ∈ lines, ∀ c ∈ line, 0x20 ≤ c ∨ c = 0x0A ∨ c = 0x0D := by
  constructor
  · rintro ⟨d, t, text, -⟩
    exact written_of_text text
  · exact replies_of_written ok utf8

/-- A quote and a line feed, and an empty line. -/
theorem cmdReply_replies_quote :
    Replies [[0x22, 0x0A], []] (cmdReply true [[0x22, 0x0A], []]) := by
  refine (cmdReply_replies_iff true _ ?_).mpr (by decide +kernel)
  intro line inside
  obtain rfl | rfl : line = [0x22, 0x0A] ∨ line = [] := by simpa using inside
  · exact ⟨_, .cons (.one (by decide)) (.cons (.one (by decide)) .nil)⟩
  · exact ⟨_, .nil⟩

/-- One line that is a tab. -/
theorem tab_breaks_reply :
    ¬∀ (ok : Bool) (lines : List Bytes),
      (∀ line ∈ lines, (∃ ns, Utf8Text line ns) ∧ 0 ∉ line) →
        Replies lines (cmdReply ok lines) := by
  intro replies
  obtain ⟨d, t, text, -⟩ := replies true [[0x09]] (by
    intro line inside
    obtain rfl := List.mem_singleton.mp inside
    exact ⟨⟨_, .cons (.one (by decide)) .nil⟩, by decide⟩)
  have written := written_of_text text [0x09] List.mem_cons_self 0x09 List.mem_cons_self
  exact absurd written (by simp [Written])

end Thesada.Http
