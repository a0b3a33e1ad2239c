import Mathlib.Algebra.Order.Ring.Nat
import Mathlib.Data.List.GetD
import Thesada.Library.CString
import Thesada.Library.JsonGrammar

/-!
# What a `cli_response` page holds

A reply has to fit the MQTT buffers beside its header and topic. Output is cut by its escaped
size, and a cut inside a UTF-8 character backs off to the character's start. `cliReplyCap` and
`cliPageLimit` are the two bounds, the page limit staying far enough below for what a page gets
when it is published.
-/

namespace Thesada.Cli

open CString JsonGrammar

def CLI_MQTT_FIXED_HEADER : Nat := 7

/-- `,"cont":true`. -/
def CLI_CONT_COST : Nat := 12

/-- Quotes and a comma. -/
def CLI_STR_OVERHEAD : Nat := 3

def CLI_PAGE_MARGIN : Nat := 160

def cliReplyCap (bufOut bufIn topicLen : Nat) : Nat :=
  let fixed := CLI_MQTT_FIXED_HEADER + topicLen
  let room := if fixed < bufIn then bufIn - fixed else 0
  if bufOut < room then bufOut else room

def cliPageLimit (replyCap : Nat) : Nat :=
  if CLI_PAGE_MARGIN < replyCap then replyCap - CLI_PAGE_MARGIN else replyCap / 2

/-- What ArduinoJson takes for a byte of a string. -/
def cliJsonCharCost (c : UInt8) : Nat :=
  if c ∈ [0x22, 0x5C, 0x08, 0x0C, 0x0A, 0x0D, 0x09] then 2
  else if c = 0 then 6
  else 1

/-- Escaped size of the first `n` bytes. -/
def cliJsonStrLen (s : Bytes) (n : Nat) : Nat := ((s.take n).map cliJsonCharCost).sum

/-- How many bytes a character takes that starts with this one. -/
def seqLen (c : UInt8) : Nat :=
  if c &&& 0xE0 = 0xC0 then 2
  else if c &&& 0xF0 = 0xE0 then 3
  else if c &&& 0xF8 = 0xF0 then 4
  else 1

/-- The loop of `cliUtf8Cut`, from `back` bytes before the end on. -/
def utf8CutFrom (s : Bytes) (n : Nat) : List Nat → Nat
  | [] => n
  | back :: rest =>
      if back < n then
        let c := s.getD (n - 1 - back) 0
        if c &&& 0xC0 = 0x80 then utf8CutFrom s n rest
        else if back + 1 < seqLen c then n - 1 - back
        else n
      else n

def cliUtf8Cut (s : Bytes) (n : Nat) : Nat := utf8CutFrom s n [0, 1, 2, 3]

/-- The loop of `cliJsonFit`. -/
def fitFrom (budget : Nat) : Bytes → Nat → Nat → Nat
  | [], _, m => m
  | c :: s, used, m =>
      if budget < used + cliJsonCharCost c then m
      else fitFrom budget s (used + cliJsonCharCost c) (m + 1)

/-- The longest piece of the first `n` bytes whose escaped size fits. -/
def cliJsonFit (s : Bytes) (n budget : Nat) : Nat :=
  let m := fitFrom budget (s.take n) 0 0
  if m = n then n else cliUtf8Cut s m

/-- How many bytes go on a page, and whether that is not all. -/
def cliNextPiece (s : Bytes) (n pageUsed pageLimit : Nat) : Nat × Bool :=
  let used := pageUsed + CLI_STR_OVERHEAD
  let room := if used < pageLimit then pageLimit - used else 0
  let whole := used ≤ pageLimit && cliJsonStrLen s n ≤ room
  if whole then (n, false)
  else (if CLI_CONT_COST < room then cliJsonFit s n (room - CLI_CONT_COST) else 0, true)

/-! ### Sizes of a document

`measureJson` as the number of bytes of the serialized text. -/

def strSize (s : Bytes) : Nat := 2 + cliJsonStrLen s s.length

def boolSize (b : Bool) : Nat := if b then 4 else 5

def natSize (n : Nat) : Nat := (Nat.toDigits 10 n).length

/-- Brackets around elements or members, with commas between. -/
def listSize (sizes : List Nat) : Nat := 2 + sizes.sum + (sizes.length - 1)

/-- A name in quotes, a colon and a value. -/
def memberSize (name : Str) (value : Nat) : Nat := name.length + 3 + value

/-! ## Cuts in a UTF-8 text -/

def IsUtf8 (s : Bytes) : Prop := ∃ ns, Utf8Text s ns

theorem IsUtf8.nil : IsUtf8 [] := ⟨[], .nil⟩

theorem IsUtf8.cons {w s : Bytes} {n : Nat} (first : Utf8 w n) (rest : IsUtf8 s) :
    IsUtf8 (w ++ s) := by
  obtain ⟨ns, text⟩ := rest
  exact ⟨n :: ns, .cons first text⟩

theorem IsUtf8.append {s r : Bytes} (first : IsUtf8 s) (rest : IsUtf8 r) : IsUtf8 (s ++ r) := by
  obtain ⟨ns, text⟩ := first
  induction text with
  | nil => exact rest
  | cons character _ ih =>
      rw [List.append_assoc]
      exact .cons character ih

/-- A place in a text is in one of its characters. -/
theorem IsUtf8.place {s : Bytes} (text : IsUtf8 s) {m : Nat} (inside : m < s.length) :
    ∃ a w b n, s = a ++ w ++ b ∧ IsUtf8 a ∧ Utf8 w n ∧ IsUtf8 b ∧ a.length ≤ m ∧
      m < a.length + w.length := by
  obtain ⟨ns, text⟩ := text
  induction text generalizing m with
  | nil => exact absurd inside (Nat.not_lt_zero m)
  | @cons w s n ns first rest ih =>
      by_cases here : m < w.length
      · exact ⟨[], w, s, n, by simp, .nil, first, ⟨ns, rest⟩, Nat.zero_le m, by simpa using here⟩
      · have later : m - w.length < s.length := by
          rw [List.length_append] at inside
          omega
        obtain ⟨a, v, b, k, rfl, before, at_m, after, low, high⟩ := ih later
        refine ⟨w ++ a, v, b, k, by simp, before.cons first, at_m, after, ?_, ?_⟩
        · rw [List.length_append]
          omega
        · rw [List.length_append]
          omega

/-- What holds of each of the 256 bytes. -/
theorem forall_byte {P : UInt8 → Prop} (all : ∀ i : Fin 256, P (UInt8.ofFin i)) (c : UInt8) : P c :=
  all c.toFin

theorem tail_mask (c : UInt8) : isTail c = true ↔ c &&& 0xC0 = 0x80 := by
  revert c
  apply forall_byte
  decide +kernel

theorem lead_mask (c : UInt8) :
    (c < 0x80 → c &&& 0xC0 ≠ 0x80 ∧ seqLen c = 1) ∧
      (0xC2 ≤ c → c ≤ 0xDF → c &&& 0xC0 ≠ 0x80 ∧ seqLen c = 2) ∧
      (0xE0 ≤ c → c ≤ 0xEF → c &&& 0xC0 ≠ 0x80 ∧ seqLen c = 3) ∧
      (0xF0 ≤ c → c ≤ 0xF4 → c &&& 0xC0 ≠ 0x80 ∧ seqLen c = 4) := by
  revert c
  apply forall_byte
  decide +kernel

/-- A character is a byte that tells its length and the tails that follow. -/
theorem utf8_lead {w : Bytes} {n : Nat} (utf8 : Utf8 w n) :
    ∃ c ts, w = c :: ts ∧ c &&& 0xC0 ≠ 0x80 ∧ seqLen c = ts.length + 1 ∧ ts.length ≤ 3 ∧
      ∀ t ∈ ts, t &&& 0xC0 = 0x80 := by
  cases utf8 with
  | one low =>
      obtain ⟨mask, len⟩ := (lead_mask _).1 low
      exact ⟨_, [], rfl, mask, len, by simp, by simp⟩
  | two low high tail =>
      obtain ⟨mask, len⟩ := (lead_mask _).2.1 low high
      exact ⟨_, _, rfl, mask, len, by simp, by simpa using (tail_mask _).mp tail⟩
  | three low high _ _ tail tail' =>
      obtain ⟨mask, len⟩ := (lead_mask _).2.2.1 low high
      exact ⟨_, _, rfl, mask, len, by simp,
        by simpa using ⟨(tail_mask _).mp tail, (tail_mask _).mp tail'⟩⟩
  | four low high _ _ tail tail' tail'' =>
      obtain ⟨mask, len⟩ := (lead_mask _).2.2.2 low high
      exact ⟨_, _, rfl, mask, len, by simp,
        by simpa using ⟨(tail_mask _).mp tail, (tail_mask _).mp tail', (tail_mask _).mp tail''⟩⟩

theorem getD_place (a b : Bytes) (c : UInt8) (ts : Bytes) {k : Nat} (le : k ≤ ts.length) :
    (a ++ c :: ts ++ b).getD (a.length + k) 0 = (c :: ts).getD k 0 := by
  have within : k < (c :: ts).length := Nat.lt_succ_of_le le
  rw [List.append_assoc, List.getD_append_right _ _ _ _ (Nat.le_add_right _ _),
    Nat.add_sub_cancel_left, List.getD_append _ _ _ _ within]

/-- A cut inside a character goes back to its start, one behind it stays. -/
theorem cliUtf8Cut_place (a b : Bytes) {c : UInt8} {ts : Bytes} (lead : c &&& 0xC0 ≠ 0x80)
    (len : seqLen c = ts.length + 1) (short : ts.length ≤ 3)
    (tails : ∀ t ∈ ts, t &&& 0xC0 = 0x80) {j : Nat} (le : j ≤ ts.length) :
    cliUtf8Cut (a ++ c :: ts ++ b) (a.length + j + 1) =
      if j < ts.length then a.length else a.length + j + 1 := by
  have back (rest : List Nat) {i : Nat} (before : i < j) :
      utf8CutFrom (a ++ c :: ts ++ b) (a.length + j + 1) (i :: rest) =
        utf8CutFrom (a ++ c :: ts ++ b) (a.length + j + 1) rest := by
    have at_i : a.length + j + 1 - 1 - i = a.length + (j - i) := by omega
    have tail : (c :: ts).getD (j - i) 0 &&& 0xC0 = 0x80 := by
      obtain ⟨k, same⟩ : ∃ k, j - i = k + 1 := ⟨j - i - 1, by omega⟩
      have within : k < ts.length := by omega
      rw [same, List.getD_cons_succ, List.getD_eq_getElem _ _ within]
      exact tails _ (List.getElem_mem within)
    rw [utf8CutFrom, if_pos (by omega), at_i, getD_place a b c ts (by omega)]
    simp only [tail, if_true]
  have stop (rest : List Nat) :
      utf8CutFrom (a ++ c :: ts ++ b) (a.length + j + 1) (j :: rest) =
        if j < ts.length then a.length else a.length + j + 1 := by
    have at_j : a.length + j + 1 - 1 - j = a.length + 0 := by omega
    rw [utf8CutFrom, if_pos (by omega), at_j, getD_place a b c ts (Nat.zero_le _)]
    simp only [List.getD_cons_zero, lead, if_false, len, Nat.add_lt_add_iff_right, Nat.add_zero]
  rw [cliUtf8Cut]
  obtain rfl | rfl | rfl | rfl : j = 0 ∨ j = 1 ∨ j = 2 ∨ j = 3 := by omega
  · exact stop _
  · rw [back _ (by decide), stop]
  · rw [back _ (by decide), back _ (by decide), stop]
  · rw [back _ (by decide), back _ (by decide), back _ (by decide), stop]

/-- A cut leaves whole characters on both sides. -/
theorem cliUtf8Cut_utf8 {s : Bytes} (text : IsUtf8 s) {n : Nat} (le : n ≤ s.length) :
    IsUtf8 (s.take (cliUtf8Cut s n)) ∧ IsUtf8 (s.drop (cliUtf8Cut s n)) := by
  cases n with
  | zero => exact ⟨.nil, text⟩
  | succ m =>
      obtain ⟨a, w, b, k, rfl, before, utf8, after, low, high⟩ := text.place le
      obtain ⟨c, ts, rfl, lead, len, short, tails⟩ := utf8_lead utf8
      obtain ⟨j, rfl⟩ := Nat.exists_eq_add_of_le low
      have inside : j ≤ ts.length := by
        rw [List.length_cons] at high
        omega
      rw [cliUtf8Cut_place a b lead len short tails inside]
      split
      · rw [List.append_assoc, List.take_left, List.drop_left]
        exact ⟨before, after.cons utf8⟩
      · have whole : a.length + j + 1 = (a ++ c :: ts).length := by
          rw [List.length_append, List.length_cons]
          omega
        rw [whole, List.take_left, List.drop_left]
        exact ⟨before.append (by simpa using IsUtf8.nil.cons utf8), after⟩

theorem cliUtf8Cut_le (s : Bytes) (n : Nat) : cliUtf8Cut s n ≤ n := by
  have loop (backs : List Nat) : utf8CutFrom s n backs ≤ n := by
    induction backs with
    | nil => exact Nat.le_refl n
    | cons back rest ih =>
        simp only [utf8CutFrom]
        split_ifs
        · exact ih
        · omega
        · exact Nat.le_refl n
        · exact Nat.le_refl n
  exact loop _

/-! ## Pieces that fit -/

theorem cliJsonStrLen_mono (s : Bytes) {m n : Nat} (le : m ≤ n) :
    cliJsonStrLen s m ≤ cliJsonStrLen s n := by
  obtain ⟨k, rfl⟩ := Nat.exists_eq_add_of_le le
  simp only [cliJsonStrLen, List.take_add, List.map_append, List.sum_append]
  exact Nat.le_add_right _ _

theorem cliJsonStrLen_take (s : Bytes) {m n : Nat} (le : m ≤ n) :
    cliJsonStrLen (s.take n) m = cliJsonStrLen s m := by
  rw [cliJsonStrLen, List.take_take, Nat.min_eq_left le, cliJsonStrLen]

/-- The loop ends at the first byte that does not fit. -/
theorem fitFrom_eq (budget : Nat) (s : Bytes) (used m : Nat) (fits : used ≤ budget) :
    ∃ k ≤ s.length, fitFrom budget s used m = m + k ∧ used + cliJsonStrLen s k ≤ budget ∧
      (k < s.length → budget < used + cliJsonStrLen s (k + 1)) := by
  induction s generalizing used m with
  | nil => exact ⟨0, Nat.le_refl 0, rfl, fits, by simp⟩
  | cons c s ih =>
      simp only [fitFrom]
      split
      · rename_i full
        exact ⟨0, Nat.zero_le _, rfl, by simpa [cliJsonStrLen] using fits,
          fun _ => by simpa [cliJsonStrLen] using full⟩
      · rename_i room
        obtain ⟨k, le, same, size, next⟩ :=
          ih (used + cliJsonCharCost c) (m + 1) (Nat.not_lt.mp room)
        refine ⟨k + 1, Nat.succ_le_succ le, by rw [same]; omega, ?_, ?_⟩
        · simpa [cliJsonStrLen, Nat.add_assoc] using size
        · intro more
          have fits := next (Nat.lt_of_succ_lt_succ more)
          simpa [cliJsonStrLen, Nat.add_assoc] using fits

/-- The piece fits, it is all of the text or ends between characters. -/
theorem cliJsonFit_spec (s : Bytes) (n budget : Nat) (le : n ≤ s.length) :
    cliJsonFit s n budget ≤ n ∧ cliJsonStrLen s (cliJsonFit s n budget) ≤ budget := by
  obtain ⟨k, short, same, size, -⟩ := fitFrom_eq budget (s.take n) 0 0 (Nat.zero_le _)
  rw [Nat.zero_add] at same size
  have within : k ≤ n := by
    rw [List.length_take] at short
    omega
  rw [cliJsonStrLen_take s within] at size
  simp only [cliJsonFit, same]
  split
  · rename_i all
    subst all
    exact ⟨Nat.le_refl k, size⟩
  · exact ⟨(cliUtf8Cut_le s k).trans within,
      (cliJsonStrLen_mono s (cliUtf8Cut_le s k)).trans size⟩

theorem cliJsonFit_utf8 {s : Bytes} (text : IsUtf8 s) (budget : Nat) :
    IsUtf8 (s.take (cliJsonFit s s.length budget)) ∧
      IsUtf8 (s.drop (cliJsonFit s s.length budget)) := by
  obtain ⟨k, short, same, -, -⟩ := fitFrom_eq budget (s.take s.length) 0 0 (Nat.zero_le _)
  rw [List.take_length] at same short
  rw [Nat.zero_add] at same
  simp only [cliJsonFit, List.take_length, same]
  split
  · rw [List.take_length, List.drop_length]
    exact ⟨text, .nil⟩
  · exact cliUtf8Cut_utf8 text short

theorem cliNextPiece_eq (s : Bytes) (n pageUsed pageLimit : Nat) :
    cliNextPiece s n pageUsed pageLimit =
      if pageUsed + CLI_STR_OVERHEAD + cliJsonStrLen s n ≤ pageLimit then (n, false)
      else (if pageUsed + CLI_STR_OVERHEAD + CLI_CONT_COST < pageLimit then
        cliJsonFit s n (pageLimit - (pageUsed + CLI_STR_OVERHEAD) - CLI_CONT_COST) else 0, true) := by
  have room : (if pageUsed + CLI_STR_OVERHEAD < pageLimit then
      pageLimit - (pageUsed + CLI_STR_OVERHEAD) else 0) =
        pageLimit - (pageUsed + CLI_STR_OVERHEAD) := by
    split <;> omega
  have more : CLI_CONT_COST < pageLimit - (pageUsed + CLI_STR_OVERHEAD) ↔
      pageUsed + CLI_STR_OVERHEAD + CLI_CONT_COST < pageLimit := by omega
  have whole : (pageUsed + CLI_STR_OVERHEAD ≤ pageLimit &&
      cliJsonStrLen s n ≤ pageLimit - (pageUsed + CLI_STR_OVERHEAD) : Bool) = true ↔
        pageUsed + CLI_STR_OVERHEAD + cliJsonStrLen s n ≤ pageLimit := by
    rw [Bool.and_eq_true, decide_eq_true_eq, decide_eq_true_eq]
    omega
  simp only [cliNextPiece, room, more, whole]

/-- A line that goes on a page as a whole leaves it within its limit. -/
theorem cliNextPiece_whole {s : Bytes} {n used limit m : Nat}
    (piece : cliNextPiece s n used limit = (m, false)) :
    m = n ∧ used + CLI_STR_OVERHEAD + cliJsonStrLen s n ≤ limit := by
  rw [cliNextPiece_eq] at piece
  split at piece
  · rename_i whole
    exact ⟨(Prod.mk.inj piece).1.symm, whole⟩
  · exact absurd (Prod.mk.inj piece).2 (by decide)

/-- A piece of a line leaves room for the mark that it goes on. -/
theorem cliNextPiece_split {s : Bytes} {n used limit m : Nat} (le : n ≤ s.length)
    (piece : cliNextPiece s n used limit = (m, true)) :
    m = 0 ∨ m < n ∧ used + CLI_STR_OVERHEAD + CLI_CONT_COST + cliJsonStrLen s m ≤ limit ∧
      ∃ budget, m = cliJsonFit s n budget := by
  rw [cliNextPiece_eq] at piece
  split at piece
  · exact absurd (Prod.mk.inj piece).2 (by decide)
  · rename_i whole
    obtain ⟨rfl, -⟩ := Prod.mk.inj piece
    split
    · obtain ⟨short, size⟩ :=
        cliJsonFit_spec s n (limit - (used + CLI_STR_OVERHEAD) - CLI_CONT_COST) le
      refine .inr ⟨Nat.lt_of_le_of_ne short ?_, by omega, _, rfl⟩
      intro all
      rw [all] at size
      omega
    · exact .inl rfl

end Thesada.Cli
