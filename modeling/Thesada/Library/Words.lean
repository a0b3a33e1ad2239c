import Mathlib.Data.List.DropRight
import Mathlib.Data.List.TakeWhile

/-!
# The words of a text

A text is cut into words at its blanks: a word is a maximal run of symbols that are not blank.
`wordsRest` finds them from the left, one after the other, and can take everything from some word
on as a last one.
-/

variable {α : Type*} (blank : α → Bool)

/-- The maximal runs of symbols that are not blank. -/
def words (s : List α) : List (List α) := (s.splitOnP blank).filter fun w => !w.isEmpty

/-- The text from the word behind `k` others on, up to the last symbol that is not blank. -/
structure WordsTail (k : Nat) (s rest before after : List α) : Prop where
  parts : s = before ++ rest ++ after
  words_before : words blank before = (words blank s).take k
  /-- It starts where a word does. -/
  start : before = [] ∨ ∃ b, before.getLast? = some b ∧ blank b = true
  first : ∃ c, rest.head? = some c ∧ blank c = false
  last : ∃ c, rest.getLast? = some c ∧ blank c = false
  blanks_after : ∀ c ∈ after, blank c = true

theorem length_dropWhile_le (p : α → Bool) (s : List α) : (s.dropWhile p).length ≤ s.length :=
  (List.dropWhile_suffix p).length_le

/-- The words from the left; behind `k` of them the rest is one. -/
def wordsRest (k : Option Nat) (s : List α) : List (List α) :=
  match found : s.dropWhile blank with
  | [] => []
  | c :: t =>
      if k = some 0 then [(c :: t).rdropWhile blank]
      else (c :: t.takeWhile fun c => !blank c) ::
        wordsRest (k.map (· - 1)) (t.dropWhile fun c => !blank c)
termination_by s.length
decreasing_by
  have inside := length_dropWhile_le blank s
  rw [found] at inside
  exact Nat.lt_of_le_of_lt (length_dropWhile_le _ t) inside

section

variable {blank} {s t x y w : List α} {b c : α}

/-! ## Words at a blank -/

theorem words_append_cons (isBlank : blank b = true) :
    words blank (x ++ b :: y) = words blank x ++ words blank y := by
  rw [words, List.splitOnP_append_cons x y isBlank, List.filter_append]
  rfl

theorem words_cons (isBlank : blank b = true) : words blank (b :: s) = words blank s :=
  words_append_cons (x := []) isBlank

theorem words_of_blank (blanks : ∀ c ∈ s, blank c = true) : words blank s = [] := by
  induction s with
  | nil => rfl
  | cons c s ih =>
      obtain ⟨isBlank, rest⟩ := List.forall_mem_cons.mp blanks
      rw [words_cons isBlank, ih rest]

/-- Blanks before a text belong to no word. -/
theorem words_blank_append (blanks : ∀ c ∈ x, blank c = true) :
    words blank (x ++ s) = words blank s := by
  induction x with
  | nil => rfl
  | cons c x ih =>
      obtain ⟨isBlank, rest⟩ := List.forall_mem_cons.mp blanks
      rw [List.cons_append, words_cons isBlank, ih rest]

/-- A word, and behind it nothing or a blank. -/
theorem words_word_append (full : ∀ c ∈ w, blank c = false) (nonempty : w ≠ [])
    (cut : ∀ b, t.head? = some b → blank b = true) :
    words blank (w ++ t) = w :: words blank t := by
  have one : words blank w = [w] := by
    rw [words, List.splitOnP_eq_singleton full]
    simp [nonempty]
  cases t with
  | nil => rw [List.append_nil, one, words_of_blank fun c mem => absurd mem List.not_mem_nil]
  | cons b t => rw [words_append_cons (cut b rfl), one, words_cons (cut b rfl)]; rfl

/-! ## Words from the left -/

theorem not_blank_of_found (found : s.dropWhile blank = c :: t) : blank c = false := by
  have head := List.head?_dropWhile_not blank s
  rw [found] at head
  simpa using head

/-- What stands behind a word starts with a blank. -/
theorem blank_behind (first : (t.dropWhile fun c => !blank c).head? = some b) :
    blank b = true := by
  have head := List.head?_dropWhile_not (fun c => !blank c) t
  rw [first] at head
  simpa using head

theorem word_full (found : s.dropWhile blank = c :: t) :
    ∀ d ∈ c :: t.takeWhile fun c => !blank c, blank d = false := by
  intro d mem
  obtain rfl | later := List.mem_cons.mp mem
  · exact not_blank_of_found found
  · simpa using List.mem_takeWhile_imp later

/-- The blanks before the first word, that word and the rest. -/
theorem split_first (found : s.dropWhile blank = c :: t) :
    s = s.takeWhile blank ++
      ((c :: t.takeWhile fun c => !blank c) ++ t.dropWhile fun c => !blank c) := by
  rw [List.cons_append, List.takeWhile_append_dropWhile, ← found,
    List.takeWhile_append_dropWhile]

/-- The first word of a text. -/
theorem words_first (found : s.dropWhile blank = c :: t) :
    words blank s =
      (c :: t.takeWhile fun c => !blank c) :: words blank (t.dropWhile fun c => !blank c) := by
  conv => lhs; rw [split_first found]
  rw [words_blank_append fun c mem => List.mem_takeWhile_imp mem]
  exact words_word_append (word_full found) (List.cons_ne_nil _ _) fun b first =>
    blank_behind first

theorem words_of_end (found : s.dropWhile blank = []) : words blank s = [] :=
  words_of_blank (List.dropWhile_eq_nil_iff.mp found)

theorem wordsRest_of_end {k : Option Nat} (found : s.dropWhile blank = []) :
    wordsRest blank k s = [] := by
  rw [wordsRest]
  split
  · rfl
  · next other => rw [found] at other; cases other

theorem wordsRest_zero (found : s.dropWhile blank = c :: t) :
    wordsRest blank (some 0) s = [(c :: t).rdropWhile blank] := by
  rw [wordsRest]
  split
  · next other => rw [found] at other; cases other
  · next same =>
      rw [found] at same
      cases same
      rw [if_pos rfl]

theorem wordsRest_cons {k : Option Nat} (found : s.dropWhile blank = c :: t)
    (more : k ≠ some 0) :
    wordsRest blank k s =
      (c :: t.takeWhile fun c => !blank c) ::
        wordsRest blank (k.map (· - 1)) (t.dropWhile fun c => !blank c) := by
  rw [wordsRest]
  split
  · next other => rw [found] at other; cases other
  · next same =>
      rw [found] at same
      cases same
      rw [if_neg more]

theorem wordsRest_ne_nil {k : Option Nat} (found : s.dropWhile blank = c :: t) :
    wordsRest blank k s ≠ [] := by
  by_cases last : k = some 0
  · rw [last, wordsRest_zero found]
    exact List.cons_ne_nil _ _
  · rw [wordsRest_cons found last]
    exact List.cons_ne_nil _ _

/-- Blanks before a text change nothing. -/
theorem wordsRest_blank {k : Option Nat} (isBlank : blank b = true) :
    wordsRest blank k (b :: s) = wordsRest blank k s := by
  have same : (b :: s).dropWhile blank = s.dropWhile blank := List.dropWhile_cons_of_pos isBlank
  cases found : s.dropWhile blank with
  | nil => rw [wordsRest_of_end found, wordsRest_of_end (same.trans found)]
  | cons c t =>
      by_cases last : k = some 0
      · rw [last, wordsRest_zero found, wordsRest_zero (same.trans found)]
      · rw [wordsRest_cons found last, wordsRest_cons (same.trans found) last]

/-- The rest behind a word is shorter than the text. -/
theorem rest_lt (found : s.dropWhile blank = c :: t) :
    (t.dropWhile fun c => !blank c).length < s.length := by
  have inside := length_dropWhile_le blank s
  rw [found] at inside
  exact Nat.lt_of_le_of_lt (length_dropWhile_le _ t) inside

/-- Without a last one these are the words. -/
theorem wordsRest_none (s : List α) : wordsRest blank none s = words blank s := by
  induction n : s.length using Nat.strong_induction_on generalizing s with
  | _ n ih =>
      cases found : s.dropWhile blank with
      | nil => rw [wordsRest_of_end found, words_of_end found]
      | cons c t =>
          rw [wordsRest_cons found (by simp), words_first found, Option.map_none,
            ih _ (n ▸ rest_lt found) _ rfl]

/-- With as few words as that there is no rest. -/
theorem wordsRest_few {k : Nat} (few : (words blank s).length ≤ k) :
    wordsRest blank (some k) s = words blank s := by
  induction k generalizing s with
  | zero =>
      cases found : s.dropWhile blank with
      | nil => rw [wordsRest_of_end found, words_of_end found]
      | cons c t =>
          rw [words_first found] at few
          simp at few
  | succ k ih =>
      cases found : s.dropWhile blank with
      | nil => rw [wordsRest_of_end found, words_of_end found]
      | cons c t =>
          rw [words_first found, List.length_cons] at few
          have later := ih (Nat.le_of_succ_le_succ few)
          rw [wordsRest_cons found (by simp), words_first found]
          exact congrArg _ later

theorem rest_ne_nil (isFull : blank c = false) : (c :: t).rdropWhile blank ≠ [] := by
  intro empty
  have all := List.rdropWhile_eq_nil_iff.mp empty c List.mem_cons_self
  rw [isFull] at all
  cases all

/-- A rest that starts with the first word. -/
theorem wordsTail_zero (found : s.dropWhile blank = c :: t) :
    WordsTail blank 0 s ((c :: t).rdropWhile blank) (s.takeWhile blank)
      ((c :: t).rtakeWhile blank) := by
  have isFull := not_blank_of_found found
  have nonempty := rest_ne_nil (t := t) isFull
  refine ⟨?_, ?_, ?_, ?_, ?_, ?_⟩
  · rw [List.append_assoc, List.rdropWhile_append_rtakeWhile, ← found,
      List.takeWhile_append_dropWhile]
  · rw [List.take_zero]
    exact words_of_blank fun d mem => List.mem_takeWhile_imp mem
  · cases last : (s.takeWhile blank).getLast? with
    | none => exact .inl (List.getLast?_eq_none_iff.mp last)
    | some b => exact .inr ⟨b, rfl, List.mem_takeWhile_imp (List.mem_of_getLast? last)⟩
  · refine ⟨c, ?_, isFull⟩
    obtain ⟨after, whole⟩ := List.rdropWhile_prefix blank (l := c :: t)
    obtain ⟨d, rest, isRest⟩ := List.exists_cons_of_ne_nil nonempty
    rw [isRest, List.cons_append] at whole
    rw [isRest, List.head?_cons, (List.cons.inj whole).1]
  · refine ⟨_, List.getLast?_eq_some_getLast nonempty, ?_⟩
    simpa using List.rdropWhile_last_not blank (c :: t) nonempty
  · exact fun d mem => List.mem_rtakeWhile_imp mem

/-- A rest behind the first word is one of the text behind that word. -/
theorem wordsTail_succ {k : Nat} {rest before after : List α} (found : s.dropWhile blank = c :: t)
    (tail : WordsTail blank k (t.dropWhile fun c => !blank c) rest before after) :
    WordsTail blank (k + 1) s rest
      (s.takeWhile blank ++ ((c :: t.takeWhile fun c => !blank c) ++ before)) after := by
  have behind : ∀ b, before.head? = some b → blank b = true := by
    intro b first
    apply blank_behind (t := t)
    rw [tail.parts, List.append_assoc, List.head?_append, first]
    rfl
  -- what is left behind a word starts with a blank, and the rest does not
  have apart : before ≠ [] := by
    rintro rfl
    obtain ⟨d, first, isFull⟩ := tail.first
    have isBlank : blank d = true := by
      apply blank_behind (t := t)
      rw [tail.parts, List.nil_append, List.head?_append, first]
      rfl
    rw [isFull] at isBlank
    cases isBlank
  refine ⟨?_, ?_, ?_, tail.first, tail.last, tail.blanks_after⟩
  · conv => lhs; rw [split_first found, tail.parts]
    simp only [List.append_assoc]
  · rw [words_blank_append fun d mem => List.mem_takeWhile_imp mem,
      words_word_append (word_full found) (List.cons_ne_nil _ _) behind, tail.words_before,
      words_first found, List.take_succ_cons]
  · obtain empty | ⟨b, last, isBlank⟩ := tail.start
    · exact absurd empty apart
    · refine .inr ⟨b, ?_, isBlank⟩
      rw [List.getLast?_append, List.getLast?_append, last]
      rfl

/-- With more words than that the rest starts with the next one. -/
theorem wordsRest_tail {k : Nat} (more : k < (words blank s).length) :
    ∃ rest before after, WordsTail blank k s rest before after ∧
      wordsRest blank (some k) s = (words blank s).take k ++ [rest] := by
  induction k generalizing s with
  | zero =>
      cases found : s.dropWhile blank with
      | nil =>
          rw [words_of_end found] at more
          cases more
      | cons c t => exact ⟨_, _, _, wordsTail_zero found, wordsRest_zero found⟩
  | succ k ih =>
      cases found : s.dropWhile blank with
      | nil =>
          rw [words_of_end found] at more
          cases more
      | cons c t =>
          rw [words_first found, List.length_cons] at more
          obtain ⟨rest, before, after, tail, split⟩ := ih (Nat.lt_of_succ_lt_succ more)
          refine ⟨rest, _, after, wordsTail_succ found tail, ?_⟩
          rw [wordsRest_cons found (by simp), words_first found, List.take_succ_cons]
          exact congrArg _ split

end
