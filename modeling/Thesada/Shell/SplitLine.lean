import Mathlib.Data.List.Forall2
import Mathlib.Data.List.GetD
import Thesada.Library.Words
import Thesada.Shell.PumpConsole

/-!
# The command line split

`shellSplitLine` for any buffer, any number of `argv` slots and any `restFrom`; the console's is
the instance with `SHELL_LINE_MAX` and `SHELL_ARGS_MAX`. The line is cut in place, by a terminator
behind each argument, so a place in `argv` is a C string of its own.
-/

namespace Thesada.Shell

open CString

/-- The loop of `shellSplitLine`. Each turn but the last finds an argument; `scan` is enough for
every scan of the buffer. -/
def splitLoop (scan : Nat) (maxArgs restFrom : Int) :
    (turns : Nat) → Mem → Nat → List Nat → ShellLine × Mem × List Nat
  | 0, m, _, argv => (.ok, m, argv)
  | turns + 1, m, p, argv =>
      let p := skipBlanks m scan p
      if m p = '\x00' then (.ok, m, argv)
      else if (argv.length : Int) ≥ maxArgs then (.tooManyArgs, m, [])
      else if (argv.length : Int) = restFrom ∧ restFrom > 0 then
        let last := p + (readStr m p scan).length
        (.ok, Function.update m (trimEnd m scan last) '\x00', argv ++ [p])
      else
        let e := skipWord m scan p
        if m e ≠ '\x00' then
          splitLoop scan maxArgs restFrom turns (Function.update m e '\x00') (e + 1) (argv ++ [p])
        else splitLoop scan maxArgs restFrom turns m e (argv ++ [p])

/-- `shellSplitLine` with the places that `argc` counts. -/
def splitLine (line : Option Str) (buf : Mem) (bufSize : Nat) (maxArgs restFrom : Int) :
    ShellLine × Mem × List Nat :=
  match line with
  | none => (.tooLong, buf, [])
  | some text =>
      if !shellFits (some text) bufSize then (.tooLong, buf, [])
      else splitLoop bufSize maxArgs restFrom (maxArgs.toNat + 1) (copyStr buf text) 0 []

/-! ## The scans of a buffer -/

/-- A C string with its terminator, at a place of the buffer. -/
structure HoldsStr (m : Mem) (p : Nat) (text : Str) : Prop where
  plain : '\x00' ∉ text
  chars : ∀ i ≤ text.length, m (p + i) = text.getD i '\x00'

section

variable {m : Mem} {p left : Nat} {text w rest : Str} {c : Char}

theorem HoldsStr.read (h : HoldsStr m p text) (fits : text.length < left) :
    readStr m p left = text :=
  readStr_eq fits (fun _ mem nul => h.plain (nul ▸ mem)) h.chars

theorem HoldsStr.first (h : HoldsStr m p (c :: rest)) : m p = c := h.chars 0 (Nat.zero_le _)

theorem HoldsStr.nul (h : HoldsStr m p []) : m p = '\x00' := h.chars 0 (Nat.le_refl _)

/-- The end of a string is a string. -/
theorem HoldsStr.drop (h : HoldsStr m p (w ++ rest)) : HoldsStr m (p + w.length) rest := by
  refine ⟨fun mem => h.plain (List.mem_append_right _ mem), fun i le => ?_⟩
  have inside : w.length + i ≤ (w ++ rest).length := by
    rw [List.length_append]
    exact Nat.add_le_add_left le _
  rw [Nat.add_assoc, h.chars _ inside, List.getD_append_right _ _ _ _ (Nat.le_add_right _ _),
    Nat.add_sub_cancel_left]

theorem HoldsStr.nul_iff (h : HoldsStr m p text) : m p = '\x00' ↔ text = [] := by
  cases text with
  | nil => exact iff_of_true h.nul rfl
  | cons c rest =>
      refine iff_of_false ?_ (List.cons_ne_nil _ _)
      rw [h.first]
      exact fun nul => h.plain (nul ▸ List.mem_cons_self)

/-- A terminator behind a front of it makes that front a string. -/
theorem HoldsStr.cut (h : HoldsStr m p (w ++ rest)) :
    HoldsStr (Function.update m (p + w.length) '\x00') p w := by
  refine ⟨fun mem => h.plain (List.mem_append_left _ mem), fun i le => ?_⟩
  obtain inside | rfl := Nat.lt_or_eq_of_le le
  · have other : p + i ≠ p + w.length := by omega
    have whole : i ≤ (w ++ rest).length := by
      rw [List.length_append]
      omega
    rw [Function.update_of_ne other, h.chars i whole, List.getD_append _ _ _ _ inside]
  · rw [Function.update_self, List.getD_eq_default _ _ (Nat.le_refl _)]

/-- A write behind a string leaves it alone. -/
theorem HoldsStr.update (h : HoldsStr m p text) {q : Nat} (behind : p + text.length < q) :
    HoldsStr (Function.update m q c) p text := by
  refine ⟨h.plain, fun i le => ?_⟩
  have other : p + i ≠ q := by omega
  rw [Function.update_of_ne other, h.chars i le]

/-- A write before a string leaves it alone. -/
theorem HoldsStr.update_before (h : HoldsStr m p text) {q : Nat} (before : q < p) :
    HoldsStr (Function.update m q c) p text := by
  refine ⟨h.plain, fun i le => ?_⟩
  have other : p + i ≠ q := by omega
  rw [Function.update_of_ne other, h.chars i le]

theorem skipBlanks_eq (h : HoldsStr m p text) (fits : text.length < left) :
    skipBlanks m left p = p + (text.takeWhile isBlank).length := by
  induction text generalizing p left with
  | nil =>
      obtain ⟨left, rfl⟩ : ∃ n, left = n + 1 := ⟨left - 1, by simp at fits; omega⟩
      have stop : isBlank (m p) = false := by
        rw [h.nul]
        decide
      simp [skipBlanks, stop]
  | cons c text ih =>
      obtain ⟨left, rfl⟩ : ∃ n, left = n + 1 := ⟨left - 1, by simp at fits; omega⟩
      have next : HoldsStr m (p + 1) text := h.drop (w := [c])
      rw [skipBlanks, h.first]
      by_cases isBlank : isBlank c
      · rw [if_pos isBlank, ih next (Nat.lt_of_succ_lt_succ fits),
          List.takeWhile_cons_of_pos isBlank, List.length_cons]
        omega
      · rw [if_neg isBlank, List.takeWhile_cons_of_neg isBlank]
        rfl

theorem skipWord_eq (h : HoldsStr m p text) (fits : text.length < left) :
    skipWord m left p = p + (text.takeWhile fun c => !isBlank c).length := by
  induction text generalizing p left with
  | nil =>
      obtain ⟨left, rfl⟩ : ∃ n, left = n + 1 := ⟨left - 1, by simp at fits; omega⟩
      simp [skipWord, h.nul]
  | cons c text ih =>
      obtain ⟨left, rfl⟩ : ∃ n, left = n + 1 := ⟨left - 1, by simp at fits; omega⟩
      have next : HoldsStr m (p + 1) text := h.drop (w := [c])
      have some : c ≠ '\x00' := fun nul => h.plain (nul ▸ List.mem_cons_self)
      rw [skipWord, h.first]
      by_cases full : isBlank c = false
      · rw [if_pos (by simp [some, full]), ih next (Nat.lt_of_succ_lt_succ fits),
          List.takeWhile_cons_of_pos (by simp [full]), List.length_cons]
        omega
      · rw [if_neg (by simp [full]), List.takeWhile_cons_of_neg (by simpa using full)]
        rfl

/-- The scan backwards comes to the last character that is not blank. -/
theorem trimEnd_eq (chars : ∀ i < text.length, m (p + i) = text.getD i '\x00')
    (full : ∃ c ∈ text, isBlank c = false) (fits : text.length ≤ left) :
    trimEnd m left (p + text.length) = p + (text.rdropWhile isBlank).length := by
  induction text using List.reverseRecOn generalizing left with
  | nil => obtain ⟨c, mem, -⟩ := full; cases mem
  | append_singleton text c ih =>
      rw [List.length_append, List.length_singleton] at fits chars ⊢
      obtain ⟨left, rfl⟩ : ∃ n, left = n + 1 := ⟨left - 1, by omega⟩
      have last : m (p + text.length) = c := by
        rw [chars _ (Nat.lt_succ_self _), List.getD_append_right _ _ _ _ (Nat.le_refl _),
          Nat.sub_self]
        rfl
      rw [trimEnd, ← Nat.add_assoc, Nat.add_sub_cancel, last]
      by_cases blank : isBlank c
      · rw [if_pos blank, List.rdropWhile_concat_pos _ _ _ blank]
        apply ih
        · intro i below
          rw [chars i (Nat.lt_succ_of_lt below), List.getD_append _ _ _ _ below]
        · obtain ⟨d, mem, isFull⟩ := full
          obtain front | same := List.mem_append.mp mem
          · exact ⟨d, front, isFull⟩
          · rw [List.mem_singleton.mp same, blank] at isFull
            cases isFull
        · exact Nat.le_of_succ_le_succ fits
      · rw [if_neg blank, List.rdropWhile_concat_neg _ _ _ blank, List.length_append,
          List.length_singleton, Nat.add_assoc]

/-! ## The loop -/

/-- The arguments found so far, all of them before `p`. -/
def HoldsArgs (m : Mem) (p : Nat) (argv : List Nat) (args : List Str) : Prop :=
  List.Forall₂ (fun a s => HoldsStr m a s ∧ a + s.length ≤ p) argv args

theorem HoldsArgs.update {argv : List Nat} {args : List Str} (h : HoldsArgs m p argv args) {q : Nat}
    (behind : p < q) : HoldsArgs (Function.update m q c) p argv args :=
  h.imp fun _ _ held => ⟨held.1.update (Nat.lt_of_le_of_lt held.2 behind), held.2⟩

theorem HoldsArgs.snoc {argv : List Nat} {args : List Str} (h : HoldsArgs m p argv args) {q e : Nat}
    (held : HoldsStr m q w) (inside : q + w.length ≤ e) (later : p ≤ e) :
    HoldsArgs m e (argv ++ [q]) (args ++ [w]) := by
  apply List.rel_append
  · exact h.imp fun _ _ old => ⟨old.1, old.2.trans later⟩
  · exact .cons ⟨held, inside⟩ .nil

theorem HoldsArgs.read {argv : List Nat} {args : List Str} (h : HoldsArgs m p argv args)
    (fits : p < left) : argv.map (readStr m · left) = args := by
  induction h with
  | nil => rfl
  | cons held _ ih =>
      rw [List.map_cons, ih, held.1.read (by have := held.2; omega)]

/-- The words still to come before the rest, when there is one. -/
def restAfter (restFrom : Int) (n : Nat) : Option Nat :=
  if 0 < restFrom ∧ (n : Int) ≤ restFrom then some (restFrom - n).toNat else none

theorem restAfter_zero {restFrom : Int} {n : Nat} :
    restAfter restFrom n = some 0 ↔ (n : Int) = restFrom ∧ restFrom > 0 := by
  rw [restAfter]
  split
  · rw [Option.some.injEq]
    omega
  · refine iff_of_false (by simp) ?_
    omega

theorem restAfter_succ {restFrom : Int} {n : Nat} (more : restAfter restFrom n ≠ some 0) :
    restAfter restFrom (n + 1) = (restAfter restFrom n).map (· - 1) := by
  rw [ne_eq, restAfter_zero] at more
  rw [restAfter, restAfter]
  split
  · rw [if_pos (by omega), Option.map_some]
    congr 1
    omega
  · rw [if_neg (by omega)]
    rfl

end

/-- What a split comes to behind the arguments it has: more of them, or too many. -/
structure Splits (scan : Nat) (maxArgs : Int) (old new : List Str)
    (r : ShellLine × Mem × List Nat) : Prop where
  ok : new = [] ∨ (old.length + new.length : Int) ≤ maxArgs →
    r.1 = .ok ∧ r.2.2.map (readStr r.2.1 · scan) = old ++ new
  full : ¬(new = [] ∨ (old.length + new.length : Int) ≤ maxArgs) →
    r.1 = .tooManyArgs ∧ r.2.2 = []

theorem Splits.word {scan : Nat} {maxArgs : Int} {old new : List Str} {w : Str}
    {r : ShellLine × Mem × List Nat} (h : Splits scan maxArgs (old ++ [w]) new r)
    (room : (old.length : Int) < maxArgs) : Splits scan maxArgs old (w :: new) r := by
  have count : ((old ++ [w]).length : Int) = old.length + 1 := by simp
  have longer : ((w :: new).length : Int) = new.length + 1 := by simp
  have same : (w :: new = [] ∨ (old.length + (w :: new).length : Int) ≤ maxArgs) ↔
      (new = [] ∨ ((old ++ [w]).length + new.length : Int) ≤ maxArgs) := by
    rw [count, longer]
    constructor
    · rintro (none | few)
      · cases none
      · exact .inr (by omega)
    · rintro (rfl | few)
      · exact .inr (by simp; omega)
      · exact .inr (by omega)
  constructor
  · intro few
    obtain ⟨isOk, texts⟩ := h.ok (same.mp few)
    refine ⟨isOk, ?_⟩
    rw [texts, List.append_assoc]
    rfl
  · exact fun many => h.full fun few => many (same.mpr few)

section

variable {scan turns p : Nat} {maxArgs restFrom : Int} {m : Mem} {argv : List Nat}
variable {text t : Str} {args : List Str} {c : Char}

/-- The place of the first word. -/
theorem skipBlanks_place (held : HoldsStr m p text) (fits : p + text.length < scan)
    (found : text.dropWhile isBlank = t) :
    ∃ q, skipBlanks m scan p = q ∧ HoldsStr m q t ∧ p ≤ q ∧ q + t.length = p + text.length := by
  have whole : text = text.takeWhile isBlank ++ t := by
    rw [← found, List.takeWhile_append_dropWhile]
  refine ⟨p + (text.takeWhile isBlank).length, skipBlanks_eq held (by omega), ?_,
    Nat.le_add_right _ _, ?_⟩
  · rw [whole] at held
    exact held.drop
  · conv => rhs; rw [whole]
    rw [List.length_append, Nat.add_assoc]

theorem splitLoop_end (held : HoldsStr m p text) (old : HoldsArgs m p argv args)
    (fits : p + text.length < scan) (found : text.dropWhile isBlank = []) :
    Splits scan maxArgs args [] (splitLoop scan maxArgs restFrom (turns + 1) m p argv) := by
  obtain ⟨q, isPlace, heldWord, -, -⟩ := skipBlanks_place held fits found
  rw [splitLoop, isPlace, if_pos heldWord.nul]
  constructor
  · intro _
    rw [List.append_nil]
    exact ⟨rfl, old.read (by omega)⟩
  · exact fun more => absurd (.inl rfl) more

theorem splitLoop_full (held : HoldsStr m p text) (old : HoldsArgs m p argv args)
    (fits : p + text.length < scan) (found : text.dropWhile isBlank = c :: t)
    (full : (argv.length : Int) ≥ maxArgs) {new : List Str} (more : new ≠ []) :
    Splits scan maxArgs args new (splitLoop scan maxArgs restFrom (turns + 1) m p argv) := by
  obtain ⟨q, isPlace, heldWord, -, -⟩ := skipBlanks_place held fits found
  have some : m q ≠ '\x00' := fun nul => List.cons_ne_nil _ _ (heldWord.nul_iff.mp nul)
  rw [splitLoop, isPlace, if_neg some, if_pos full]
  constructor
  · rintro (none | few)
    · exact absurd none more
    · have count : argv.length = args.length := old.length_eq
      have one : 0 < new.length := List.length_pos_iff.mpr more
      omega
  · exact fun _ => ⟨rfl, rfl⟩

theorem splitLoop_rest (held : HoldsStr m p text) (old : HoldsArgs m p argv args)
    (fits : p + text.length < scan) (found : text.dropWhile isBlank = c :: t)
    (room : (argv.length : Int) < maxArgs) (last : (argv.length : Int) = restFrom ∧ restFrom > 0) :
    Splits scan maxArgs args [(c :: t).rdropWhile isBlank]
      (splitLoop scan maxArgs restFrom (turns + 1) m p argv) := by
  obtain ⟨q, isPlace, heldWord, later, size⟩ := skipBlanks_place held fits found
  have some : m q ≠ '\x00' := fun nul => List.cons_ne_nil _ _ (heldWord.nul_iff.mp nul)
  have isFull := not_blank_of_found found
  obtain ⟨rest, isRest⟩ : ∃ w, (c :: t).rdropWhile isBlank = w := ⟨_, rfl⟩
  have endOfRest : trimEnd m scan (q + (c :: t).length) = q + rest.length := by
    rw [← isRest]
    apply trimEnd_eq
    · exact fun i below => heldWord.chars i (Nat.le_of_lt below)
    · exact ⟨c, List.mem_cons_self, isFull⟩
    · omega
  have front : c :: t = rest ++ (c :: t).rtakeWhile isBlank := by
    rw [← isRest, List.rdropWhile_append_rtakeWhile]
  have nonempty : 0 < rest.length := by
    rw [← isRest]
    exact List.length_pos_iff.mpr (rest_ne_nil isFull)
  have inside : rest.length ≤ (c :: t).length := by
    rw [← isRest]
    exact (List.rdropWhile_prefix isBlank (c :: t)).length_le
  rw [splitLoop, isPlace, if_neg some, if_neg (Int.not_le.mpr room), if_pos last]
  simp only [heldWord.read (show (c :: t).length < scan by omega), endOfRest, isRest]
  constructor
  · intro _
    refine ⟨rfl, ?_⟩
    rw [front] at heldWord
    have behind : HoldsArgs (Function.update m (q + rest.length) '\x00') p argv args :=
      old.update (by omega)
    exact (behind.snoc heldWord.cut (Nat.le_refl _) (by omega)).read (by omega)
  · intro more
    refine absurd (.inr ?_) more
    have count : argv.length = args.length := old.length_eq
    rw [List.length_singleton]
    omega

/-- A word before the rest is one argument more. -/
theorem splitLoop_word (turns : Nat) (held : HoldsStr m p text) (old : HoldsArgs m p argv args)
    (fits : p + text.length < scan) (found : text.dropWhile isBlank = c :: t)
    (room : (argv.length : Int) < maxArgs)
    (more : ¬((argv.length : Int) = restFrom ∧ restFrom > 0)) :
    ∃ m' p' q text', splitLoop scan maxArgs restFrom (turns + 1) m p argv =
        splitLoop scan maxArgs restFrom turns m' p' (argv ++ [q]) ∧
      HoldsStr m' p' text' ∧
      HoldsArgs m' p' (argv ++ [q]) (args ++ [c :: t.takeWhile fun c => !isBlank c]) ∧
      p' + text'.length < scan ∧
      ∀ k, wordsRest isBlank k (t.dropWhile fun c => !isBlank c) = wordsRest isBlank k text' := by
  obtain ⟨q, isPlace, heldWord, later, size⟩ := skipBlanks_place held fits found
  have some : m q ≠ '\x00' := fun nul => List.cons_ne_nil _ _ (heldWord.nul_iff.mp nul)
  obtain ⟨w, isWord⟩ : ∃ w, (c :: t.takeWhile fun c => !isBlank c) = w := ⟨_, rfl⟩
  obtain ⟨behind, isBehind⟩ : ∃ b, (t.dropWhile fun c => !isBlank c) = b := ⟨_, rfl⟩
  have parts : c :: t = w ++ behind := by
    rw [← isWord, ← isBehind, List.cons_append, List.takeWhile_append_dropWhile]
  have nonempty : 0 < w.length := by
    rw [← isWord]
    exact Nat.succ_pos _
  have wordEnd : skipWord m scan q = q + w.length := by
    rw [skipWord_eq heldWord (by omega), List.takeWhile_cons_of_pos, isWord]
    simp [not_blank_of_found found]
  rw [parts, List.length_append] at size
  rw [parts] at heldWord
  have heldBehind := heldWord.drop
  rw [splitLoop, isPlace, if_neg some, if_neg (Int.not_le.mpr room), if_neg more]
  simp only [wordEnd, isWord, isBehind]
  cases behind with
  | nil =>
      rw [if_neg (by simp [heldBehind.nul])]
      rw [List.append_nil] at heldWord
      exact ⟨m, q + w.length, q, [], rfl, heldBehind,
        old.snoc heldWord (Nat.le_refl _) (by omega), by simp at size ⊢; omega, fun k => rfl⟩
  | cons b rest =>
      have cut : m (q + w.length) ≠ '\x00' := fun nul =>
        List.cons_ne_nil _ _ (heldBehind.nul_iff.mp nul)
      rw [if_pos cut]
      have blank : isBlank b = true := blank_behind (t := t) (by rw [isBehind]; rfl)
      have heldRest : HoldsStr m (q + w.length + 1) rest := heldBehind.drop (w := [b])
      refine ⟨_, q + w.length + 1, q, rest, rfl, heldRest.update_before (Nat.lt_succ_self _), ?_, ?_,
        fun k => wordsRest_blank blank⟩
      · exact (old.update (by omega)).snoc heldWord.cut (Nat.le_succ _) (by omega)
      · rw [List.length_cons] at size
        omega

theorem splitLoop_spec (held : HoldsStr m p text) (old : HoldsArgs m p argv args)
    (fits : p + text.length < scan) (room : argv.length ≤ maxArgs.toNat)
    (enough : maxArgs.toNat < argv.length + turns) :
    Splits scan maxArgs args (wordsRest isBlank (restAfter restFrom argv.length) text)
      (splitLoop scan maxArgs restFrom turns m p argv) := by
  induction turns generalizing m p argv args text with
  | zero => omega
  | succ turns ih =>
      cases found : text.dropWhile isBlank with
      | nil =>
          rw [wordsRest_of_end found]
          exact splitLoop_end held old fits found
      | cons c t =>
          by_cases full : (argv.length : Int) ≥ maxArgs
          · exact splitLoop_full held old fits found full (wordsRest_ne_nil found)
          · have below := Int.not_le.mp full
            by_cases last : (argv.length : Int) = restFrom ∧ restFrom > 0
            · rw [restAfter_zero.mpr last, wordsRest_zero found]
              exact splitLoop_rest held old fits found below last
            · obtain ⟨m', p', q, text', turn, held', old', fits', same⟩ :=
                splitLoop_word turns held old fits found below last
              have more : restAfter restFrom argv.length ≠ some 0 := fun zero =>
                last (restAfter_zero.mp zero)
              rw [turn, wordsRest_cons found more, same]
              have count : (argv ++ [q]).length = argv.length + 1 := by simp
              have next := ih held' old' fits' (by omega) (by omega)
              rw [count, restAfter_succ more] at next
              exact next.word (by rw [← old.length_eq]; exact below)

end

/-! ## The arguments of a line -/

/-- How many arguments a line has: everything from the word `restFrom` on is one. -/
def argCount (restFrom : Int) (text : Str) : Nat :=
  if 0 < restFrom then min (words isBlank text).length (restFrom.toNat + 1)
  else (words isBlank text).length

/-- The words of a line, and from the word `restFrom` on the rest of the line as it stands. -/
def Arguments (restFrom : Int) (text : Str) (args : List Str) : Prop :=
  if 0 < restFrom ∧ restFrom < (words isBlank text).length then
    ∃ rest before after, WordsTail isBlank restFrom.toNat text rest before after ∧
      args = (words isBlank text).take restFrom.toNat ++ [rest]
  else args = words isBlank text

theorem wordsRest_arguments (restFrom : Int) (text : Str) :
    Arguments restFrom text (wordsRest isBlank (restAfter restFrom 0) text) ∧
      (wordsRest isBlank (restAfter restFrom 0) text).length = argCount restFrom text := by
  by_cases rest : 0 < restFrom
  · have after : restAfter restFrom 0 = some restFrom.toNat := by
      rw [restAfter, if_pos ⟨rest, Int.le_of_lt rest⟩, Int.natCast_zero, Int.sub_zero]
    rw [after, argCount, if_pos rest]
    by_cases more : restFrom.toNat < (words isBlank text).length
    · obtain ⟨last, before, behind, tail, split⟩ := wordsRest_tail more
      rw [Arguments, if_pos ⟨rest, by omega⟩]
      refine ⟨⟨last, before, behind, tail, split⟩, ?_⟩
      rw [split, List.length_append, List.length_take, List.length_singleton]
      omega
    · have few := Nat.not_lt.mp more
      rw [wordsRest_few few, Arguments, if_neg (by omega)]
      exact ⟨rfl, by omega⟩
  · have after : restAfter restFrom 0 = none := if_neg fun both => rest both.1
    rw [after, wordsRest_none, Arguments, if_neg fun both => rest both.1, argCount, if_neg rest]
    exact ⟨rfl, rfl⟩

theorem copyStr_holds (buf : Mem) {text : Str} (plain : '\x00' ∉ text) :
    HoldsStr (copyStr buf text) 0 text := by
  refine ⟨plain, fun i le => ?_⟩
  rw [copyStr, Nat.zero_add, if_pos le]

/-- A line is split when it fits the buffer and its arguments the slots. A line without words
needs no slot. -/
theorem splitLine_arguments (line : Option Str) (buf : Mem) (bufSize : Nat)
    (maxArgs restFrom : Int) (plain : ∀ text ∈ line, '\x00' ∉ text) :
    let r := splitLine line buf bufSize maxArgs restFrom
    (r.1 = .ok ↔ ∃ text, line = some text ∧ text.length < bufSize ∧
      (argCount restFrom text ≤ maxArgs ∨ argCount restFrom text = 0)) ∧
    (r.1 = .ok → ∃ text, line = some text ∧
      Arguments restFrom text (r.2.2.map (readStr r.2.1 · bufSize))) ∧
    (r.1 ≠ .ok → r.2.2 = []) := by
  cases line with
  | none =>
      refine ⟨iff_of_false (by simp [splitLine]) ?_, by simp [splitLine], fun _ => rfl⟩
      rintro ⟨text, same, -⟩
      cases same
  | some text =>
      by_cases fits : text.length < bufSize
      · have held := copyStr_holds buf (plain text rfl)
        obtain ⟨args, isArgs⟩ : ∃ a, wordsRest isBlank (restAfter restFrom 0) text = a := ⟨_, rfl⟩
        obtain ⟨r, isSplit⟩ : ∃ r, splitLine (some text) buf bufSize maxArgs restFrom = r :=
          ⟨_, rfl⟩
        have spec : Splits bufSize maxArgs [] args r := by
          rw [← isArgs, ← isSplit]
          simp only [splitLine, shellFits, fits, decide_true, Bool.not_true, Bool.false_eq_true,
            if_false]
          exact splitLoop_spec held .nil (by omega) (Nat.zero_le _) (by simp)
        obtain ⟨arguments, count⟩ := wordsRest_arguments restFrom text
        rw [isArgs] at arguments count
        have few : (args = [] ∨ (([] : List Str).length + args.length : Int) ≤ maxArgs) ↔
            (argCount restFrom text ≤ maxArgs ∨ argCount restFrom text = 0) := by
          rw [← count, List.length_eq_zero_iff, or_comm, List.length_nil, Int.natCast_zero,
            Int.zero_add]
        rw [isSplit]
        dsimp only
        by_cases room : args = [] ∨ (([] : List Str).length + args.length : Int) ≤ maxArgs
        · obtain ⟨isOk, texts⟩ := spec.ok room
          refine ⟨iff_of_true isOk ⟨text, rfl, fits, few.mp room⟩, ?_, ?_⟩
          · intro _
            rw [texts, List.nil_append]
            exact ⟨text, rfl, arguments⟩
          · exact fun other => absurd isOk other
        · obtain ⟨isFull, none⟩ := spec.full room
          have notOk : r.1 ≠ .ok := by
            rw [isFull]
            decide
          refine ⟨iff_of_false notOk ?_, fun isOk => absurd isOk notOk, fun _ => none⟩
          rintro ⟨_, same, -, inside⟩
          cases same
          exact room (few.mpr inside)
      · have refused : splitLine (some text) buf bufSize maxArgs restFrom = (.tooLong, buf, []) := by
          simp [splitLine, shellFits, fits]
        simp only [refused]
        refine ⟨iff_of_false (by simp) ?_, by simp, fun _ => trivial⟩
        rintro ⟨_, same, inside, -⟩
        cases same
        exact fits inside

theorem splitLine_arguments_rest :
    ∃ text, some "cmd  k \t a  b \t".toList = some text ∧
      Arguments 2 text ["cmd".toList, "k".toList, "a  b".toList] :=
  (splitLine_arguments (some "cmd  k \t a  b \t".toList) (fun _ => '\x00') 32 3 2 (by
    intro text same
    obtain rfl := Option.some.inj same
    decide)).2.1 (by decide)

/-- A blank line is taken for any number of slots, and no number of words is below zero. -/
theorem splitLine_no_slots :
    (splitLine (some [' ']) (fun _ => '\x00') 2 (-1) 0).1 = .ok ∧
      ¬((words isBlank [' ']).length : Int) ≤ -1 := by
  decide

/-! ## The console's split -/

theorem splitWords_eq (restFrom turns : Nat) (m : Mem) (p : Nat) (argv : List Nat) :
    splitWords restFrom turns m p argv =
      splitLoop SHELL_LINE_MAX SHELL_ARGS_MAX restFrom turns m p argv := by
  induction turns generalizing m p argv with
  | zero => rfl
  | succ turns ih =>
      have slots : SHELL_ARGS_MAX ≤ argv.length ↔ (argv.length : Int) ≥ (SHELL_ARGS_MAX : Int) :=
        Int.ofNat_le.symm
      have last : (argv.length = restFrom && decide (0 < restFrom)) = true ↔
          (argv.length : Int) = (restFrom : Int) ∧ (restFrom : Int) > 0 := by
        rw [Bool.and_eq_true, decide_eq_true_eq, decide_eq_true_eq]
        omega
      simp only [splitWords, splitLoop, slots, last, ih]

/-- The split that `Shell::execute` uses. -/
theorem shellSplitLine_eq (line : Str) (buf : Mem) (restFrom : Nat) :
    shellSplitLine line buf restFrom =
      splitLine (some line) buf SHELL_LINE_MAX SHELL_ARGS_MAX restFrom := by
  simp only [shellSplitLine, splitLine, splitWords_eq]
  rfl

end Thesada.Shell
