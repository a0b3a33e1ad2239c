import Mathlib.Data.List.Forall2
import Thesada.Library.Glob
import Thesada.Shell.RmGlob

/-!
# The wildcard matcher

`globMatch` compares the two characters before it looks for a star, so a star of the pattern that
comes to stand at a `*` of the name is taken as a plain character and sets no mark. LittleFS allows
`*` in a name.
-/

namespace Thesada.Shell

open CString GlobMatches

/-- What a character of a pattern stands for. -/
def token (c : Char) : GlobToken Char :=
  if c = '*' then .star else if c = '?' then .any else .byte c

/-- The name is in the language of the pattern. -/
def InLanguage (pat name : Str) : Prop := GlobMatches (fun _ => False) (pat.map token) name

/-- The name matches with every star that comes to stand at a `*` of the name standing for that
character alone. -/
def MatchesHeld (pat name : Str) : Prop := GlobMatches (· = '*') (pat.map token) name

section

variable {pat name rest after mark : Str} {c p : Char} {star : Option (Str × Str)}

/-! ## One turn -/

/-- The first two characters of the loop's first branch. -/
theorem reads_of_turn (turn : p = '?' ∨ p = c) : Reads (· = '*') (token p) c := by
  obtain rfl | rfl := turn
  · exact .any c
  · by_cases isStar : p = '*'
    · rw [token, if_pos isStar]
      exact .star isStar
    · rw [token, if_neg isStar]
      split
      · exact .any p
      · exact .byte p

theorem matchesHeld_read (turn : p = '?' ∨ p = c) :
    MatchesHeld (p :: pat) (c :: rest) ↔ MatchesHeld pat rest :=
  reads_iff (reads_of_turn turn)

/-- A star at another character than `*` can stand for anything. -/
theorem matchesHeld_star (free : c ≠ '*') :
    MatchesHeld ('*' :: pat) (c :: rest) ↔ ∃ t, t <:+ c :: rest ∧ MatchesHeld pat t := by
  apply star_iff
  intro a first held
  exact free (Option.some.inj first ▸ held)

/-- The loop is stuck: there is no match from here. -/
theorem matchesHeld_stuck (other : ¬(pat.head? = some '?' ∨ pat.head? = some c))
    (noStar : pat.head? ≠ some '*') : ¬MatchesHeld pat (c :: rest) := by
  intro m
  cases pat with
  | nil => cases m
  | cons p pat =>
      simp only [List.head?_cons, Option.some.injEq, not_or, ne_eq] at other noStar
      have plain : token p = .byte p := by rw [token, if_neg noStar, if_neg other.1]
      rw [MatchesHeld, List.map_cons, plain] at m
      cases m
      exact other.2 rfl

theorem matchesHeld_nil : MatchesHeld pat [] ↔ (pat.dropWhile (· == '*')).isEmpty = true := by
  rw [MatchesHeld, nil_iff, List.isEmpty_iff, List.dropWhile_eq_nil_iff, List.forall_mem_map]
  refine forall₂_congr fun c _ => ?_
  rw [beq_iff_eq, token]
  split
  · next isStar => simp [isStar]
  · next noStar =>
      split
      · simp [noStar]
      · simp [noStar]

/-! ## The mark -/

/-- What was read since the mark. -/
def SinceMark (pat name : Str) (star : Option (Str × Str)) : Prop :=
  ∀ after mark, star = some (after, mark) → ∃ u v, after = u ++ pat ∧ mark = v ++ name ∧
    List.Forall₂ (Reads (· = '*')) (u.map token) v

/-- There is a match from a place after the mark. -/
def MatchesLater (star : Option (Str × Str)) : Prop :=
  ∃ after mark, star = some (after, mark) ∧ ∃ t, t <:+ mark.tail ∧ MatchesHeld after t

theorem SinceMark.fresh : SinceMark pat name (some (pat, name)) := by
  intro after mark same
  cases same
  exact ⟨[], [], rfl, rfl, .nil⟩

theorem SinceMark.read (since : SinceMark (p :: pat) (c :: rest) star) (turn : p = '?' ∨ p = c) :
    SinceMark pat rest star := by
  intro after mark same
  obtain ⟨u, v, rfl, rfl, read⟩ := since after mark same
  refine ⟨u ++ [p], v ++ [c], by simp, by simp, ?_⟩
  rw [List.map_append]
  exact List.rel_append read (.cons (reads_of_turn turn) .nil)

/-- A match from after the mark leaves one of the pattern's rest in the name's rest. -/
theorem SinceMark.reached (since : SinceMark pat name star) (later : MatchesLater star) :
    ∃ t, t <:+ name ∧ MatchesHeld pat t := by
  obtain ⟨after, mark, same, t, inside, m⟩ := later
  obtain ⟨u, v, rfl, rfl, read⟩ := since after mark same
  rw [MatchesHeld, List.map_append] at m
  exact past_read read (inside.trans (List.tail_suffix _)) m

/-- A fresh mark stands for every place from its own on. -/
theorem matches_from_mark : MatchesHeld pat (c :: rest) ∨ MatchesLater (some (pat, c :: rest)) ↔
    ∃ t, t <:+ c :: rest ∧ MatchesHeld pat t := by
  constructor
  · rintro (here | ⟨_, _, same, t, inside, m⟩)
    · exact ⟨_, List.suffix_refl _, here⟩
    · cases same
      exact ⟨t, inside.trans (List.suffix_cons c rest), m⟩
  · rintro ⟨t, inside, m⟩
    obtain rfl | below := List.suffix_cons_iff.mp inside
    · exact .inl m
    · exact .inr ⟨_, _, rfl, t, below, m⟩

theorem matchesLater_some {m : Char} :
    MatchesLater (some (after, m :: mark)) ↔
      MatchesHeld after mark ∨ MatchesLater (some (after, mark)) := by
  constructor
  · rintro ⟨_, _, same, t, inside, found⟩
    cases same
    cases mark with
    | nil =>
        left
        rwa [List.suffix_nil.mp inside] at found
    | cons m' mark =>
        obtain rfl | below := List.suffix_cons_iff.mp inside
        · exact .inl found
        · exact .inr ⟨_, _, rfl, t, below, found⟩
  · rintro (found | ⟨_, _, same, t, inside, found⟩)
    · exact ⟨_, _, rfl, mark, List.suffix_refl mark, found⟩
    · cases same
      exact ⟨_, _, rfl, t, inside.trans (List.tail_suffix _), found⟩

/-- At the end of the name a later match is one here. -/
theorem SinceMark.at_end (since : SinceMark pat [] star) (later : MatchesLater star) :
    MatchesHeld pat [] := by
  obtain ⟨t, inside, m⟩ := since.reached later
  rwa [List.suffix_nil.mp inside] at m

/-- A new mark takes over from the old one. -/
theorem SinceMark.takes_over (since : SinceMark ('*' :: pat) (c :: rest) star)
    (later : MatchesLater star) : ∃ t, t <:+ c :: rest ∧ MatchesHeld pat t := by
  obtain ⟨t, inside, m⟩ := since.reached later
  obtain ⟨t', below, behind⟩ := behind_star m
  exact ⟨t', below.trans inside, behind⟩

/-- The loop finds a match from where it stands, or from a later place than the mark. -/
theorem globLoop_iff {turns : Nat} {answer : Bool} (since : SinceMark pat name star)
    (ends : globLoop turns pat name star = some answer) :
    answer = true ↔ MatchesHeld pat name ∨ MatchesLater star := by
  induction turns generalizing pat name star with
  | zero => cases ends
  | succ turns ih =>
      cases name with
      | nil =>
          have isAnswer : (pat.dropWhile (· == '*')).isEmpty = answer := Option.some.inj ends
          rw [← isAnswer, ← matchesHeld_nil]
          constructor
          · exact .inl
          · rintro (here | later)
            · exact here
            · exact since.at_end later
      | cons c rest =>
          unfold globLoop at ends
          split at ends
          · next turn =>
              cases pat with
              | nil => simp at turn
              | cons p pat =>
                  simp only [List.head?_cons, Option.some.injEq] at turn
                  rw [ih (since.read turn) ends, matchesHeld_read turn]
          · next other =>
              split at ends
              · next isStar =>
                  cases pat with
                  | nil => simp at isStar
                  | cons p pat =>
                      obtain rfl := Option.some.inj isStar
                      have free : c ≠ '*' := by
                        rintro rfl
                        exact other (.inr rfl)
                      rw [ih .fresh ends, matches_from_mark, matchesHeld_star free]
                      constructor
                      · exact .inl
                      · rintro (here | later)
                        · exact here
                        · exact since.takes_over later
              · next noStar =>
                  have stuck : ¬MatchesHeld pat (c :: rest) := matchesHeld_stuck other noStar
                  cases star with
                  | none =>
                      obtain rfl := Option.some.inj ends
                      refine iff_of_false Bool.false_ne_true ?_
                      rintro (here | ⟨_, _, same, -⟩)
                      · exact stuck here
                      · cases same
                  | some s =>
                      obtain ⟨after, mark⟩ := s
                      cases mark with
                      | nil =>
                          obtain ⟨u, v, -, empty, -⟩ := since after [] rfl
                          simp at empty
                      | cons m mark =>
                          have back : answer = true ↔
                              MatchesHeld after mark ∨ MatchesLater (some (after, mark)) :=
                            ih .fresh ends
                          rw [back, matchesLater_some, or_iff_right stuck]

end

/-- A name is matched when it matches with its stars held. -/
theorem globMatch_held (pat name : Str) : globMatch pat name = true ↔ MatchesHeld pat name := by
  have since : SinceMark pat name none := fun _ _ same => by cases same
  rw [globLoop_iff since (globMatch_ends pat name)]
  constructor
  · rintro (here | ⟨_, _, same, -⟩)
    · exact here
    · cases same
  · exact .inl

/-- The matcher takes no name outside of the language. -/
theorem MatchesHeld.inLanguage {pat name : Str} (m : MatchesHeld pat name) : InLanguage pat name :=
  m.mono fun _ none => none.elim

/-- A name without `*` holds no star. -/
theorem InLanguage.held {pat name : Str} (plain : '*' ∉ name) (m : InLanguage pat name) :
    MatchesHeld pat name := by
  apply GlobMatches.of_free _ m
  rintro _ mem rfl
  exact plain mem

/-- `globMatch` decides the language of a pattern on the names that match with their stars held,
once they match. Names without `*` are among them. -/
theorem globMatch_language_iff (pat name : Str) :
    ((globMatch pat name = true ↔ InLanguage pat name) ↔
      (InLanguage pat name → MatchesHeld pat name)) ∧
    ('*' ∉ name → (globMatch pat name = true ↔ InLanguage pat name)) := by
  rw [globMatch_held]
  constructor
  · constructor
    · exact fun decides => decides.mpr
    · exact fun held => ⟨MatchesHeld.inLanguage, held⟩
  · intro plain
    exact ⟨MatchesHeld.inLanguage, InLanguage.held plain⟩

/-- The star takes the `*` of the name alone, and `a` is left over. -/
theorem globMatch_language_star :
    globMatch "*".toList "*a".toList = false ∧ InLanguage "*".toList "*a".toList := by
  refine ⟨by decide, ?_⟩
  exact .star "*a".toList (fun _ _ held => held.elim) .done

end Thesada.Shell
