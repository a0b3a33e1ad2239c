import Thesada.Library.CString

/-!
# MQTT topic names and filters

A topic is cut into levels at its slashes; levels can be empty. In a filter, `+` alone on a level
matches any one level and `#` alone on the last level matches what is left, down to nothing, so
`a/#` matches `a` too. A filter that starts with a wildcard does not match a topic that starts
with `$`. This is section 4.7 of MQTT 3.1.1.
-/

namespace MqttTopic

open CString

def PLUS : Str := ['+']
def HASH : Str := ['#']

def levels (s : Str) : List Str := s.splitOn '/'

/-- No wildcard characters. -/
def Plain (s : Str) : Prop := '+' ∉ s ∧ '#' ∉ s

instance (s : Str) : Decidable (Plain s) := inferInstanceAs (Decidable (_ ∧ _))

def TopicName (t : Str) : Prop := t ≠ [] ∧ Plain t

def validLevels : List Str → Bool
  | [] => true
  | l :: ls => (l = PLUS || decide (Plain l) || (l = HASH && ls.isEmpty)) && validLevels ls

def TopicFilter (f : Str) : Prop := f ≠ [] ∧ validLevels (levels f) = true

instance (t : Str) : Decidable (TopicName t) := inferInstanceAs (Decidable (_ ∧ _))
instance (f : Str) : Decidable (TopicFilter f) := inferInstanceAs (Decidable (_ ∧ _))

def matchLevels : List Str → List Str → Bool
  | [], ts => ts.isEmpty
  | f :: fs, ts =>
      if f = HASH && fs.isEmpty then true
      else
        match ts with
        | [] => false
        | t :: ts => (f = PLUS || f = t) && matchLevels fs ts

/-- The broker delivers the topic for the filter. -/
def delivers (f t : Str) : Bool :=
  matchLevels (levels f) (levels t) &&
    !(t.head? = some '$' && (f.head? = some '+' || f.head? = some '#'))

/-! ## Levels -/

theorem levels_append (s r : Str) : levels (s ++ '/' :: r) = levels s ++ levels r :=
  List.splitOn_append_cons_self ..

theorem levels_of_not_mem {s : Str} (whole : '/' ∉ s) : levels s = [s] :=
  List.splitOn_eq_singleton whole

theorem levels_inj {s r : Str} (same : levels s = levels r) : s = r := by
  have spell (s : Str) : ['/'].intercalate (levels s) = s := List.intercalate_splitOn '/'
  rw [← spell s, same, spell r]

/-- A topic is one level, or a level, a slash and the rest. -/
theorem levels_cases (s : Str) : '/' ∉ s ∧ levels s = [s] ∨
    ∃ a b, s = a ++ '/' :: b ∧ '/' ∉ a ∧ levels s = a :: levels b := by
  by_cases cut : '/' ∈ s
  · obtain ⟨a, b, rfl, first⟩ := List.eq_append_cons_of_mem cut
    exact .inr ⟨a, b, rfl, first, List.splitOn_append_cons_self_of_not_mem first b⟩
  · exact .inl ⟨cut, levels_of_not_mem cut⟩

/-- More levels are a slash and the topic they spell. -/
theorem levels_more {p t : Str} {us : List Str} (more : us ≠ [])
    (cut : levels t = levels p ++ us) : ∃ r, t = p ++ '/' :: r ∧ levels r = us := by
  induction n : p.length using Nat.strong_induction_on generalizing p t with
  | _ n ih =>
    subst n
    obtain ⟨-, one⟩ | ⟨a, b, rfl, -, first⟩ := levels_cases p
    · obtain ⟨-, single⟩ | ⟨a', b', rfl, -, first'⟩ := levels_cases t
      · rw [one, single] at cut
        exact absurd (List.cons.inj cut).2.symm more
      · rw [one, first'] at cut
        obtain ⟨rfl, rest⟩ := List.cons.inj cut
        exact ⟨b', rfl, rest⟩
    · obtain ⟨-, single⟩ | ⟨a', b', rfl, -, first'⟩ := levels_cases t
      · rw [first, single] at cut
        exact absurd (List.append_eq_nil_iff.mp (List.cons.inj cut).2.symm).2 more
      · rw [first, first'] at cut
        obtain ⟨rfl, later⟩ := List.cons.inj cut
        obtain ⟨r, rfl, rest⟩ := ih b.length (by simp; omega) later rfl
        exact ⟨r, by simp, rest⟩

theorem mem_of_levels {s l : Str} {c : Char} (level : l ∈ levels s) (inside : c ∈ l) : c ∈ s := by
  induction n : s.length using Nat.strong_induction_on generalizing s with
  | _ n ih =>
    subst n
    obtain ⟨-, one⟩ | ⟨a, b, rfl, -, first⟩ := levels_cases s
    · rw [one, List.mem_singleton] at level
      exact level ▸ inside
    · rw [first] at level
      obtain rfl | later := List.mem_cons.mp level
      · exact List.mem_append_left _ inside
      · exact List.mem_append_right _
          (List.mem_cons_of_mem _ (ih b.length (by simp; omega) later rfl))

/-- The levels of a topic without wildcard characters are none. -/
theorem Plain.level {s l : Str} (plain : Plain s) (level : l ∈ levels s) : l ≠ HASH ∧ l ≠ PLUS := by
  constructor
  · rintro rfl
    exact plain.2 (mem_of_levels level (List.mem_singleton_self '#'))
  · rintro rfl
    exact plain.1 (mem_of_levels level (List.mem_singleton_self '+'))

/-! ## Matching -/

/-- Levels that are no wildcard match themselves. -/
theorem matchLevels_append {fs gs ts : List Str} (literal : ∀ f ∈ fs, f ≠ HASH ∧ f ≠ PLUS) :
    matchLevels (fs ++ gs) ts = true ↔ ∃ us, ts = fs ++ us ∧ matchLevels gs us = true := by
  induction fs generalizing ts with
  | nil => simp
  | cons f fs ih =>
      obtain ⟨⟨hash, plus⟩, rest⟩ := List.forall_mem_cons.mp literal
      cases ts with
      | nil => simp [matchLevels, hash]
      | cons t ts =>
          have step : matchLevels (f :: fs ++ gs) (t :: ts) =
              (decide (f = t) && matchLevels (fs ++ gs) ts) := by
            simp [matchLevels, hash, plus]
          rw [step, Bool.and_eq_true, decide_eq_true_eq, ih rest]
          constructor
          · rintro ⟨rfl, us, rfl, holds⟩
            exact ⟨us, rfl, holds⟩
          · rintro ⟨us, cut, holds⟩
            obtain ⟨rfl, rfl⟩ := List.cons.inj cut
            exact ⟨rfl, us, rfl, holds⟩

theorem matchLevels_plain {p t : Str} (plain : Plain p) :
    matchLevels (levels p) (levels t) = true ↔ t = p := by
  have whole : matchLevels (levels p ++ []) (levels t) = true ↔ _ :=
    matchLevels_append fun l => plain.level (l := l)
  rw [List.append_nil] at whole
  rw [whole]
  constructor
  · rintro ⟨us, cut, none⟩
    obtain rfl : us = [] := by simpa [matchLevels] using none
    exact levels_inj (by rw [cut, List.append_nil])
  · rintro rfl
    exact ⟨[], by simp, rfl⟩

theorem matchLevels_hash {p t : Str} (plain : Plain p) :
    matchLevels (levels (p ++ '/' :: HASH)) (levels t) = true ↔ t = p ∨ ∃ r, t = p ++ '/' :: r := by
  rw [levels_append, matchLevels_append fun l => plain.level (l := l)]
  constructor
  · rintro ⟨us, cut, -⟩
    by_cases more : us = []
    · exact .inl (levels_inj (by rw [cut, more, List.append_nil]))
    · obtain ⟨r, rfl, -⟩ := levels_more more cut
      exact .inr ⟨r, rfl⟩
  · rintro (rfl | ⟨r, rfl⟩)
    · exact ⟨[], by simp, rfl⟩
    · exact ⟨levels r, levels_append p r, rfl⟩

theorem matchLevels_plus {p t : Str} (plain : Plain p) :
    matchLevels (levels (p ++ '/' :: PLUS)) (levels t) = true ↔
      ∃ r, t = p ++ '/' :: r ∧ '/' ∉ r := by
  have one (us : List Str) : matchLevels (levels PLUS) us = true ↔ ∃ l, us = [l] := by
    have level : levels PLUS = [PLUS] := by decide
    rw [level]
    match us with
    | [] => simp [matchLevels, PLUS, HASH]
    | [l] => simp [matchLevels, PLUS, HASH]
    | l :: l' :: us => simp [matchLevels, PLUS, HASH]
  rw [levels_append, matchLevels_append fun l => plain.level (l := l)]
  constructor
  · rintro ⟨us, cut, level⟩
    obtain ⟨l, rfl⟩ := (one us).mp level
    obtain ⟨r, rfl, rest⟩ := levels_more (by simp) cut
    refine ⟨r, rfl, ?_⟩
    obtain ⟨whole, -⟩ | ⟨a, b, rfl, -, more⟩ := levels_cases r
    · exact whole
    · rw [more] at rest
      exact absurd (List.cons.inj rest).2 (List.splitOn_ne_nil '/' b)
  · rintro ⟨r, rfl, whole⟩
    exact ⟨levels r, levels_append p r, (one _).mpr ⟨r, levels_of_not_mem whole⟩⟩

/-! ## What is delivered -/

theorem Plain.front {p r : Str} (plain : Plain (p ++ r)) : Plain p := by
  simp only [Plain, List.mem_append, not_or] at plain ⊢
  exact ⟨plain.1.1, plain.2.1⟩

theorem delivers_of_head {f t : Str} (first : f.head? ≠ some '+' ∧ f.head? ≠ some '#') :
    delivers f t = true ↔ matchLevels (levels f) (levels t) = true := by
  simp [delivers, first.1, first.2]

/-- A filter that starts with plain levels does not start with a wildcard. -/
theorem Plain.head_below {p : Str} (plain : Plain p) (s : Str) :
    (p ++ '/' :: s).head? ≠ some '+' ∧ (p ++ '/' :: s).head? ≠ some '#' := by
  cases p with
  | nil => simp
  | cons c p =>
      simp only [Plain, List.mem_cons, not_or] at plain
      simp only [List.cons_append, List.head?_cons, ne_eq, Option.some.injEq]
      exact ⟨Ne.symm plain.1.1, Ne.symm plain.2.1⟩

theorem delivers_plain {f t : Str} (plain : Plain f) : delivers f t = true ↔ t = f := by
  rw [delivers_of_head ⟨fun first => plain.1 (List.mem_of_head? first),
    fun first => plain.2 (List.mem_of_head? first)⟩]
  exact matchLevels_plain plain

theorem delivers_hash {p t : Str} (plain : Plain p) :
    delivers (p ++ '/' :: HASH) t = true ↔ t = p ∨ ∃ r, t = p ++ '/' :: r := by
  rw [delivers_of_head (plain.head_below HASH)]
  exact matchLevels_hash plain

theorem delivers_plus {p t : Str} (plain : Plain p) :
    delivers (p ++ '/' :: PLUS) t = true ↔ ∃ r, t = p ++ '/' :: r ∧ '/' ∉ r := by
  rw [delivers_of_head (plain.head_below PLUS)]
  exact matchLevels_plus plain

end MqttTopic
