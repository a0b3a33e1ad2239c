import Mathlib.Data.List.Basic
import Mathlib.Data.List.Infix

/-!
# Wildcard patterns

A pattern is a list of tokens: a symbol, any one symbol, or a star, which stands for any string.
Some symbols may hold a star: one that comes to stand at such a symbol stands for that symbol
alone. With no such symbols these are the usual patterns.

A matcher that reads one symbol for each token and goes back to its last star only, when it is
stuck, finds every match: what it read since that star cannot be read from a later place in the
text without passing the place where it is now.
-/

variable {α : Type*}

inductive GlobToken (α : Type*) where
  | star
  | any
  | byte (a : α)

inductive GlobMatches (held : α → Prop) : List (GlobToken α) → List α → Prop
  | done : GlobMatches held [] []
  | any {p s} (a : α) (rest : GlobMatches held p s) : GlobMatches held (.any :: p) (a :: s)
  | byte {p s} (a : α) (rest : GlobMatches held p s) : GlobMatches held (.byte a :: p) (a :: s)
  | star {p s} (run : List α) (kept : ∀ a, (run ++ s).head? = some a → held a → run = [a])
      (rest : GlobMatches held p s) : GlobMatches held (.star :: p) (run ++ s)

namespace GlobMatches

variable {held held' : α → Prop} {k : GlobToken α} {p u : List (GlobToken α)} {a : α}
variable {s t v : List α}

/-- With fewer symbols that hold a star there are more matches. -/
theorem mono (fewer : ∀ a, held' a → held a) (m : GlobMatches held p s) :
    GlobMatches held' p s := by
  induction m with
  | done => exact .done
  | any a _ ih => exact .any a ih
  | byte a _ ih => exact .byte a ih
  | star run kept _ ih => exact .star run (fun a first isHeld => kept a first (fewer a isHeld)) ih

/-- In a text without such symbols they make no difference. -/
theorem of_free (free : ∀ a ∈ s, ¬held a) (m : GlobMatches held' p s) :
    GlobMatches held p s := by
  induction m with
  | done => exact .done
  | any a _ ih => exact .any a (ih fun b mem => free b (List.mem_cons_of_mem _ mem))
  | byte a _ ih => exact .byte a (ih fun b mem => free b (List.mem_cons_of_mem _ mem))
  | star run _ _ ih =>
      apply GlobMatches.star run
      · intro a first isHeld
        exact absurd isHeld (free a (List.mem_of_mem_head? first))
      · exact ih fun b mem => free b (List.mem_append_right _ mem)

/-- Behind a star the text matches from some place on. -/
theorem behind_star (m : GlobMatches held (.star :: p) s) :
    ∃ t, t <:+ s ∧ GlobMatches held p t := by
  cases m with
  | star run _ rest => exact ⟨_, List.suffix_append _ _, rest⟩

/-- A star that is not held can stand for anything. -/
theorem star_iff (free : ∀ a, s.head? = some a → ¬held a) :
    GlobMatches held (.star :: p) s ↔ ∃ t, t <:+ s ∧ GlobMatches held p t := by
  constructor
  · exact behind_star
  · rintro ⟨t, ⟨run, rfl⟩, rest⟩
    exact .star run (fun a first isHeld => absurd isHeld (free a first)) rest

theorem nil_iff : GlobMatches held p [] ↔ ∀ k ∈ p, k = .star := by
  constructor
  · intro m
    generalize empty : ([] : List α) = s at m
    induction m with
    | done => exact fun k mem => absurd mem List.not_mem_nil
    | any => cases empty
    | byte => cases empty
    | star run _ _ ih =>
        have rest := (List.append_eq_nil_iff.mp empty.symm).2
        exact List.forall_mem_cons.mpr ⟨rfl, ih rest.symm⟩
  · intro stars
    induction p with
    | nil => exact .done
    | cons k p ih =>
        obtain ⟨rfl, rest⟩ := List.forall_mem_cons.mp stars
        exact .star [] (fun a first => by cases first) (ih rest)

/-! ## One symbol for each token -/

/-- The symbol is what the token stands for, as long as it stands for one. -/
inductive Reads (held : α → Prop) : GlobToken α → α → Prop
  | any (a : α) : Reads held .any a
  | byte (a : α) : Reads held (.byte a) a
  | star {a : α} (isHeld : held a) : Reads held .star a

theorem reads_iff (reads : Reads held k a) :
    GlobMatches held (k :: p) (a :: s) ↔ GlobMatches held p s := by
  cases reads with
  | any => exact ⟨fun m => by cases m; assumption, .any a⟩
  | byte => exact ⟨fun m => by cases m; assumption, .byte a⟩
  | star isHeld =>
      constructor
      · intro m
        generalize isText : a :: s = text at m
        cases m with
        | star run kept rest =>
            have one := kept a (by rw [← isText]; rfl) isHeld
            rw [one] at isText
            exact (List.cons.inj isText).2 ▸ rest
      · intro m
        exact .star [a] (fun b first _ => by rw [Option.some.inj first]) m

/-- What a token matches from its place or a later one, the next matches from the next place or a
later one. -/
theorem next_of_reads (reads : Reads held k a) (inside : t <:+ a :: s)
    (m : GlobMatches held (k :: p) t) : ∃ t', t' <:+ s ∧ GlobMatches held p t' := by
  obtain rfl | later := List.suffix_cons_iff.mp inside
  · exact ⟨s, List.suffix_refl s, (reads_iff reads).mp m⟩
  · cases m with
    | any b rest => exact ⟨_, (List.suffix_cons _ _).trans later, rest⟩
    | byte b rest => exact ⟨_, (List.suffix_cons _ _).trans later, rest⟩
    | star run _ rest => exact ⟨_, (List.suffix_append _ _).trans later, rest⟩

/-- What was read up to a place is not read from later on without passing that place. -/
theorem past_read (read : List.Forall₂ (Reads held) u v) (inside : t <:+ v ++ s)
    (m : GlobMatches held (u ++ p) t) : ∃ t', t' <:+ s ∧ GlobMatches held p t' := by
  induction read generalizing t with
  | nil => exact ⟨t, inside, m⟩
  | cons one _ ih =>
      obtain ⟨t', below, next⟩ := next_of_reads one inside m
      exact ih below next

end GlobMatches
