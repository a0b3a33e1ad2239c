import Mathlib.Data.List.Basic

/-!
# Event-driven machines and their runs

A machine is a total function from a state and an event to the next state. What
the environment chooses (which party moves, whether a write lands, what a server
answers) is part of the event, so one run is one list of events and a statement
about every run is a statement about every list.

`Meets` says that each event of a run satisfies a condition at the state it is
taken in. The condition may depend on the state, as the promise of a caller does.
-/

namespace Machine

variable {σ ε : Type*}

/-- The state after a list of events. -/
def run (step : σ → ε → σ) (s : σ) (es : List ε) : σ := es.foldl step s

@[simp] theorem run_nil (step : σ → ε → σ) (s : σ) : run step s [] = s := rfl

@[simp] theorem run_cons (step : σ → ε → σ) (s : σ) (e : ε) (es : List ε) :
    run step s (e :: es) = run step (step s e) es := rfl

@[simp] theorem run_append (step : σ → ε → σ) (s : σ) (as bs : List ε) :
    run step s (as ++ bs) = run step (run step s as) bs := by
  simp [run]

/-- Each event is admissible at the state the run has reached when it happens. -/
def Meets (step : σ → ε → σ) (ok : σ → ε → Prop) : σ → List ε → Prop
  | _, [] => True
  | s, e :: es => ok s e ∧ Meets step ok (step s e) es

@[simp] theorem meets_nil (step : σ → ε → σ) (ok : σ → ε → Prop) (s : σ) :
    Meets step ok s [] := trivial

@[simp] theorem meets_cons {step : σ → ε → σ} {ok : σ → ε → Prop} {s : σ} {e : ε}
    {es : List ε} : Meets step ok s (e :: es) ↔ ok s e ∧ Meets step ok (step s e) es :=
  Iff.rfl

instance Meets.decidable {step : σ → ε → σ} {ok : σ → ε → Prop} [∀ s e, Decidable (ok s e)] :
    ∀ (s : σ) (es : List ε), Decidable (Meets step ok s es)
  | _, [] => isTrue trivial
  | s, e :: es =>
      have : Decidable (Meets step ok (step s e) es) := Meets.decidable (step s e) es
      inferInstanceAs (Decidable (ok s e ∧ Meets step ok (step s e) es))

theorem meets_append {step : σ → ε → σ} {ok : σ → ε → Prop} {s : σ} {as bs : List ε} :
    Meets step ok s (as ++ bs) ↔ Meets step ok s as ∧ Meets step ok (run step s as) bs := by
  induction as generalizing s with
  | nil => simp
  | cons a as ih => simp only [List.cons_append, meets_cons, run_cons, ih, and_assoc]

theorem Meets.mono {step : σ → ε → σ} {ok ok' : σ → ε → Prop}
    (weaken : ∀ s e, ok s e → ok' s e) {s : σ} {es : List ε} (h : Meets step ok s es) :
    Meets step ok' s es := by
  induction es generalizing s with
  | nil => trivial
  | cons e es ih => exact ⟨weaken s e h.1, ih h.2⟩

theorem Meets.and {step : σ → ε → σ} {ok ok' : σ → ε → Prop} {s : σ} {es : List ε}
    (h : Meets step ok s es) (h' : Meets step ok' s es) :
    Meets step (fun s e => ok s e ∧ ok' s e) s es := by
  induction es generalizing s with
  | nil => trivial
  | cons e es ih => exact ⟨⟨h.1, h'.1⟩, ih h.2 h'.2⟩

/-- An unconditional requirement on events does not need the reached state. -/
theorem meets_of_forall {step : σ → ε → σ} {ok : σ → ε → Prop} (h : ∀ s e, ok s e)
    (s : σ) (es : List ε) : Meets step ok s es := by
  induction es generalizing s with
  | nil => trivial
  | cons e es ih => exact ⟨h s e, ih (step s e)⟩

/-- What one admissible step preserves, every admissible run preserves. -/
theorem Meets.invariant {step : σ → ε → σ} {ok : σ → ε → Prop} {inv : σ → Prop}
    (preserved : ∀ s e, inv s → ok s e → inv (step s e)) {s : σ} {es : List ε}
    (start : inv s) (h : Meets step ok s es) : inv (run step s es) := by
  induction es generalizing s with
  | nil => exact start
  | cons e es ih => exact ih (preserved s e start h.1) h.2

/-- What every admissible step from a state with the invariant has, the steps of a run have. -/
theorem Meets.yields {step : σ → ε → σ} {ok got : σ → ε → Prop} {inv : σ → Prop}
    (each : ∀ s e, inv s → ok s e → inv (step s e) ∧ got s e) {s : σ} {es : List ε}
    (start : inv s) (h : Meets step ok s es) : Meets step got s es := by
  induction es generalizing s with
  | nil => trivial
  | cons e es ih =>
      obtain ⟨next, first⟩ := each s e start h.1
      exact ⟨first, ih next h.2⟩

/-- An invariant that every step keeps holds after every run. -/
theorem run_invariant {step : σ → ε → σ} {inv : σ → Prop}
    (preserved : ∀ s e, inv s → inv (step s e)) {s : σ} (start : inv s) (es : List ε) :
    inv (run step s es) :=
  (meets_of_forall (fun _ _ => trivial) s es : Meets step (fun _ _ => True) s es).invariant
    (fun s e held _ => preserved s e held) start

/-- A relation that the events outside `keep` leave, whatever they do on its left, and that the
others keep on both sides, holds between a run and the run without the former. -/
theorem run_filter {step : σ → ε → σ} {rel : σ → σ → Prop} {keep : ε → Bool}
    (dropped : ∀ s t e, rel s t → keep e = false → rel (step s e) t)
    (kept : ∀ s t e, rel s t → keep e = true → rel (step s e) (step t e)) {s t : σ}
    (start : rel s t) (es : List ε) : rel (run step s es) (run step t (es.filter keep)) := by
  induction es generalizing s t with
  | nil => exact start
  | cons e es ih =>
      cases keeps : keep e with
      | false =>
          rw [List.filter_cons_of_neg (by simp [keeps]), run_cons]
          exact ih (dropped s t e start keeps)
      | true =>
          rw [List.filter_cons_of_pos keeps, run_cons, run_cons]
          exact ih (kept s t e start keeps)

/-- What every step from a state with the invariant has, the steps of every run have. -/
theorem meets_of_invariant {step : σ → ε → σ} {got : σ → ε → Prop} {inv : σ → Prop}
    (preserved : ∀ s e, inv s → inv (step s e)) (has : ∀ s e, inv s → got s e) {s : σ}
    (start : inv s) (es : List ε) : Meets step got s es :=
  (meets_of_forall (fun _ _ => trivial) s es : Meets step (fun _ _ => True) s es).yields
    (fun s e held _ => ⟨preserved s e held, has s e held⟩) start

/-- Conditions that agree at each state with the invariant, and keep it, hold of the same runs. -/
theorem meets_congr {step : σ → ε → σ} {ok ok' : σ → ε → Prop} {inv : σ → Prop}
    (preserved : ∀ s e, inv s → ok s e → inv (step s e))
    (same : ∀ s e, inv s → (ok s e ↔ ok' s e))
    {s : σ} (start : inv s) (es : List ε) : Meets step ok s es ↔ Meets step ok' s es := by
  induction es generalizing s with
  | nil => exact Iff.rfl
  | cons e es ih =>
      rw [meets_cons, meets_cons, ← same s e start]
      constructor
      · intro ⟨first, rest⟩
        exact ⟨first, (ih (preserved s e start first)).mp rest⟩
      · intro ⟨first, rest⟩
        exact ⟨first, (ih (preserved s e start first)).mpr rest⟩

/-- A condition that is exactly what each step from a state with the invariant needs to keep it
is exactly what a run needs to keep it throughout. -/
theorem meets_invariant_iff {step : σ → ε → σ} {ok : σ → ε → Prop} {inv : σ → Prop}
    (exactly : ∀ s e, inv s → (inv (step s e) ↔ ok s e)) {s : σ} (start : inv s) (es : List ε) :
    Meets step (fun s e => inv (step s e)) s es ↔ Meets step ok s es :=
  @meets_congr σ ε step (fun s e => inv (step s e)) ok inv (fun _ _ _ kept => kept) exactly s
    start es

/-- The last step of an admissible run is taken in a state with the invariant. -/
theorem Meets.last {step : σ → ε → σ} {ok : σ → ε → Prop} {inv : σ → Prop}
    (preserved : ∀ s e, inv s → ok s e → inv (step s e)) {s : σ} {es : List ε} {e : ε}
    (start : inv s) (h : Meets step ok s (es ++ [e])) :
    inv (run step s es) ∧ ok (run step s es) e := by
  obtain ⟨front, last⟩ := meets_append.mp h
  exact ⟨front.invariant preserved start, last.1⟩

/-! ## Counting the events of a run -/

/-- How many events of a run are picked at the state they are taken in. -/
def tally (step : σ → ε → σ) (pick : σ → ε → Bool) : σ → List ε → Nat
  | _, [] => 0
  | s, e :: es => (if pick s e then 1 else 0) + tally step pick (step s e) es

/-- A rank that each picked event raises and no event lowers bounds the count. -/
theorem Meets.tally_le {step : σ → ε → σ} {ok : σ → ε → Prop} {pick : σ → ε → Bool}
    (rank : σ → Nat)
    (grows : ∀ s e, ok s e → rank s + (if pick s e then 1 else 0) ≤ rank (step s e))
    {s : σ} {es : List ε} (h : Meets step ok s es) :
    rank s + tally step pick s es ≤ rank (run step s es) := by
  induction es generalizing s with
  | nil => exact Nat.le_refl _
  | cons e es ih =>
      have first := grows s e h.1
      have rest := ih h.2
      simp only [tally, run_cons]
      omega

/-- A budget that spending lowers, a renewal fills up to `cap`, and free events do not touch. -/
theorem Meets.tally_spent {step : σ → ε → σ} {ok : σ → ε → Prop} {spend renew free : σ → ε → Bool}
    (left : σ → Nat) (cap : Nat)
    (spends : ∀ s e, ok s e → (if spend s e then 1 else 0) + left (step s e) ≤
      left s + (if renew s e then cap else 0) + (if free s e then 1 else 0))
    {s : σ} {es : List ε} (h : Meets step ok s es) :
    tally step spend s es + left (run step s es) ≤
      left s + cap * tally step renew s es + tally step free s es := by
  induction es generalizing s with
  | nil => simp [tally]
  | cons e es ih =>
      have first := spends s e h.1
      have rest := ih h.2
      simp only [tally, run_cons]
      cases filled : renew s e with
      | false =>
          simp only [Bool.false_eq_true, if_false, Nat.zero_add, filled] at first ⊢
          omega
      | true =>
          simp only [if_true, Nat.mul_add, Nat.mul_one, filled] at first ⊢
          omega

/-- A rank that no event raises, and each picked event lowers unless it is zero already. -/
theorem Meets.tally_drains {step : σ → ε → σ} {ok : σ → ε → Prop} {inv : σ → Prop}
    {pick : σ → ε → Bool} (rank : σ → Nat)
    (preserved : ∀ s e, inv s → ok s e → inv (step s e))
    (falls : ∀ s e, inv s → ok s e → rank (step s e) ≤ rank s - (if pick s e then 1 else 0))
    {s : σ} {es : List ε} (start : inv s) (h : Meets step ok s es) :
    rank (run step s es) ≤ rank s - tally step pick s es := by
  induction es generalizing s with
  | nil => exact Nat.le_refl _
  | cons e es ih =>
      have first := falls s e start h.1
      have rest := ih (preserved s e start h.1) h.2
      simp only [tally, run_cons]
      omega

/-- What is picked at most once: a picked event ends the phase in which one can be. -/
theorem Meets.tally_le_one {step : σ → ε → σ} {ok : σ → ε → Prop} {pick : σ → ε → Bool}
    {fresh done : σ → Prop}
    (idle : ∀ s e, fresh s → ok s e → pick s e = false → fresh (step s e))
    (fires : ∀ s e, fresh s → ok s e → pick s e = true → done (step s e))
    (rests : ∀ s e, done s → ok s e → pick s e = false ∧ done (step s e))
    {s : σ} {es : List ε} (start : fresh s) (h : Meets step ok s es) :
    tally step pick s es ≤ 1 := by
  have never {s : σ} {es : List ε} (start : done s) (h : Meets step ok s es) :
      tally step pick s es = 0 := by
    induction es generalizing s with
    | nil => rfl
    | cons e es ih =>
        obtain ⟨unpicked, next⟩ := rests s e start h.1
        simp [tally, unpicked, ih next h.2]
  induction es generalizing s with
  | nil => exact Nat.zero_le 1
  | cons e es ih =>
      cases picked : pick s e with
      | false => simpa [tally, picked] using ih (idle s e start h.1 picked) h.2
      | true => simp [tally, picked, never (fires s e start h.1 picked) h.2]

end Machine
