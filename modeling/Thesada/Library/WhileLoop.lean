import Mathlib.Tactic.TypeStar

/-!
# While loops and their termination

A loop takes turns until one is its last. How many turns it may take is not part of the loop, so
the run has a fuel, and a loop terminates when some fuel is enough. The rule is the one of total
correctness: an invariant that each turn keeps, and a variant that each turn lowers.
-/

namespace WhileLoop

variable {σ ρ : Type*}

/-- What one turn comes to: the next state, or the result of the loop. -/
inductive Turn (σ ρ : Type*) where
  | again (s : σ)
  | done (r : ρ)

/-- The turn goes on in a state with `again`, or ends with a result with `done`. -/
def Turn.Satisfies (again : σ → Prop) (done : ρ → Prop) : Turn σ ρ → Prop
  | .again s => again s
  | .done r => done r

/-- `none` when the fuel ran out, here or in a loop inside a turn. -/
def whileLoop (turn : σ → Option (Turn σ ρ)) : (fuel : Nat) → σ → Option ρ
  | 0, _ => none
  | fuel + 1, s =>
      match turn s with
      | none => none
      | some (.done r) => some r
      | some (.again s) => whileLoop turn fuel s

/-- With more fuel than the variant, a loop returns, and its result has the postcondition. -/
theorem whileLoop_returns {turn : σ → Option (Turn σ ρ)} {post : ρ → Prop} (inv : σ → Prop)
    (variant : σ → Nat)
    (each : ∀ s, inv s → ∃ t, turn s = some t ∧
      t.Satisfies (fun next => inv next ∧ variant next < variant s) post)
    {s : σ} (start : inv s) {fuel : Nat} (enough : variant s < fuel) :
    ∃ r, whileLoop turn fuel s = some r ∧ post r := by
  induction fuel generalizing s with
  | zero => exact absurd enough (Nat.not_lt_zero _)
  | succ fuel ih =>
      obtain ⟨t, taken, holds⟩ := each s start
      cases t with
      | done r =>
          refine ⟨r, ?_, holds⟩
          simp only [whileLoop, taken]
      | again next =>
          have left := Nat.lt_of_lt_of_le holds.2 (Nat.lt_succ_iff.mp enough)
          obtain ⟨r, returns, got⟩ := ih holds.1 left
          refine ⟨r, ?_, got⟩
          simp only [whileLoop, taken]
          exact returns

end WhileLoop
