import Mathlib.Data.List.Perm.Basic
import Mathlib.Order.Lattice

/-!
# Exchange sort

The two nested loops that compare each place of an array with the places behind it and exchange
the two when the later one has the greater key. Behind the inner loop the greatest key of the rest
is in its place.
-/

namespace ExchangeSort

variable {α κ : Type*} [LinearOrder κ] (key : α → κ)

/-- The inner loop: what is in the place behind it, and the rest of the array. -/
def pass (x : α) : List α → α × List α
  | [] => (x, [])
  | y :: rest =>
      if key x < key y then ((pass y rest).1, x :: (pass y rest).2)
      else ((pass x rest).1, y :: (pass x rest).2)

/-- The outer loop, with the places still to be filled. -/
def sortPlaces : Nat → List α → List α
  | places + 1, x :: rest => (pass key x rest).1 :: sortPlaces places (pass key x rest).2
  | _, l => l

def sort (l : List α) : List α := sortPlaces key l.length l

variable {key}

theorem pass_perm (x : α) (l : List α) : ((pass key x l).1 :: (pass key x l).2).Perm (x :: l) := by
  induction l generalizing x with
  | nil => exact List.Perm.refl _
  | cons y rest ih =>
      unfold pass
      split
      · exact (List.Perm.swap _ _ _).trans ((ih y).cons x)
      · exact (List.Perm.swap _ _ _).trans (((ih x).cons y).trans (List.Perm.swap _ _ _))

theorem pass_length (x : α) (l : List α) : (pass key x l).2.length = l.length := by
  have perm : ((pass key x l).1 :: (pass key x l).2).Perm (x :: l) := pass_perm x l
  have same := perm.length_eq
  simpa using same

theorem le_pass (x : α) (l : List α) : key x ≤ key (pass key x l).1 := by
  induction l generalizing x with
  | nil => exact le_refl _
  | cons y rest ih =>
      unfold pass
      split
      · next less => exact le_of_lt (lt_of_lt_of_le less (ih y))
      · exact ih x

theorem pass_greatest (x : α) (l : List α) :
    ∀ z ∈ (pass key x l).2, key z ≤ key (pass key x l).1 := by
  induction l generalizing x with
  | nil => exact fun _ none => (nomatch none)
  | cons y rest ih =>
      unfold pass
      split
      · next less =>
          intro z member
          rcases List.mem_cons.mp member with rfl | behind
          · exact le_of_lt (lt_of_lt_of_le less (le_pass y rest))
          · exact ih y z behind
      · next notLess =>
          intro z member
          rcases List.mem_cons.mp member with rfl | behind
          · exact le_trans (le_of_not_gt notLess) (le_pass x rest)
          · exact ih x z behind

theorem sortPlaces_perm (places : Nat) (l : List α) : (sortPlaces key places l).Perm l := by
  induction places generalizing l with
  | zero => cases l <;> exact List.Perm.refl _
  | succ places ih =>
      cases l with
      | nil => exact List.Perm.refl _
      | cons x rest => exact ((ih _).cons _).trans (pass_perm x rest)

theorem sort_perm (l : List α) : (sort key l).Perm l := sortPlaces_perm _ l

theorem sortPlaces_pairwise (places : Nat) (l : List α) (enough : l.length ≤ places) :
    (sortPlaces key places l).Pairwise fun a b => key b ≤ key a := by
  induction places generalizing l with
  | zero =>
      rw [List.eq_nil_of_length_eq_zero (Nat.le_zero.mp enough)]
      exact List.Pairwise.nil
  | succ places ih =>
      cases l with
      | nil => exact List.Pairwise.nil
      | cons x rest =>
          have fewer : (pass key x rest).2.length ≤ places := by
            rw [pass_length]
            exact Nat.le_of_succ_le_succ enough
          refine List.Pairwise.cons (fun z member => ?_) (ih _ fewer)
          exact pass_greatest x rest z ((sortPlaces_perm places _).mem_iff.mp member)

/-- The greatest key comes first. -/
theorem sort_pairwise (l : List α) : (sort key l).Pairwise fun a b => key b ≤ key a :=
  sortPlaces_pairwise _ l (Nat.le_refl _)

end ExchangeSort
