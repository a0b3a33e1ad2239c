import Mathlib.Algebra.Group.Nat.Defs
import Mathlib.Data.Nat.Basic

/-!
# 32-bit unsigned arithmetic on naturals

`uint32_t` and a 32-bit `size_t` are naturals below `2 ^ 32`. Each operation takes
its result modulo `2 ^ 32`; the lemmas give the conditions under which nothing wraps. The
operations are irreducible, because reducing a modulus of an open term counts in unary.
-/

namespace Word32

/-- The number of 32-bit words. -/
def size : Nat := 2 ^ 32

/-- `a + b`. -/
@[irreducible] def add (a b : Nat) : Nat := (a + b) % size

/-- `a - b`. -/
@[irreducible] def sub (a b : Nat) : Nat := (a + (size - b % size)) % size

theorem add_of_lt {a b : Nat} (h : a + b < size) : add a b = a + b := by
  unfold add
  exact Nat.mod_eq_of_lt h

theorem sub_of_le {a b : Nat} (le : b ≤ a) (bound : a < size) : sub a b = a - b := by
  unfold sub
  unfold size at *
  omega

/-- `a + b - 1` does not wrap when `a + b` is at most `2 ^ 32`. -/
theorem sub_one_of_le {a b : Nat} (pos : 0 < a + b) (bound : a + b ≤ size) :
    sub (add a b) 1 = a + b - 1 := by
  unfold sub add
  unfold size at *
  omega

/-- The difference of two readings of one counter. -/
theorem sub_sub_sub {a b t : Nat} (order : t ≤ a) :
    sub (sub a b) (sub t b) = (a - t) % size := by
  unfold sub size
  omega

/-- The difference of two clock readings is the time between them. -/
theorem sub_mod_mod {a b : Nat} (order : b ≤ a) (bound : a - b < size) :
    sub (a % size) (b % size) = a - b := by
  unfold sub
  unfold size at *
  omega

/-- A deadline in 32 bits tells the time as long as the counter does not wrap. -/
theorem before_iff {start timeout now : Nat} (room : start % size + timeout < size)
    (period : now / size = start / size) :
    now % size < add (start % size) timeout ↔ now < start + timeout := by
  rw [add_of_lt room]
  have begins := Nat.mod_add_div start size
  have here := Nat.mod_add_div now size
  rw [period] at here
  omega

theorem add_mod (a b : Nat) : add (a % size) b = (a + b) % size := by
  unfold add
  exact Nat.mod_add_mod a size b

theorem sub_self (a : Nat) : sub a a = 0 := by
  unfold sub size
  omega

end Word32
