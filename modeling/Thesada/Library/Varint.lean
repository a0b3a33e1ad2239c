import Mathlib.Data.Nat.Basic
import Mathlib.Data.Nat.Bitwise
import Mathlib.Algebra.Group.Nat.Defs

/-!
# Base-128 varints

A number as bytes of seven bits each, lowest first; every byte but the last has its high bit
set. A varint need not be the shortest one of its value. `encode` gives the shortest.
-/

namespace Varint

/-- The high bit: another byte follows. -/
def continues (b : UInt8) : Bool := decide (128 ≤ b.toNat)

/-- The bytes of one varint. -/
def IsVarint : List UInt8 → Prop
  | [] => False
  | [b] => continues b = false
  | b :: c :: rest => continues b = true ∧ IsVarint (c :: rest)

def value : List UInt8 → Nat
  | [] => 0
  | b :: rest => b.toNat % 128 + 128 * value rest

def encode (n : Nat) : List UInt8 :=
  if n < 128 then [UInt8.ofNat n] else UInt8.ofNat (n % 128 + 128) :: encode (n / 128)

instance IsVarint.decidable : ∀ bytes, Decidable (IsVarint bytes)
  | [] => isFalse id
  | [b] => inferInstanceAs (Decidable (continues b = false))
  | b :: c :: rest =>
      have : Decidable (IsVarint (c :: rest)) := IsVarint.decidable (c :: rest)
      inferInstanceAs (Decidable (continues b = true ∧ IsVarint (c :: rest)))

theorem ofNat_toNat {n : Nat} (h : n < 256) : (UInt8.ofNat n).toNat = n := by
  rw [UInt8.toNat_ofNat']
  exact Nat.mod_eq_of_lt h

theorem encode_of_lt {n : Nat} (h : n < 128) : encode n = [UInt8.ofNat n] := by
  rw [encode, if_pos h]

theorem encode_of_ge {n : Nat} (h : ¬n < 128) :
    encode n = UInt8.ofNat (n % 128 + 128) :: encode (n / 128) := by
  rw [encode, if_neg h]

theorem encode_ne_nil (n : Nat) : encode n ≠ [] := by
  rw [encode]
  split <;> simp

/-- A byte that continues, before a varint. -/
theorem isVarint_cons {b : UInt8} {rest : List UInt8} (more : continues b = true)
    (h : IsVarint rest) : IsVarint (b :: rest) := by
  cases rest with
  | nil => exact h.elim
  | cons c rest => exact ⟨more, h⟩

theorem encode_isVarint (n : Nat) : IsVarint (encode n) := by
  induction n using Nat.strongRecOn with
  | ind n ih =>
      by_cases small : n < 128
      · rw [encode_of_lt small]
        show continues (UInt8.ofNat n) = false
        rw [continues, ofNat_toNat (by omega)]
        exact decide_eq_false (by omega)
      · rw [encode_of_ge small]
        refine isVarint_cons ?_ (ih (n / 128) (by omega))
        rw [continues, ofNat_toNat (by omega)]
        exact decide_eq_true (by omega)

theorem value_encode (n : Nat) : value (encode n) = n := by
  induction n using Nat.strongRecOn with
  | ind n ih =>
      by_cases small : n < 128
      · rw [encode_of_lt small, value, value, ofNat_toNat (by omega)]
        omega
      · rw [encode_of_ge small, value, ih (n / 128) (by omega), ofNat_toNat (by omega)]
        omega

/-- A number below `128 ^ groups` takes at most `groups` bytes. -/
theorem encode_length_le {groups n : Nat} (h : n < 128 ^ (groups + 1)) :
    (encode n).length ≤ groups + 1 := by
  induction groups generalizing n with
  | zero =>
      rw [encode_of_lt (by simpa using h)]
      exact Nat.le_refl _
  | succ groups ih =>
      by_cases small : n < 128
      · rw [encode_of_lt small]
        exact Nat.le_add_left _ _
      · rw [encode_of_ge small, List.length_cons]
        refine Nat.succ_le_succ (ih ?_)
        rw [Nat.div_lt_iff_lt_mul (by omega), ← Nat.pow_succ]
        exact h

/-- The bits of a number above those of a smaller one are added. -/
theorem or_shifted (shift : Nat) {low : Nat} (h : low < 2 ^ shift) (high : Nat) :
    low ||| high * 2 ^ shift = low + high * 2 ^ shift := by
  rw [Nat.or_comm, Nat.mul_comm, ← Nat.two_pow_add_eq_or_of_lt h, Nat.add_comm]

end Varint
