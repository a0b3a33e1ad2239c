import Mathlib.Data.List.Range
import Mathlib.Logic.Function.Iterate

/-!
# Counter mode

A block cipher in counter mode: a counter is enciphered to a block of keystream, the next counter
follows once the block is used up, and the bytes of a text are combined with those of the stream.
The cipher and the counters are parameters; a block gives `0` where it is too short.

A text comes back when it is enciphered twice from one counter. Which counters a text uses depends
on its length alone.
-/

namespace CounterMode

variable {B : Type*} (cipher : B → List UInt8) (next : B → B) (size : Nat)

/-- A text from a counter, with `used` bytes of the block `stream` used up. -/
def crypt (counter : B) (used : Nat) (stream : List UInt8) : List UInt8 → List UInt8
  | [] => []
  | b :: rest =>
      if used = 0 then
        (b ^^^ (cipher counter).getD 0 0) ::
          crypt (next counter) (1 % size) (cipher counter) rest
      else
        (b ^^^ stream.getD used 0) :: crypt counter ((used + 1) % size) stream rest

/-- The counters enciphered for a text of a given length. -/
def counters (counter : B) (used : Nat) : Nat → List B
  | 0 => []
  | n + 1 =>
      if used = 0 then counter :: counters (next counter) (1 % size) n
      else counters counter ((used + 1) % size) n

variable {cipher next size}

@[simp] theorem crypt_length (counter : B) (used : Nat) (stream text : List UInt8) :
    (crypt cipher next size counter used stream text).length = text.length := by
  induction text generalizing counter used stream with
  | nil => rfl
  | cons b rest ih =>
      unfold crypt
      split
      · rw [List.length_cons, ih, List.length_cons]
      · rw [List.length_cons, ih, List.length_cons]

theorem xor_twice (b k : UInt8) : b ^^^ k ^^^ k = b := by
  rw [UInt8.xor_assoc, UInt8.xor_self, UInt8.xor_zero]

/-- The same stream takes itself off. -/
theorem crypt_crypt (counter : B) (used : Nat) (stream text : List UInt8) :
    crypt cipher next size counter used stream
      (crypt cipher next size counter used stream text) = text := by
  induction text generalizing counter used stream with
  | nil => rfl
  | cons b rest ih =>
      by_cases fresh : used = 0
      · simp only [crypt, fresh, if_true, xor_twice, ih]
      · simp only [crypt, fresh, if_false, xor_twice, ih]

/-- A cipher counts only at the counters of the text. -/
theorem crypt_congr {cipher' : B → List UInt8} (counter : B) (used : Nat)
    (stream text : List UInt8)
    (same : ∀ c ∈ counters next size counter used text.length, cipher c = cipher' c) :
    crypt cipher next size counter used stream text =
      crypt cipher' next size counter used stream text := by
  induction text generalizing counter used stream with
  | nil => rfl
  | cons b rest ih =>
      by_cases fresh : used = 0
      · simp only [List.length_cons, counters, fresh, if_true, List.forall_mem_cons] at same
        simp only [crypt, fresh, if_true, same.1]
        rw [ih _ _ _ same.2]
      · simp only [List.length_cons, counters, fresh, if_false] at same
        simp only [crypt, fresh, if_false]
        rw [ih _ _ _ same]

/-- How many blocks `n` more bytes begin. -/
theorem counters_eq (pos : 0 < size) (counter : B) {used : Nat} (inside : used < size) (n : Nat) :
    counters next size counter used n =
      (List.range ((n + (used + (size - 1)) % size) / size)).map fun i => next^[i] counter := by
  induction n generalizing counter used with
  | zero =>
      have none : (0 + (used + (size - 1)) % size) / size = 0 := by
        rw [Nat.zero_add]
        exact Nat.div_eq_of_lt (Nat.mod_lt _ pos)
      rw [none]
      rfl
  | succ n ih =>
      have begins : (n + 1 + (0 + (size - 1)) % size) / size = n / size + 1 := by
        rw [Nat.zero_add, Nat.mod_eq_of_lt (by omega),
          show n + 1 + (size - 1) = n + size by omega, Nat.add_div_right n pos]
      have behind (used : Nat) (some : 0 < used) (inside : used < size) :
          (used + (size - 1)) % size = used - 1 := by
        rw [show used + (size - 1) = used - 1 + size by omega, Nat.add_mod_right,
          Nat.mod_eq_of_lt (by omega)]
      have follows (used : Nat) (inside : used < size) :
          ((used + 1) % size + (size - 1)) % size = used := by
        rw [Nat.mod_add_mod, show used + 1 + (size - 1) = used + size by omega, Nat.add_mod_right,
          Nat.mod_eq_of_lt inside]
      by_cases fresh : used = 0
      · subst fresh
        simp only [counters, if_true]
        rw [ih (next counter) (Nat.mod_lt 1 pos), begins, List.range_succ_eq_map, List.map_cons,
          List.map_map]
        have zero := follows 0 inside
        rw [Nat.zero_add] at zero
        rw [zero, Nat.add_zero]
        rfl
      · simp only [counters, fresh, if_false]
        rw [ih counter (Nat.mod_lt _ pos), follows used inside, behind used (by omega) inside,
          show n + 1 + (used - 1) = n + used by omega]

/-- A text from a fresh block uses a counter for each block of it. -/
theorem counters_fresh (pos : 0 < size) (counter : B) (n : Nat) :
    counters next size counter 0 n =
      (List.range ((n + (size - 1)) / size)).map fun i => next^[i] counter := by
  rw [counters_eq pos counter pos, Nat.zero_add, Nat.mod_eq_of_lt (by omega)]

end CounterMode
