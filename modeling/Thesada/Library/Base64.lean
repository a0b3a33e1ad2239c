import Mathlib.Data.List.Basic

/-!
# Base64

Bytes are cut into groups of six bits, from the left and with the last group filled up with zero
bits. A group is written as a letter of the standard alphabet, and the text is filled up with `=`
to a multiple of four.
-/

namespace Base64

def alphabet : List Char :=
  "ABCDEFGHIJKLMNOPQRSTUVWXYZabcdefghijklmnopqrstuvwxyz0123456789+/".toList

def letter (v : Nat) : Char := alphabet.getD v '='

/-- The groups of six bits of a text of bytes. -/
def sextets : List UInt8 → List Nat
  | a :: b :: c :: rest =>
      a.toNat / 4 :: (a.toNat % 4 * 16 + b.toNat / 16) :: (b.toNat % 16 * 4 + c.toNat / 64) ::
        c.toNat % 64 :: sextets rest
  | [a, b] => [a.toNat / 4, a.toNat % 4 * 16 + b.toNat / 16, b.toNat % 16 * 4]
  | [a] => [a.toNat / 4, a.toNat % 4 * 16]
  | [] => []

/-- The `=` behind `n` letters. -/
def padding (n : Nat) : List Char := List.replicate ((4 - n % 4) % 4) '='

def encode (bytes : List UInt8) : List Char :=
  (sextets bytes).map letter ++ padding (sextets bytes).length

/-- The whole bytes in a run of groups; the bits behind them are dropped. -/
def wholeBytes : List Nat → List UInt8
  | p :: q :: r :: s :: rest =>
      UInt8.ofNat (p * 4 + q / 16) :: UInt8.ofNat (q % 16 * 16 + r / 4) ::
        UInt8.ofNat (r % 4 * 64 + s) :: wholeBytes rest
  | [p, q, r] => [UInt8.ofNat (p * 4 + q / 16), UInt8.ofNat (q % 16 * 16 + r / 4)]
  | [p, q] => [UInt8.ofNat (p * 4 + q / 16)]
  | [_] => []
  | [] => []

/-- No group stands alone, and no bit that is dropped is set. -/
def Exact : List Nat → Prop
  | _ :: _ :: _ :: _ :: rest => Exact rest
  | [_, _, r] => r % 4 = 0
  | [_, q] => q % 16 = 0
  | [_] => False
  | [] => True

instance Exact.decidable : ∀ vs, Decidable (Exact vs)
  | _ :: _ :: _ :: _ :: rest => Exact.decidable rest
  | [_, _, r] => inferInstanceAs (Decidable (r % 4 = 0))
  | [_, q] => inferInstanceAs (Decidable (q % 16 = 0))
  | [_] => inferInstanceAs (Decidable False)
  | [] => inferInstanceAs (Decidable True)

section

variable {vs : List Nat} {v : Nat}

theorem sextets_lt (bytes : List UInt8) : ∀ v ∈ sextets bytes, v < 64 := by
  induction bytes using sextets.induct with
  | case1 a b c rest ih =>
      have ha := a.toNat_lt
      have hb := b.toNat_lt
      have hc := c.toNat_lt
      simp only [sextets, List.forall_mem_cons]
      refine ⟨by omega, by omega, by omega, by omega, ih⟩
  | case2 a b =>
      have ha := a.toNat_lt
      have hb := b.toNat_lt
      simp only [sextets, List.forall_mem_cons]
      refine ⟨by omega, by omega, by omega, fun v mem => absurd mem List.not_mem_nil⟩
  | case3 a =>
      have ha := a.toNat_lt
      simp only [sextets, List.forall_mem_cons]
      refine ⟨by omega, by omega, fun v mem => absurd mem List.not_mem_nil⟩
  | case4 => exact fun v mem => absurd mem List.not_mem_nil

theorem exact_sextets (bytes : List UInt8) : Exact (sextets bytes) := by
  induction bytes using sextets.induct with
  | case1 a b c rest ih => exact ih
  | case2 a b => exact Nat.mul_mod_left (b.toNat % 16) 4
  | case3 a => exact Nat.mul_mod_left (a.toNat % 4) 16
  | case4 => trivial

/-- A byte that is put together from its bits. -/
theorem ofNat_toNat {a : UInt8} {n : Nat} (same : n = a.toNat) : UInt8.ofNat n = a := by
  rw [same, UInt8.ofNat_toNat]

theorem wholeBytes_sextets (bytes : List UInt8) : wholeBytes (sextets bytes) = bytes := by
  induction bytes using sextets.induct with
  | case1 a b c rest ih =>
      have hb := b.toNat_lt
      have hc := c.toNat_lt
      rw [sextets, wholeBytes, ih, ofNat_toNat (a := a) (by omega), ofNat_toNat (a := b) (by omega),
        ofNat_toNat (a := c) (by omega)]
  | case2 a b =>
      have hb := b.toNat_lt
      rw [sextets, wholeBytes, ofNat_toNat (a := a) (by omega), ofNat_toNat (a := b) (by omega)]
  | case3 a => rw [sextets, wholeBytes, ofNat_toNat (a := a) (by omega)]
  | case4 => rfl

theorem toNat_ofNat {n : Nat} (fits : n < 256) : (UInt8.ofNat n).toNat = n :=
  UInt8.toNat_ofNat_of_lt' fits

/-- Groups that leave no bit over are those of their bytes. -/
theorem sextets_wholeBytes (small : ∀ v ∈ vs, v < 64) (exact : Exact vs) :
    sextets (wholeBytes vs) = vs := by
  induction vs using wholeBytes.induct with
  | case1 p q r s rest ih =>
      simp only [List.forall_mem_cons] at small
      obtain ⟨hp, hq, hr, hs, others⟩ := small
      rw [wholeBytes, sextets, ih others exact, toNat_ofNat (by omega), toNat_ofNat (by omega),
        toNat_ofNat (by omega)]
      congr 1
      · omega
      · congr 1
        · omega
        · congr 1
          · omega
          · congr 1
            omega
  | case2 p q r =>
      simp only [List.forall_mem_cons] at small
      obtain ⟨hp, hq, hr, -⟩ := small
      have last : r % 4 = 0 := exact
      rw [wholeBytes, sextets, toNat_ofNat (by omega), toNat_ofNat (by omega)]
      congr 1
      · omega
      · congr 1
        · omega
        · congr 1
          omega
  | case3 p q =>
      simp only [List.forall_mem_cons] at small
      obtain ⟨hp, hq, -⟩ := small
      have last : q % 16 = 0 := exact
      rw [wholeBytes, sextets, toNat_ofNat (by omega)]
      congr 1
      · omega
      · congr 1
        omega
  | case4 p => exact exact.elim
  | case5 => rfl

theorem length_wholeBytes (vs : List Nat) : (wholeBytes vs).length = 6 * vs.length / 8 := by
  induction vs using wholeBytes.induct with
  | case1 p q r s rest ih =>
      simp only [wholeBytes, List.length_cons, ih]
      omega
  | case2 p q r => simp [wholeBytes]
  | case3 p q => simp [wholeBytes]
  | case4 p => simp [wholeBytes]
  | case5 => rfl

/-- A text of letters and `=` is the encoding of its bytes when nothing is left over and the
padding is complete. -/
theorem encode_wholeBytes (small : ∀ v ∈ vs, v < 64) (exact : Exact vs) :
    encode (wholeBytes vs) = vs.map letter ++ padding vs.length := by
  rw [encode, sextets_wholeBytes small exact]

end

end Base64
