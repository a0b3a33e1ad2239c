import Thesada.Enroll.Policy
import Thesada.Library.JsonText
import Mathlib.Algebra.Group.Nat.Defs
import Mathlib.Data.List.Induction
import Mathlib.Tactic.Common

/-!
# The signed status request

The serial of a certificate is printed byte by byte, while the app prints one integer.
`enrollSerialCanonical` is the same text for both. `enrollStatusMessage` joins id, serial and time
with newlines, and no two of them share a text.
-/

namespace Thesada.Enroll

open CString Thesada.Identity

def ENROLL_STATUS_DOMAIN : Str := "thesada-enroll-status".toList
def ENROLL_STATUS_MIN_EPOCH : Int := 1767225600

/-- The serial as `getCertInfo` prints it, as far as its buffer goes. -/
def certSerialHex (maxLen : Nat) (serial : Bytes) : Str :=
  serial.foldl (fun out b =>
    if out.length + 2 < maxLen - 1 then out ++ [hexDigit (b / 16), hexDigit b] else out) []

def enrollStatusMessage (cap : Nat) (deviceId serial : Str) (ts : Int) : Option Str :=
  if !identityDeviceIdValid deviceId ∨ !enrollSerialValid serial then none
  else if ts < ENROLL_STATUS_MIN_EPOCH then none
  else
    let out := ENROLL_STATUS_DOMAIN ++ '\n' :: deviceId ++ '\n' :: serial ++
      '\n' :: Nat.toDigits 10 ts.toNat
    if cap ≤ out.length then none else some out

/-- The content of a DER serial: one octet at least, and twenty at most. -/
structure DerSerial where
  octets : Bytes
  octet_lt : ∀ b ∈ octets, b < 256
  pos : 1 ≤ octets.length
  length_le : octets.length ≤ 20

/-- The unsigned integer of its octets. -/
def unsignedValue (octets : Bytes) : Nat := octets.foldl (fun n b => 256 * n + b) 0

/-! ## Dropping zeros -/

section

variable {s : Str} {c : Char} {n : Nat}

theorem dropZeros_of_ne (c : Char) (s : Str) (other : c ≠ '0') : dropZeros (c :: s) = c :: s := by
  rw [dropZeros]
  rintro d rest same
  injection same with head
  exact absurd head other

theorem dropZeros_single (c : Char) : dropZeros [c] = [c] := by
  rw [dropZeros]
  rintro d rest same
  injection same with head tail
  cases tail

/-- What one more digit leaves. -/
theorem dropZeros_concat (s : Str) (c : Char) (some : s ≠ []) :
    dropZeros (s ++ [c]) = if dropZeros s = ['0'] then [c] else dropZeros s ++ [c] := by
  induction s with
  | nil => exact absurd rfl some
  | cons d s ih =>
      by_cases zero : d = '0'
      · subst zero
        cases s with
        | nil =>
            rw [dropZeros_single, if_pos rfl]
            exact dropZeros_single c
        | cons e s => exact ih (List.cons_ne_nil e s)
      · rw [List.cons_append, dropZeros_of_ne d _ zero, dropZeros_of_ne d _ zero, if_neg]
        · rfl
        · intro same
          injection same with head
          exact zero head

theorem dropZeros_ne_nil (some : s ≠ []) : dropZeros s ≠ [] := by
  induction s with
  | nil => exact absurd rfl some
  | cons d s ih =>
      by_cases zero : d = '0'
      · subst zero
        cases s with
        | nil => exact some
        | cons e s => exact ih (List.cons_ne_nil e s)
      · rw [dropZeros_of_ne d _ zero]
        exact some

theorem mem_dropZeros (mem : c ∈ dropZeros s) : c ∈ s := by
  induction s with
  | nil => exact mem
  | cons d s ih =>
      by_cases zero : d = '0'
      · subst zero
        cases s with
        | nil => exact mem
        | cons e s => exact List.mem_cons_of_mem '0' (ih mem)
      · rw [dropZeros_of_ne d _ zero] at mem
        exact mem

/-- A zero in front stands alone. -/
theorem dropZeros_head (zero : (dropZeros s).head? = some '0') : dropZeros s = ['0'] := by
  induction s with
  | nil => cases zero
  | cons d s ih =>
      by_cases first : d = '0'
      · subst first
        cases s with
        | nil => rfl
        | cons e s => exact ih zero
      · rw [dropZeros_of_ne d _ first] at zero
        injection zero with same
        exact absurd same first

theorem dropZeros_dropZeros (s : Str) : dropZeros (dropZeros s) = dropZeros s := by
  cases dropped : dropZeros s with
  | nil => rfl
  | cons d rest =>
      by_cases zero : d = '0'
      · have alone := @dropZeros_head s (by rw [dropped, zero]; rfl)
        rw [dropped] at alone
        rw [alone]
        rfl
      · exact dropZeros_of_ne d rest zero

theorem toDigits_eq_zero (zero : Nat.toDigits 16 n = ['0']) : n = 0 := by
  have short : n < 16 := by
    rw [← Nat.pow_one 16, ← Nat.length_toDigits_le_iff (by decide) (by decide), zero]
    exact Nat.le_refl 1
  have each : ∀ n : Fin 16, Nat.digitChar n = '0' → n.val = 0 := by decide
  rw [Nat.toDigits_of_lt_base short] at zero
  injection zero with head
  exact each ⟨n, short⟩ head

/-- Digits without their leading zeros are the digits of the number. -/
theorem dropZeros_digits {ds : List Nat} (some : ds ≠ []) (small : ∀ d ∈ ds, d < 16) :
    dropZeros (ds.map Nat.digitChar) = Nat.toDigits 16 (ds.foldl (fun n d => 16 * n + d) 0) := by
  induction ds using List.reverseRecOn with
  | nil => exact absurd rfl some
  | append_singleton ds d ih =>
      have last : d < 16 := small d (List.mem_append_right ds (List.mem_singleton.mpr rfl))
      rw [List.map_append, List.map_singleton, List.foldl_append, List.foldl_cons, List.foldl_nil]
      by_cases first : ds = []
      · subst first
        rw [List.foldl_nil, Nat.mul_zero, Nat.zero_add, Nat.toDigits_of_lt_base last]
        exact dropZeros_single _
      · have ih := ih first fun e mem => small e (List.mem_append_left [d] mem)
        rw [dropZeros_concat _ _ (mt List.map_eq_nil_iff.mp first), ih]
        split
        · next zero =>
            rw [toDigits_eq_zero zero, Nat.mul_zero, Nat.zero_add, Nat.toDigits_of_lt_base last]
        · next pos =>
            rw [← Nat.toDigits_append_toDigits (by decide) (Nat.pos_of_ne_zero ?_) last,
              Nat.toDigits_of_lt_base last]
            intro zero
            rw [zero] at pos
            exact pos rfl

end

/-! ## The serial -/

/-- The two digits of each octet. -/
def nibbles (octets : Bytes) : List Nat := octets.flatMap fun b => [b / 16 % 16, b % 16]

theorem hexOf_eq_nibbles (octets : Bytes) : hexOf octets = (nibbles octets).map Nat.digitChar := by
  rw [hexOf, nibbles, List.map_flatMap]
  rfl

theorem nibbles_value {octets : Bytes} (small : ∀ b ∈ octets, b < 256) (n : Nat) :
    (nibbles octets).foldl (fun n d => 16 * n + d) n =
      octets.foldl (fun n b => 256 * n + b) n := by
  induction octets generalizing n with
  | nil => rfl
  | cons b octets ih =>
      have octet := small b List.mem_cons_self
      rw [List.foldl_cons, ← ih fun e mem => small e (List.mem_cons_of_mem b mem)]
      have joined : 16 * (16 * n + b / 16 % 16) + b % 16 = 256 * n + b := by omega
      rw [← joined]
      rfl

theorem nibbles_lt (octets : Bytes) : ∀ d ∈ nibbles octets, d < 16 := by
  intro d mem
  obtain ⟨b, -, digit⟩ := List.mem_flatMap.mp mem
  simp only [List.mem_cons, List.not_mem_nil, or_false] at digit
  omega

/-- Octets in front that are zero do not count. -/
theorem unsignedValue_pad (k : Nat) (octets : Bytes) :
    unsignedValue (List.replicate k 0 ++ octets) = unsignedValue octets := by
  induction k with
  | zero => rfl
  | succ k ih => exact ih

theorem unsignedValue_lt {octets : Bytes} (small : ∀ b ∈ octets, b < 256) :
    unsignedValue octets < 256 ^ octets.length := by
  induction octets using List.reverseRecOn with
  | nil => exact Nat.one_pos
  | append_singleton octets b ih =>
      have front := ih fun e mem => small e (List.mem_append_left [b] mem)
      have last := small b (List.mem_append_right octets (List.mem_singleton.mpr rfl))
      rw [unsignedValue, List.foldl_append, List.length_append, List.length_singleton, Nat.pow_succ]
      change 256 * unsignedValue octets + b < _
      omega

theorem isIdHex_digitChar {d : Nat} (small : d < 16) : isIdHex (Nat.digitChar d) = true := by
  have each : ∀ d : Fin 16, isIdHex (Nat.digitChar d) = true := by decide
  exact each ⟨d, small⟩

theorem all_isIdHex_hexOf (octets : Bytes) : (hexOf octets).all isIdHex = true := by
  rw [hexOf_eq_nibbles, List.all_eq_true]
  intro c mem
  obtain ⟨d, digit, rfl⟩ := List.mem_map.mp mem
  exact isIdHex_digitChar (nibbles_lt octets d digit)

theorem all_isIdHex_dropZeros {s : Str} (hex : s.all isIdHex = true) :
    (dropZeros s).all isIdHex = true := by
  rw [List.all_eq_true] at hex ⊢
  exact fun c mem => hex c (mem_dropZeros mem)

theorem nibbles_ne_nil {octets : Bytes} (some : octets ≠ []) : nibbles octets ≠ [] := by
  cases octets with
  | nil => exact absurd rfl some
  | cons b octets => exact List.cons_ne_nil _ _

/-- What is taken is hex, some of it, and fits without its zeros. -/
theorem enrollSerialCanonical_eq (raw : Str) (cap : Nat) :
    enrollSerialCanonical raw cap =
      if raw.all isIdHex = true ∧ raw ≠ [] ∧ (dropZeros raw).length < cap then some (dropZeros raw)
      else none := by
  rw [enrollSerialCanonical, enrollHexLen]
  by_cases hex : raw.all isIdHex = true
  · rw [if_pos hex]
    cases raw with
    | nil => rfl
    | cons c raw =>
        dsimp only [List.length_cons]
        by_cases fits : (dropZeros (c :: raw)).length < cap
        · rw [if_neg (Nat.not_le.mpr fits), if_pos ⟨hex, List.cons_ne_nil c raw, fits⟩]
          rfl
        · rw [if_pos (Nat.not_lt.mp fits), if_neg fun all => fits all.2.2]
          rfl
  · rw [if_neg hex]
    exact (if_neg fun all => hex all.1).symm

theorem enrollSerialValid_iff {serial : Str} :
    enrollSerialValid serial = true ↔ serial.all isIdHex = true ∧ serial ≠ [] ∧
      serial.length < ENROLL_SERIAL_HEX_CAP ∧ (serial.head? = some '0' → serial.length ≤ 1) := by
  rw [enrollSerialValid, enrollHexLen]
  by_cases hex : serial.all isIdHex = true
  · rw [if_pos hex]
    dsimp only
    by_cases sized : serial.length = 0 ∨ ENROLL_SERIAL_HEX_CAP ≤ serial.length
    · rw [if_pos sized]
      constructor
      · intro no
        cases no
      · rintro ⟨-, some, fits, -⟩
        rcases sized with none | past
        · exact absurd (List.eq_nil_of_length_eq_zero none) some
        · exact absurd fits (Nat.not_lt.mpr past)
    · rw [if_neg sized]
      obtain ⟨some, fits⟩ := not_or.mp sized
      simp only [Bool.not_eq_true', Bool.and_eq_false_iff, decide_eq_false_iff_not, Nat.not_lt, hex,
        true_and, Nat.not_le.mp fits]
      constructor
      · intro shape
        exact ⟨fun none => some (congrArg List.length none), fun zero =>
          shape.resolve_left (not_not.mpr zero)⟩
      · rintro ⟨-, shape⟩
        exact or_iff_not_imp_left.mpr fun zero => shape (not_not.mp zero)
  · rw [if_neg hex]
    constructor
    · intro no
      cases no
    · intro all
      exact absurd all.1 hex

theorem enrollSerialCanonical_hexOf (s : DerSerial) (k : Nat) :
    enrollSerialCanonical (hexOf (List.replicate k 0 ++ s.octets)) ENROLL_SERIAL_HEX_CAP =
      some (Nat.toDigits 16 (unsignedValue s.octets)) := by
  have small : ∀ b ∈ List.replicate k 0 ++ s.octets, b < 256 := by
    intro b mem
    rcases List.mem_append.mp mem with pad | octet
    · rw [List.eq_of_mem_replicate pad]
      decide
    · exact s.octet_lt b octet
  have filled : nibbles (List.replicate k 0 ++ s.octets) ≠ [] :=
    nibbles_ne_nil (List.append_ne_nil_of_right_ne_nil _ (List.ne_nil_of_length_pos s.pos))
  have dropped : dropZeros (hexOf (List.replicate k 0 ++ s.octets)) =
      Nat.toDigits 16 (unsignedValue s.octets) := by
    rw [hexOf_eq_nibbles, dropZeros_digits filled (nibbles_lt _), nibbles_value small]
    exact congrArg (Nat.toDigits 16) (unsignedValue_pad k s.octets)
  have short : (Nat.toDigits 16 (unsignedValue s.octets)).length ≤ 40 := by
    rw [Nat.length_toDigits_le_iff (by decide) (by decide)]
    apply Nat.lt_of_lt_of_le (unsignedValue_lt s.octet_lt)
    rw [show 16 ^ 40 = 256 ^ 20 by decide]
    exact Nat.pow_le_pow_right (by decide) s.length_le
  have text : hexOf (List.replicate k 0 ++ s.octets) ≠ [] := by
    rw [hexOf_eq_nibbles]
    exact mt List.map_eq_nil_iff.mp filled
  rw [enrollSerialCanonical_eq, dropped]
  exact if_pos ⟨all_isIdHex_hexOf _, text, Nat.lt_succ_of_le short⟩

/-- A result is its own canonical form. -/
theorem enrollSerialCanonical_idempotent (raw : Str) (cap : Nat) :
    ((enrollSerialCanonical raw cap).bind fun serial => enrollSerialCanonical serial cap) =
      enrollSerialCanonical raw cap := by
  rw [enrollSerialCanonical_eq raw]
  split
  · next taken =>
      obtain ⟨hex, some, fits⟩ := taken
      rw [Option.bind_some, enrollSerialCanonical_eq, dropZeros_dropZeros, if_pos]
      exact ⟨all_isIdHex_dropZeros hex, dropZeros_ne_nil some, fits⟩
  · rfl

theorem enrollSerialCanonical_valid (raw : Str) :
    (enrollSerialCanonical raw ENROLL_SERIAL_HEX_CAP).all enrollSerialValid = true := by
  rw [enrollSerialCanonical_eq]
  split
  · next taken =>
      obtain ⟨hex, some, fits⟩ := taken
      rw [Option.all_some, enrollSerialValid_iff]
      refine ⟨all_isIdHex_dropZeros hex, dropZeros_ne_nil some, fits, fun zero => ?_⟩
      rw [dropZeros_head zero]
      exact Nat.le_refl 1
  · rfl

/-- A serial of a certificate is printed whole. -/
theorem certSerialHex_whole {maxLen : Nat} {serial : Bytes}
    (fits : 2 * serial.length + 1 < maxLen) : certSerialHex maxLen serial = hexOf serial := by
  induction serial using List.reverseRecOn with
  | nil => rfl
  | append_singleton serial b ih =>
      rw [List.length_append, List.length_singleton] at fits
      have length : (hexOf serial).length = 2 * serial.length := by
        rw [hexOf_eq_nibbles, List.length_map, nibbles, List.length_flatMap]
        simp [Nat.mul_comm]
      have ih := ih (by omega)
      rw [certSerialHex] at ih
      rw [certSerialHex, List.foldl_append, ih, List.foldl_cons, List.foldl_nil, if_pos (by omega),
        hexOf, hexOf, List.flatMap_append]
      rfl

/-! ## The message -/

/-- What a message that was built consists of. -/
theorem enrollStatusMessage_some {cap : Nat} {deviceId serial out : Str} {ts : Int}
    (built : enrollStatusMessage cap deviceId serial ts = some out) :
    identityDeviceIdValid deviceId = true ∧ enrollSerialValid serial = true ∧
      ENROLL_STATUS_MIN_EPOCH ≤ ts ∧ out = ENROLL_STATUS_DOMAIN ++ '\n' :: deviceId ++
        '\n' :: serial ++ '\n' :: Nat.toDigits 10 ts.toNat := by
  rw [enrollStatusMessage] at built
  split at built
  · cases built
  · next valid =>
      obtain ⟨id, hex⟩ := not_or.mp valid
      split at built
      · cases built
      · next real =>
          dsimp only at built
          split at built
          · cases built
          · injection built with same
            exact ⟨by simpa using id, by simpa using hex, Int.not_lt.mp real, same.symm⟩

theorem takeWhile_before_newline {a r : Str} (plain : '\n' ∉ a) :
    (a ++ '\n' :: r).takeWhile (· ≠ '\n') = a := by
  rw [List.takeWhile_append_of_pos]
  · simp
  · intro c mem
    exact decide_eq_true (ne_of_mem_of_not_mem mem plain)

theorem eq_of_before_newline {a b r t : Str} (plain : '\n' ∉ a) (plain' : '\n' ∉ b)
    (same : a ++ '\n' :: r = b ++ '\n' :: t) : a = b ∧ r = t := by
  have front := congrArg (List.takeWhile (· ≠ '\n')) same
  rw [takeWhile_before_newline plain, takeWhile_before_newline plain'] at front
  subst front
  have rest := List.append_cancel_left same
  injection rest with _ tail
  exact ⟨rfl, tail⟩

theorem plain_of_hex {s : Str} (hex : s.all isIdHex = true) : '\n' ∉ s := by
  intro mem
  have digit := List.all_eq_true.mp hex _ mem
  revert digit
  decide

theorem plain_of_deviceId {id : Str} (valid : identityDeviceIdValid id = true) : '\n' ∉ id := by
  rw [identityDeviceIdValid] at valid
  split at valid
  · cases valid
  · next scheme =>
      have scheme : IDENTITY_ID_PREFIX <+: id := by simpa using scheme
      obtain ⟨rest, rfl⟩ := scheme
      rw [List.drop_left, Bool.and_eq_true] at valid
      intro mem
      rcases List.mem_append.mp mem with front | digits
      · revert front
        decide
      · exact plain_of_hex valid.1 digits

theorem enrollStatusMessage_injective {cap cap' : Nat} {id id' serial serial' out : Str}
    {ts ts' : Int} (built : enrollStatusMessage cap id serial ts = some out)
    (built' : enrollStatusMessage cap' id' serial' ts' = some out) :
    id = id' ∧ serial = serial' ∧ ts = ts' := by
  obtain ⟨valid, hex, real, text⟩ := enrollStatusMessage_some built
  obtain ⟨valid', hex', real', text'⟩ := enrollStatusMessage_some built'
  rw [text, List.append_assoc, List.append_assoc, List.append_assoc, List.append_assoc] at text'
  have body := List.append_cancel_left text'
  injection body with _ body
  obtain ⟨ids, rest⟩ :=
    eq_of_before_newline (plain_of_deviceId valid) (plain_of_deviceId valid') body
  obtain ⟨serials, times⟩ := eq_of_before_newline (plain_of_hex (enrollSerialValid_iff.mp hex).1)
    (plain_of_hex (enrollSerialValid_iff.mp hex').1) rest
  have numbers := congrArg decimal times
  rw [JsonText.decimal_toDigits, JsonText.decimal_toDigits] at numbers
  rw [ENROLL_STATUS_MIN_EPOCH] at real real'
  exact ⟨ids, serials, by omega⟩

/-- The canonical serial is the integer in hex, and a message tells what it was built from. -/
theorem serial_canonical_and_message_injective :
    (∀ s : DerSerial, ∀ k : Nat,
      enrollSerialCanonical (hexOf (List.replicate k 0 ++ s.octets)) ENROLL_SERIAL_HEX_CAP =
        some (Nat.toDigits 16 (unsignedValue s.octets))) ∧
    (∀ raw : Str, ∀ cap : Nat,
      ((enrollSerialCanonical raw cap).bind fun serial => enrollSerialCanonical serial cap) =
        enrollSerialCanonical raw cap) ∧
    (∀ raw : Str,
      (enrollSerialCanonical raw ENROLL_SERIAL_HEX_CAP).all enrollSerialValid = true) ∧
    ∀ cap cap' : Nat, ∀ id id' serial serial' out : Str, ∀ ts ts' : Int,
      enrollStatusMessage cap id serial ts = some out →
        enrollStatusMessage cap' id' serial' ts' = some out →
          id = id' ∧ serial = serial' ∧ ts = ts' := by
  refine ⟨enrollSerialCanonical_hexOf, enrollSerialCanonical_idempotent,
    enrollSerialCanonical_valid, ?_⟩
  intro cap cap' id id' serial serial' out ts ts' built built'
  exact enrollStatusMessage_injective built built'

def statusSerial : DerSerial where
  octets := [0, 195, 161]
  octet_lt := by decide
  pos := by decide
  length_le := by decide

def statusId : Str := "thesada-dcb4d91acd28".toList

theorem serial_canonical_sample :
    enrollSerialCanonical "00c3a1".toList ENROLL_SERIAL_HEX_CAP = some "c3a1".toList ∧
      (enrollStatusMessage 128 statusId "c3a1".toList 1790611200).isSome = true ∧
      ∀ id : Str, enrollStatusMessage 128 id "c3a1".toList 1790611200 =
        enrollStatusMessage 128 statusId "c3a1".toList 1790611200 → id = statusId := by
  obtain ⟨canonical, -, -, injective⟩ := serial_canonical_and_message_injective
  have built : (enrollStatusMessage 128 statusId "c3a1".toList 1790611200).isSome = true := by
    decide
  refine ⟨canonical statusSerial 0, built, fun id same => ?_⟩
  obtain ⟨out, text⟩ := Option.isSome_iff_exists.mp built
  exact (injective _ _ _ _ _ _ out _ _ (same.trans text) text).1

end Thesada.Enroll
