import Mathlib.Algebra.Order.Ring.Rat
import Mathlib.Data.Rat.Floor
import Thesada.Config.Store
import Thesada.Library.Base64

/-!
# The key of a mesh channel

`lora.meshtastic.psk` is Base64 text that `pskExpand` makes a key of. `b64Decode` drops the bits
that are left over and does not look at how much padding there is. Frequencies are exact here.
-/

namespace Thesada.Lora

open CString Thesada.Config

def SYNC : Nat := 0x2b
def PREAMBLE : Nat := 16

def DEFAULT_KEY : List UInt8 :=
  [0xd4, 0xf1, 0xbb, 0x3a, 0x20, 0x29, 0x07, 0x59, 0xf0, 0xbc, 0xff, 0xab, 0xcf, 0x4e, 0x69, 0x01]

/-! ## Presets and regions -/

structure Preset where
  name : Str
  bwKhz : ℚ
  sf : Nat
  cr : Nat

def PRESETS : List Preset :=
  [⟨"ShortTurbo".toList, 500, 7, 5⟩, ⟨"ShortFast".toList, 250, 7, 5⟩,
    ⟨"ShortSlow".toList, 250, 8, 5⟩, ⟨"MediumFast".toList, 250, 9, 5⟩,
    ⟨"MediumSlow".toList, 250, 10, 5⟩, ⟨"LongTurbo".toList, 500, 11, 8⟩,
    ⟨"LongFast".toList, 250, 11, 5⟩, ⟨"LongMod".toList, 125, 11, 8⟩]

structure Region where
  name : Str
  freqStart : ℚ
  freqEnd : ℚ
  spacing : ℚ

def REGIONS : List Region :=
  [⟨"US".toList, 902, 928, 0⟩, ⟨"EU_868".toList, 869.4, 869.65, 0⟩, ⟨"ANZ".toList, 915, 928, 0⟩]

def presetFind (name : Str) : Option Preset := PRESETS.find? fun p => p.name == name

def regionFind (name : Str) : Option Region := REGIONS.find? fun r => r.name == name

def djb2 (s : Str) : UInt32 := s.foldl (fun h c => h * 33 + UInt32.ofNat (c.toNat % 256)) 5381

def slotStep (r : Region) (bwKhz : ℚ) : ℚ := r.spacing + bwKhz / 1000

def numChannels (r : Region) (bwKhz : ℚ) : Nat :=
  if slotStep r bwKhz ≤ 0 then 0
  else ((r.freqEnd - r.freqStart) / slotStep r bwKhz).floor.toNat % 65536

/-- The frequency and the slot. -/
def slotFreqMhz (r : Region) (bwKhz : ℚ) (channelName : Str) : ℚ × Nat :=
  if numChannels r bwKhz = 0 then (0, 0)
  else
    let slot := (djb2 channelName).toNat % numChannels r bwKhz
    (r.freqStart + bwKhz / 2000 + slot * slotStep r bwKhz, slot)

/-! ## The key -/

/-- The value of a letter. -/
def b64Value (c : Char) : Option Nat :=
  if 'A' ≤ c ∧ c ≤ 'Z' then some (c.toNat - 'A'.toNat)
  else if 'a' ≤ c ∧ c ≤ 'z' then some (c.toNat - 'a'.toNat + 26)
  else if '0' ≤ c ∧ c ≤ '9' then some (c.toNat - '0'.toNat + 52)
  else if c = '+' then some 62
  else if c = '/' then some 63
  else none

/-- The loop of `b64Decode`, with the accumulator, the number of its bits that are still to come,
and the bytes so far. -/
def b64Loop (cap : Nat) : (acc bits : Nat) → List UInt8 → (done : Bool) → Str → Option (List UInt8)
  | _, _, out, _, [] => some out
  | acc, bits, out, done, c :: rest =>
      match b64Value c with
      | none => if c = '=' then b64Loop cap acc bits out true rest else none
      | some v =>
          if done then none
          else
            let acc := (acc <<< 6 ||| v) % 2 ^ 32
            if 8 ≤ bits + 6 then
              if cap ≤ out.length then none
              else
                b64Loop cap acc (bits + 6 - 8) (out ++ [UInt8.ofNat (acc >>> (bits + 6 - 8))]) done
                  rest
            else b64Loop cap acc (bits + 6) out done rest

def b64Decode (s : Str) (cap : Nat) : Option (List UInt8) := b64Loop cap 0 0 [] false s

/-- The key, empty for none. -/
def pskExpand (psk : List UInt8) : Option (List UInt8) :=
  match psk with
  | [] => some DEFAULT_KEY
  | [index] =>
      if index = 0 then some []
      else some (DEFAULT_KEY.dropLast ++ [DEFAULT_KEY.getLastD 0 + (index - 1)])
  | _ => if psk.length = 16 ∨ psk.length = 32 then some psk else none

def xorFold (p : List UInt8) : UInt8 := p.foldl (· ^^^ ·) 0

def channelHash (name : Str) (psk : List UInt8) : UInt8 :=
  xorFold (name.map fun c => UInt8.ofNat c.toNat) ^^^ xorFold psk

/-- What a Meshtastic channel is set up with. -/
structure MeshChannel where
  key : List UInt8
  hash : UInt8
  freq : ℚ
  bw : ℚ
  sf : Nat
  cr : Nat
  syncWord : Nat
  preamble : Nat
  chanName : Str
  slot : Nat

/-- `mv[key] | text`. -/
def meshText (cfg : Json) (key text : String) : Str :=
  ((((cfg.member "lora".toList).member "meshtastic".toList).member key.toList).asStr).getD
    text.toList

/-- The channel's name, which is the preset's where none is set. -/
def meshChannelName (cfg : Json) (p : Preset) : Str :=
  if meshText cfg "channel" "" = [] then p.name else meshText cfg "channel" ""

/-- The bytes that `psk` is decoded to in its buffer of 32. -/
def meshPsk (cfg : Json) : Option (List UInt8) :=
  if meshText cfg "psk" "" = [] then some [] else b64Decode (meshText cfg "psk" "") 32

def meshConfig (cfg : Json) : Option MeshChannel :=
  match presetFind (meshText cfg "preset" "LongFast"), regionFind (meshText cfg "region" "US") with
  | some p, some r =>
      let channel := meshChannelName cfg p
      match (meshPsk cfg).bind pskExpand with
      | none => none
      | some key =>
          let (f, slot) := slotFreqMhz r p.bwKhz channel
          if f ≤ 0 then none
          else
            some
              { key, hash := channelHash channel key, freq := f, bw := p.bwKhz, sf := p.sf,
                cr := p.cr, syncWord := SYNC, preamble := PREAMBLE,
                chanName := channel.take 32, slot }
  | _, _ => none

/-! ## Letters -/

theorem b64Value_letter {v : Nat} (small : v < 64) : b64Value (Base64.letter v) = some v := by
  have each : ∀ v : Fin 64, b64Value (Base64.letter v) = some v.val := by decide +kernel
  exact each ⟨v, small⟩

theorem letter_of_b64Value {c : Char} {v : Nat} (value : b64Value c = some v) :
    v < 64 ∧ Base64.letter v = c := by
  have each : ∀ n : Fin 128, (b64Value (Char.ofNat n)).all fun v =>
      v < 64 && Base64.letter v == Char.ofNat n := by decide +kernel
  have ascii : c.toNat < 128 := by
    by_contra high
    have above (d : Char) (low : d.toNat < 128) : ¬c ≤ d := by
      intro below
      have le : c.toNat ≤ d.toNat := below
      omega
    have other (d : Char) (low : d.toNat < 128) : c ≠ d := by
      rintro rfl
      exact high low
    simp [b64Value, above 'Z' (by decide), above 'z' (by decide), above '9' (by decide),
      other '+' (by decide), other '/' (by decide)] at value
  have found := each ⟨c.toNat, ascii⟩
  rw [Char.ofNat_toNat, value] at found
  simpa using found

section

variable {cap acc bits : Nat} {out : List UInt8} {done : Bool} {rest : Str} {vs : List Nat}
variable {v p q r t n m : Nat}

theorem shift_or (small : v < 64) : acc <<< 6 ||| v = acc * 64 + v := by
  rw [← Nat.shiftLeft_add_eq_or_of_lt small acc, Nat.shiftLeft_eq]

theorem byte_eq (same : n % 256 = m % 256) : UInt8.ofNat n = UInt8.ofNat m := by
  apply UInt8.toNat_inj.mp
  rw [UInt8.toNat_ofNat', UInt8.toNat_ofNat']
  exact same

/-- The first letter of four adds its bits. -/
theorem b64Loop_first (small : v < 64) :
    ∃ acc', acc' % 64 = v ∧ b64Loop cap acc 0 out false (Base64.letter v :: rest) =
      b64Loop cap acc' 6 out false rest := by
  refine ⟨(acc <<< 6 ||| v) % 2 ^ 32, ?_, ?_⟩
  · rw [shift_or small]
    omega
  · rw [b64Loop, b64Value_letter small]
    rfl

/-- The others complete a byte with their first bits, and keep `k` for the next one. -/
theorem b64Loop_next {k u : Nat} (left : bits = 6 ∧ k = 4 ∨ bits = 4 ∧ k = 2 ∨ bits = 2 ∧ k = 0)
    (low : acc % 2 ^ bits = u) (small : v < 64) :
    ∃ acc', acc' % 2 ^ k = v % 2 ^ k ∧ b64Loop cap acc bits out false (Base64.letter v :: rest) =
      if out.length + 1 ≤ cap then
        b64Loop cap acc' k (out ++ [UInt8.ofNat (u * 2 ^ (6 - k) + v / 2 ^ k)]) false rest
      else none := by
  have byte : UInt8.ofNat (((acc <<< 6 ||| v) % 2 ^ 32) >>> k) =
      UInt8.ofNat (u * 2 ^ (6 - k) + v / 2 ^ k) := by
    apply byte_eq
    rw [shift_or small, Nat.shiftRight_eq_div_pow]
    obtain ⟨rfl, rfl⟩ | ⟨rfl, rfl⟩ | ⟨rfl, rfl⟩ := left
    · omega
    · omega
    · omega
  refine ⟨(acc <<< 6 ||| v) % 2 ^ 32, ?_, ?_⟩
  · rw [shift_or small]
    obtain ⟨rfl, rfl⟩ | ⟨rfl, rfl⟩ | ⟨rfl, rfl⟩ := left
    · omega
    · omega
    · omega
  · have enough : 8 ≤ bits + 6 := by omega
    have kept : bits + 6 - 8 = k := by omega
    rw [b64Loop, b64Value_letter small]
    simp only [Bool.false_eq_true, if_false, if_pos enough, kept, byte]
    by_cases room : out.length + 1 ≤ cap
    · rw [if_pos room, if_neg (Nat.not_le.mpr room)]
    · rw [if_neg room, if_pos (Nat.not_lt.mp room)]

theorem b64Loop_two (hp : p < 64) (hq : q < 64) :
    ∃ acc', acc' % 16 = q % 16 ∧
      b64Loop cap acc 0 out false (Base64.letter p :: Base64.letter q :: rest) =
        if out.length + 1 ≤ cap then
          b64Loop cap acc' 4 (out ++ Base64.wholeBytes [p, q]) false rest
        else none := by
  obtain ⟨a, low, first⟩ := @b64Loop_first cap acc out (Base64.letter q :: rest) p hp
  obtain ⟨b, low', second⟩ := @b64Loop_next cap a 6 out rest q 4 p (by simp) low hq
  exact ⟨b, low', first.trans second⟩

theorem b64Loop_three (hp : p < 64) (hq : q < 64) (hr : r < 64) :
    ∃ acc', acc' % 4 = r % 4 ∧
      b64Loop cap acc 0 out false
          (Base64.letter p :: Base64.letter q :: Base64.letter r :: rest) =
        if out.length + 2 ≤ cap then
          b64Loop cap acc' 2 (out ++ Base64.wholeBytes [p, q, r]) false rest
        else none := by
  obtain ⟨a, low, first⟩ := @b64Loop_two cap acc out (Base64.letter r :: rest) p q hp hq
  obtain ⟨b, low', second⟩ := @b64Loop_next cap a 4 (out ++ Base64.wholeBytes [p, q]) rest r 2
    (q % 16) (by simp) low hr
  refine ⟨b, low', ?_⟩
  rw [first, second, List.append_assoc, List.length_append]
  by_cases room : out.length + 1 ≤ cap
  · rw [if_pos room]
    rfl
  · rw [if_neg room, if_neg fun more => room (Nat.le_of_succ_le more)]

theorem b64Loop_four (hp : p < 64) (hq : q < 64) (hr : r < 64) (ht : t < 64) :
    ∃ acc', b64Loop cap acc 0 out false
        (Base64.letter p :: Base64.letter q :: Base64.letter r :: Base64.letter t :: rest) =
      if out.length + 3 ≤ cap then
        b64Loop cap acc' 0 (out ++ Base64.wholeBytes [p, q, r, t]) false rest
      else none := by
  obtain ⟨a, low, first⟩ := @b64Loop_three cap acc out (Base64.letter t :: rest) p q r hp hq hr
  obtain ⟨b, -, second⟩ := @b64Loop_next cap a 2 (out ++ Base64.wholeBytes [p, q, r]) rest t 0
    (r % 4) (by simp) low ht
  refine ⟨b, ?_⟩
  rw [first, second, List.append_assoc, List.length_append]
  by_cases room : out.length + 2 ≤ cap
  · rw [if_pos room, Nat.pow_zero, Nat.div_one]
    rfl
  · rw [if_neg room, if_neg fun more => room (Nat.le_of_succ_le more)]

/-- The loop reads letters as the whole bytes in them, where there is room. -/
theorem b64Loop_letters (small : ∀ v ∈ vs, v < 64) (room : out.length ≤ cap) :
    ∃ acc' bits', b64Loop cap acc 0 out false (vs.map Base64.letter ++ rest) =
      if out.length + (Base64.wholeBytes vs).length ≤ cap then
        b64Loop cap acc' bits' (out ++ Base64.wholeBytes vs) false rest
      else none := by
  induction vs using Base64.wholeBytes.induct generalizing acc out with
  | case1 p q r t others ih =>
      simp only [List.forall_mem_cons] at small
      obtain ⟨hp, hq, hr, ht, small⟩ := small
      obtain ⟨a, group⟩ := @b64Loop_four cap acc out (others.map Base64.letter ++ rest) p q r t hp
        hq hr ht
      by_cases fits : out.length + 3 ≤ cap
      · have more : (out ++ Base64.wholeBytes [p, q, r, t]).length ≤ cap := by
          simp only [List.length_append, Base64.length_wholeBytes, List.length_cons,
            List.length_nil]
          omega
        obtain ⟨a', bits', rest'⟩ := @ih a _ small more
        refine ⟨a', bits', group.trans ?_⟩
        rw [if_pos fits, rest', List.append_assoc, List.length_append, Nat.add_assoc,
          ← List.length_append]
        rfl
      · refine ⟨a, 0, group.trans ?_⟩
        rw [if_neg fits, if_neg]
        simp only [Base64.wholeBytes, List.length_cons]
        omega
  | case2 p q r =>
      simp only [List.forall_mem_cons] at small
      obtain ⟨hp, hq, hr, -⟩ := small
      obtain ⟨a, -, group⟩ := @b64Loop_three cap acc out rest p q r hp hq hr
      exact ⟨a, 2, group⟩
  | case3 p q =>
      simp only [List.forall_mem_cons] at small
      obtain ⟨hp, hq, -⟩ := small
      obtain ⟨a, -, group⟩ := @b64Loop_two cap acc out rest p q hp hq
      exact ⟨a, 4, group⟩
  | case4 p =>
      simp only [List.forall_mem_cons] at small
      obtain ⟨a, -, first⟩ := @b64Loop_first cap acc out rest p small.1
      refine ⟨a, 6, first.trans ?_⟩
      rw [Base64.wholeBytes, List.append_nil, List.length_nil, Nat.add_zero, if_pos room]
  | case5 =>
      refine ⟨acc, 0, ?_⟩
      rw [Base64.wholeBytes, List.append_nil, List.length_nil, Nat.add_zero, if_pos room]
      rfl

/-- Behind the first `=` there is nothing else. -/
theorem b64Loop_done : b64Loop cap acc bits out true rest =
    if rest.all (· == '=') then some out else none := by
  induction rest with
  | nil => rfl
  | cons c rest ih =>
      rw [b64Loop]
      by_cases pad : c = '='
      · subst pad
        have value : b64Value '=' = none := by decide
        simp [value, ih]
      · cases value : b64Value c with
        | none => simp [pad]
        | some v => simp [pad]

/-- What is no letter ends the letters. -/
theorem b64Loop_pads (stop : ∀ c, rest.head? = some c → b64Value c = none) :
    b64Loop cap acc bits out false rest = if rest.all (· == '=') then some out else none := by
  cases rest with
  | nil => rfl
  | cons c rest =>
      rw [b64Loop, stop c rfl]
      dsimp only
      rw [b64Loop_done]
      by_cases pad : c = '='
      · simp [pad]
      · simp [pad]

end

/-! ## What a text is decoded to -/

/-- The values of the letters at the start. -/
def b64Values (s : Str) : List Nat := (s.takeWhile fun c => (b64Value c).isSome).filterMap b64Value

/-- What stands behind the letters. -/
def b64Pads (s : Str) : Str := s.dropWhile fun c => (b64Value c).isSome

/-- The bits of the letters come out even, and the padding is the one that belongs to them. -/
def Standard (s : Str) : Prop :=
  Base64.Exact (b64Values s) ∧ b64Pads s = Base64.padding (b64Values s).length

instance (s : Str) : Decidable (Standard s) := inferInstanceAs (Decidable (_ ∧ _ = _))

section

variable {s : Str} {cap : Nat} {b : List UInt8}

theorem values_small (s : Str) : ∀ v ∈ b64Values s, v < 64 := by
  intro v mem
  obtain ⟨c, -, value⟩ := List.mem_filterMap.mp mem
  exact (letter_of_b64Value value).1

theorem values_letters (cs : Str) (letters : ∀ c ∈ cs, (b64Value c).isSome = true) :
    (cs.filterMap b64Value).map Base64.letter = cs := by
  induction cs with
  | nil => rfl
  | cons c cs ih =>
      obtain ⟨v, value⟩ := Option.isSome_iff_exists.mp (letters c List.mem_cons_self)
      rw [List.filterMap_cons, value, List.map_cons, (letter_of_b64Value value).2,
        ih fun d mem => letters d (List.mem_cons_of_mem c mem)]

theorem letters_pads (s : Str) : (b64Values s).map Base64.letter ++ b64Pads s = s := by
  have letters : ∀ c ∈ s.takeWhile fun c => (b64Value c).isSome, (b64Value c).isSome = true :=
    fun c mem => List.mem_takeWhile_imp (p := fun c => (b64Value c).isSome) mem
  rw [b64Values, values_letters _ letters, b64Pads]
  exact List.takeWhile_append_dropWhile

theorem b64Decode_eq (s : Str) (cap : Nat) :
    b64Decode s cap =
      if (b64Pads s).all (· == '=') = true ∧ (Base64.wholeBytes (b64Values s)).length ≤ cap then
        some (Base64.wholeBytes (b64Values s))
      else none := by
  have stop : ∀ c, (b64Pads s).head? = some c → b64Value c = none := by
    intro c first
    have other := List.head?_dropWhile_not (fun c => (b64Value c).isSome) s
    rw [← b64Pads, first] at other
    simpa using other
  obtain ⟨acc, bits, read⟩ := @b64Loop_letters cap 0 [] (b64Pads s) (b64Values s) (values_small s)
    (Nat.zero_le cap)
  rw [letters_pads, List.length_nil, Nat.zero_add, List.nil_append, b64Loop_pads stop] at read
  rw [b64Decode, read, ite_and]
  split
  · rfl
  · exact (ite_self none).symm

theorem b64Value_pad : b64Value '=' = none := by decide

theorem takeWhile_encode (vs : List Nat) (small : ∀ v ∈ vs, v < 64) (k : Nat) :
    ((vs.map Base64.letter ++ List.replicate k '=').takeWhile fun c => (b64Value c).isSome) =
        vs.map Base64.letter ∧
      ((vs.map Base64.letter ++ List.replicate k '=').dropWhile fun c => (b64Value c).isSome) =
        List.replicate k '=' := by
  have letters : ∀ c ∈ vs.map Base64.letter, (b64Value c).isSome = true := by
    intro c mem
    obtain ⟨v, inside, rfl⟩ := List.mem_map.mp mem
    rw [b64Value_letter (small v inside)]
    rfl
  rw [List.takeWhile_append_of_pos letters, List.dropWhile_append_of_pos letters]
  cases k with
  | zero => exact ⟨List.append_nil _, rfl⟩
  | succ k =>
      simp [List.replicate_succ, b64Value_pad]

theorem filterMap_letters (vs : List Nat) (small : ∀ v ∈ vs, v < 64) :
    (vs.map Base64.letter).filterMap b64Value = vs := by
  induction vs with
  | nil => rfl
  | cons v vs ih =>
      rw [List.map_cons, List.filterMap_cons, b64Value_letter (small v List.mem_cons_self),
        ih fun u mem => small u (List.mem_cons_of_mem v mem)]

theorem values_encode (b : List UInt8) : b64Values (Base64.encode b) = Base64.sextets b := by
  rw [b64Values, Base64.encode, Base64.padding,
    (takeWhile_encode _ (Base64.sextets_lt b) _).1, filterMap_letters _ (Base64.sextets_lt b)]

theorem pads_encode (b : List UInt8) :
    b64Pads (Base64.encode b) = Base64.padding (Base64.sextets b).length := by
  rw [b64Pads, Base64.encode, Base64.padding, (takeWhile_encode _ (Base64.sextets_lt b) _).2]

/-- Standard texts are the encodings. -/
theorem standard_iff : Standard s ↔ ∃ b, s = Base64.encode b := by
  constructor
  · rintro ⟨exact', pads⟩
    refine ⟨Base64.wholeBytes (b64Values s), ?_⟩
    rw [Base64.encode_wholeBytes (values_small s) exact', ← pads, letters_pads]
  · rintro ⟨b, rfl⟩
    rw [Standard, values_encode, pads_encode]
    exact ⟨Base64.exact_sextets b, rfl⟩

/-- An encoding is decoded to its bytes, where they fit. -/
theorem b64Decode_encode (b : List UInt8) (cap : Nat) :
    b64Decode (Base64.encode b) cap = if b.length ≤ cap then some b else none := by
  rw [b64Decode_eq, values_encode, pads_encode, Base64.wholeBytes_sextets]
  have pads : (Base64.padding (Base64.sextets b).length).all (· == '=') = true := by
    simp [Base64.padding]
  simp only [pads, true_and]

/-- Something other than `=` stands behind the letters, or the bytes do not fit. -/
def Refused (s : Str) (cap : Nat) : Prop :=
  ¬(b64Pads s).all (· == '=') = true ∨ cap < 6 * (b64Values s).length / 8

instance (s : Str) (cap : Nat) : Decidable (Refused s cap) :=
  inferInstanceAs (Decidable (¬_ ∨ _))

theorem b64Decode_some (taken : ¬Refused s cap) :
    b64Decode s cap = some (Base64.wholeBytes (b64Values s)) := by
  rw [Refused, not_or, not_not, Nat.not_lt, ← Base64.length_wholeBytes] at taken
  rw [b64Decode_eq, if_pos taken]

theorem b64Decode_refused (refused : Refused s cap) : b64Decode s cap = none := by
  rw [b64Decode_eq, if_neg]
  rintro ⟨pads, fits⟩
  rw [Base64.length_wholeBytes] at fits
  obtain other | long := refused
  · exact other pads
  · exact absurd fits (Nat.not_le.mpr long)

theorem decodes_standard_iff (s : Str) (cap : Nat) :
    (∀ b, b64Decode s cap = some b → s = Base64.encode b) ↔ Refused s cap ∨ Standard s := by
  constructor
  · intro only
    by_cases refused : Refused s cap
    · exact .inl refused
    · exact .inr (standard_iff.mpr ⟨_, only _ (b64Decode_some refused)⟩)
  · rintro (refused | standard) b decoded
    · rw [b64Decode_refused refused] at decoded
      cases decoded
    · obtain ⟨b', rfl⟩ := standard_iff.mp standard
      rw [b64Decode_encode] at decoded
      split at decoded
      · rw [Option.some.inj decoded]
      · cases decoded

end

/-! ## The key of a channel -/

/-- The sizes that `pskExpand` has a key for. -/
def KeySize (n : Nat) : Prop := n = 0 ∨ n = 1 ∨ n = 16 ∨ n = 32

instance (n : Nat) : Decidable (KeySize n) := inferInstanceAs (Decidable (_ ∨ _ ∨ _ ∨ _))

/-- The preset and the region are known, and the preset fits the region. -/
def meshFits (cfg : Json) : Bool :=
  match presetFind (meshText cfg "preset" "LongFast"), regionFind (meshText cfg "region" "US") with
  | some p, some r => 0 < (slotFreqMhz r p.bwKhz (meshChannelName cfg p)).1
  | _, _ => false

section

variable {cfg : Json} {ch : MeshChannel} {psk key : List UInt8}

theorem pskExpand_isSome_iff : (pskExpand psk).isSome = true ↔ KeySize psk.length := by
  unfold pskExpand
  split
  · simp [KeySize]
  · split
    · simp [KeySize]
    · simp [KeySize]
  · next none one =>
      have long : psk.length ≠ 0 ∧ psk.length ≠ 1 := by
        constructor
        · exact fun empty => none (List.length_eq_zero_iff.mp empty)
        · intro single
          obtain ⟨index, rfl⟩ := List.length_eq_one_iff.mp single
          exact one index rfl
      rw [KeySize, or_iff_right long.1, or_iff_right long.2]
      split
      · next size => simp [size]
      · next size => simp [size]

/-- The default key is the one of index 1, and of its own bytes. -/
theorem pskExpand_default (expands : pskExpand psk = some DEFAULT_KEY) :
    psk = [] ∨ psk = [1] ∨ psk = DEFAULT_KEY := by
  unfold pskExpand at expands
  split at expands
  · exact .inl rfl
  · next index =>
      right
      left
      split at expands
      · cases expands
      · have whole : DEFAULT_KEY = DEFAULT_KEY.dropLast ++ [1] := by decide
        have last : [1 + (index - 1)] = [1] :=
          List.append_cancel_left ((Option.some.inj expands).trans whole)
        have one : index = 1 := by
          have sum := (List.cons.inj last).1
          grind
        rw [one]
  · split at expands
    · exact .inr (.inr (Option.some.inj expands))
    · cases expands

theorem meshConfig_some (configured : meshConfig cfg = some ch) :
    meshFits cfg = true ∧ (meshPsk cfg).bind pskExpand = some ch.key := by
  unfold meshConfig at configured
  split at configured
  · next p r preset region =>
      split at configured
      · cases configured
      · next key expands =>
          dsimp only at configured
          split at configured
          · cases configured
          · next fits =>
              obtain rfl := Option.some.inj configured
              refine ⟨?_, expands⟩
              rw [meshFits, preset, region]
              exact decide_eq_true (not_le.mp fits)
  · cases configured

theorem meshConfig_of_fits (fits : meshFits cfg = true)
    (expands : (meshPsk cfg).bind pskExpand = some key) :
    ∃ ch, meshConfig cfg = some ch ∧ ch.key = key := by
  unfold meshFits at fits
  split at fits
  · next p r preset region =>
      have above := not_le.mpr (of_decide_eq_true fits)
      rw [meshConfig, preset, region, expands]
      exact ⟨_, if_neg above, rfl⟩
  · cases fits

/-- A channel that is set up has the key of the bytes that `psk` encodes, and the default key only
for index 1. -/
def KeyOfPsk (cfg : Json) (ch : MeshChannel) : Prop :=
  (∃ b, meshText cfg "psk" "" = Base64.encode b ∧ pskExpand b = some ch.key) ∧
    (ch.key = DEFAULT_KEY → meshText cfg "psk" "" = Base64.encode [1])

/-- A channel that is set up has a psk that was decoded to bytes with a key. -/
theorem meshConfig_key (set : meshText cfg "psk" "" ≠ []) (configured : meshConfig cfg = some ch) :
    ¬Refused (meshText cfg "psk" "") 32 ∧
      pskExpand (Base64.wholeBytes (b64Values (meshText cfg "psk" ""))) = some ch.key := by
  have expands := (meshConfig_some configured).2
  rw [meshPsk, if_neg set] at expands
  by_cases refused : Refused (meshText cfg "psk" "") 32
  · rw [b64Decode_refused refused] at expands
    cases expands
  · rw [b64Decode_some refused] at expands
    exact ⟨refused, expands⟩

/-- A standard text other than the default key's has its own key. -/
theorem keyOfPsk_of_standard (set : meshText cfg "psk" "" ≠ [])
    (configured : meshConfig cfg = some ch) (standard : Standard (meshText cfg "psk" ""))
    (other : meshText cfg "psk" "" ≠ Base64.encode DEFAULT_KEY) : KeyOfPsk cfg ch := by
  obtain ⟨-, expands⟩ := meshConfig_key set configured
  obtain ⟨b, same⟩ := standard_iff.mp standard
  rw [same, values_encode, Base64.wholeBytes_sextets] at expands
  refine ⟨⟨b, same, expands⟩, fun isDefault => ?_⟩
  rw [isDefault] at expands
  obtain rfl | rfl | rfl := pskExpand_default expands
  · exact absurd same set
  · exact same
  · exact absurd same other

/-- What is set up with the right key in every case is standard, and not the default key. -/
theorem standard_of_keyOfPsk (set : meshText cfg "psk" "" ≠ []) (fits : meshFits cfg = true)
    (taken : ¬Refused (meshText cfg "psk" "") 32)
    (size : KeySize (6 * (b64Values (meshText cfg "psk" "")).length / 8))
    (keyed : ∀ ch, meshConfig cfg = some ch → KeyOfPsk cfg ch) :
    Standard (meshText cfg "psk" "") ∧ meshText cfg "psk" "" ≠ Base64.encode DEFAULT_KEY := by
  rw [← Base64.length_wholeBytes] at size
  obtain ⟨key, expands⟩ := Option.isSome_iff_exists.mp (pskExpand_isSome_iff.mpr size)
  have bound : (meshPsk cfg).bind pskExpand = some key := by
    rw [meshPsk, if_neg set, b64Decode_some taken]
    exact expands
  obtain ⟨ch, configured, rfl⟩ := meshConfig_of_fits fits bound
  obtain ⟨⟨b, same, -⟩, isDefault⟩ := keyed ch configured
  refine ⟨standard_iff.mpr ⟨b, same⟩, fun own => ?_⟩
  rw [own, values_encode, Base64.wholeBytes_sextets] at expands
  have key : DEFAULT_KEY = ch.key := Option.some.inj expands
  exact absurd (own.symm.trans (isDefault key.symm)) (by decide)

end

/-- Encodings are decoded to their bytes. A text that is decoded is an encoding when its bits come
out even and its padding is complete, and only then; and a channel that is set up has the key of
its psk just when the psk is such a text and does not spell out the default key. -/
theorem mesh_key_iff (cfg : Json) (set : meshText cfg "psk" "" ≠ []) (bytes : List UInt8)
    (s : Str) (cap : Nat) :
    (b64Decode (Base64.encode bytes) cap = if bytes.length ≤ cap then some bytes else none) ∧
      ((∀ b, b64Decode s cap = some b → s = Base64.encode b) ↔ Refused s cap ∨ Standard s) ∧
      ((∀ ch, meshConfig cfg = some ch → KeyOfPsk cfg ch) ↔
        (meshFits cfg = false ∨ Refused (meshText cfg "psk" "") 32 ∨
          ¬KeySize (6 * (b64Values (meshText cfg "psk" "")).length / 8)) ∨
        Standard (meshText cfg "psk" "") ∧
          meshText cfg "psk" "" ≠ Base64.encode DEFAULT_KEY) := by
  refine ⟨b64Decode_encode bytes cap, decodes_standard_iff s cap, ?_⟩
  constructor
  · intro keyed
    by_cases fails : meshFits cfg = false ∨ Refused (meshText cfg "psk" "") 32 ∨
        ¬KeySize (6 * (b64Values (meshText cfg "psk" "")).length / 8)
    · exact .inl fails
    · rw [not_or, not_or, not_not] at fails
      obtain ⟨fits, taken, size⟩ := fails
      exact .inr (standard_of_keyOfPsk set (Bool.not_eq_false _ ▸ fits) taken size keyed)
  · rintro (fails | ⟨standard, other⟩) ch configured
    · have fits := (meshConfig_some configured).1
      obtain ⟨taken, expands⟩ := meshConfig_key set configured
      have size := pskExpand_isSome_iff.mp (Option.isSome_of_eq_some expands)
      rw [Base64.length_wholeBytes] at size
      obtain unfit | refused | odd := fails
      · rw [unfit] at fits
        cases fits
      · exact absurd refused taken
      · exact absurd size odd
    · exact keyOfPsk_of_standard set configured standard other

/-- A config with this psk. -/
def pskConfig (psk : String) : Json :=
  .obj [("lora".toList, .obj [("meshtastic".toList, .obj [("psk".toList, .str psk.toList)])])]

theorem mesh_key_index_two :
    b64Decode (Base64.encode [2]) 32 = some [2] ∧
      ∀ ch, meshConfig (pskConfig "Ag==") = some ch → KeyOfPsk (pskConfig "Ag==") ch := by
  obtain ⟨decodes, -, keyed⟩ := mesh_key_iff (pskConfig "Ag==") (by decide) [2] [] 32
  exact ⟨decodes, keyed.mpr (.inr ⟨by decide, by decide⟩)⟩

/-- A single letter has no whole byte: it is no encoding, and selects the default key. -/
theorem mesh_key_one_letter :
    b64Decode "A".toList 32 = some [] ∧ Base64.encode [] ≠ "A".toList ∧
      (meshConfig (pskConfig "A")).map MeshChannel.key = some DEFAULT_KEY := by
  refine ⟨by decide, by decide, by decide +kernel⟩

end Thesada.Lora
