import Thesada.Config.CmdConfig

/-!
# What the scan reads

The scan accepts a text exactly when the grammar, with strings by the scan's own rule, reads it.
Each walker is a `Reads` of its relation: it ends without a fault, what it accepts stands in the
relation, and what stands in the relation it accepts.
-/

namespace Thesada.Config

open CString JsonGrammar

/-! ## Refusals and results -/

/-- A refusal, or a result with the property. -/
def Yields {α : Type} (r : Scanned α) (post : α → Prop) : Prop :=
  r = .error .refused ∨ ∃ a, r = .ok a ∧ post a

namespace Yields

variable {α β : Type} {post : α → Prop} {post' : β → Prop}

theorem refused : Yields (.error .refused) post := .inl rfl

theorem ok {a : α} (holds : post a) : Yields (.ok a) post := .inr ⟨a, rfl, holds⟩

theorem bind {r : Scanned α} {f : α → Scanned β} (first : Yields r post)
    (second : ∀ a, post a → Yields (f a) post') : Yields (r >>= f) post' := by
  obtain rfl | ⟨a, rfl, holds⟩ := first
  · exact refused
  · exact second a holds

theorem mono {weaker : α → Prop} {r : Scanned α} (weaken : ∀ a, post a → weaker a)
    (yields : Yields r post) : Yields r weaker := by
  obtain refused | ⟨a, done, holds⟩ := yields
  · exact .inl refused
  · exact .inr ⟨a, done, weaken a holds⟩

theorem of_ok {r : Scanned α} {a : α} (yields : Yields r post) (done : r = .ok a) : post a := by
  obtain refused | ⟨b, result, holds⟩ := yields
  · simp [refused] at done
  · rw [result] at done
    exact Except.ok.inj done ▸ holds

end Yields

@[simp] theorem ok_bind {α β : Type} (a : α) (f : α → Scanned β) :
    (Except.ok a >>= f : Scanned β) = f a := rfl

@[simp] theorem read_cons (c : UInt8) (s : Bytes) (d : Nat) :
    CmdConfigScan.read ⟨c :: s, d⟩ = .ok c := rfl

@[simp] theorem next_cons (c : UInt8) (s : Bytes) (d : Nat) :
    CmdConfigScan.next ⟨c :: s, d⟩ = .ok ⟨s, d⟩ := rfl

theorem skipped_of_cons {s r : Bytes} {c : UInt8} (left : skipWs s = c :: r) (d : Nat) :
    skipped ⟨s, d⟩ = .ok ⟨c :: r, d⟩ := by
  have dropped : s.dropWhile cmdConfigWs = c :: r := left
  simp [skipped, cmdConfigSkipWs, dropped]

theorem skipped_yields (p : CmdConfigScan) :
    Yields (skipped p) fun q => ∃ c s, q = ⟨c :: s, p.depth⟩ ∧ skipWs p.rest = c :: s := by
  cases left : skipWs p.rest with
  | nil =>
      have dropped : p.rest.dropWhile cmdConfigWs = [] := left
      exact .inl (by simp [skipped, cmdConfigSkipWs, dropped])
  | cons c s => exact .inr ⟨_, skipped_of_cons left p.depth, c, s, rfl, rfl⟩

theorem skippedTo_of_cons {s r : Bytes} {c : UInt8} (left : skipWs s = c :: r) (d : Nat) :
    skippedTo c ⟨s, d⟩ = .ok ⟨c :: r, d⟩ := by
  simp [skippedTo, skipped_of_cons left]

theorem skippedTo_yields (c : UInt8) (p : CmdConfigScan) :
    Yields (skippedTo c p) fun q => ∃ s, q = ⟨c :: s, p.depth⟩ ∧ skipWs p.rest = c :: s := by
  refine (skipped_yields p).bind ?_
  rintro _ ⟨b, s, rfl, left⟩
  simp only [read_cons, ok_bind]
  split
  · rename_i same
    subst same
    exact .ok ⟨s, rfl, left⟩
  · exact .refused

theorem skipWs_cons_length {s r : Bytes} {c : UInt8} (left : skipWs s = c :: r) :
    r.length < s.length := by
  have shorter := skipWs_length s
  rw [left, List.length_cons] at shorter
  omega

theorem numeric_of_isWs {c : UInt8} (blank : isWs c = true) : numeric c = false := by
  simp only [isWs, Bool.or_eq_true, decide_eq_true_eq] at blank
  obtain ((rfl | rfl) | rfl) | rfl := blank <;> rfl

/-- White space and what is not part of a number end one. -/
theorem ended_of_skipWs {s r : Bytes} {c : UInt8} (left : skipWs s = c :: r)
    (other : numeric c = false) : Ended s := by
  intro b first
  cases s with
  | nil => simp at first
  | cons b' s =>
      obtain rfl : b' = b := by simpa using first
      cases blank : isWs b' with
      | true => exact numeric_of_isWs blank
      | false =>
          rw [skipWs_of_not_ws blank] at left
          rwa [(List.cons.inj left).1]

theorem ended_of_skipWs_nil {s : Bytes} (left : skipWs s = []) : Ended s := by
  intro b first
  cases s with
  | nil => simp at first
  | cons b' s =>
      obtain rfl : b' = b := by simpa using first
      cases blank : isWs b' with
      | true => exact numeric_of_isWs blank
      | false =>
          rw [skipWs_of_not_ws blank] at left
          simp at left

/-! ## Strings -/

/-- The inside of a string by the scan's rule, and its length without escapes. -/
inductive ScanChars : Bytes → Nat → Prop where
  | nil : ScanChars [] 0
  | escaped {c s n} : ScanChars s n → ScanChars (BACKSLASH :: c :: s) (n + 1)
  | plain {c s n} : c ≠ BACKSLASH → c ≠ QUOTE → ¬ c < 0x20 → ScanChars s n →
      ScanChars (c :: s) (n + 1)

def ScanBody (body : Bytes) : Prop := ∃ n, ScanChars body n

theorem ScanChars.zero_iff {body : Bytes} {n : Nat} (chars : ScanChars body n) :
    n = 0 ↔ body = [] := by
  cases chars <;> simp

theorem ScanChars.append {w s : Bytes} {m n : Nat} (front : ScanChars w m)
    (back : ScanChars s n) : ScanChars (w ++ s) (m + n) := by
  induction front with
  | nil => simpa using back
  | escaped chars ih =>
      rw [Nat.add_right_comm]
      exact .escaped ih
  | plain slash quote low chars ih =>
      rw [Nat.add_right_comm]
      exact .plain slash quote low ih

theorem stringBody_cons (c : UInt8) (s : Bytes) (m : Nat) :
    stringBody (c :: s) m =
      if c = BACKSLASH then
        match s with
        | [] => none
        | _ :: s => stringBody s (m + 1)
      else if c = QUOTE then some (s, m)
      else if c < 0x20 then none
      else stringBody s (m + 1) :=
  stringBody.eq_def (c :: s) m

theorem stringBody_complete {body : Bytes} {n : Nat} (chars : ScanChars body n) (m : Nat)
    (rest : Bytes) : stringBody (body ++ QUOTE :: rest) m = some (rest, m + n) := by
  induction chars generalizing m with
  | nil =>
      rw [List.nil_append, stringBody_cons]
      rfl
  | @escaped c s n chars ih =>
      simp only [List.cons_append, stringBody_cons, if_true, ih]
      rw [Nat.add_assoc, Nat.add_comm 1]
  | @plain c s n slash quote low chars ih =>
      simp only [List.cons_append, stringBody_cons, slash, quote, low, if_false, ih]
      rw [Nat.add_assoc, Nat.add_comm 1]

theorem stringBody_sound {s rest : Bytes} {m k : Nat} (body : stringBody s m = some (rest, k)) :
    ∃ b n, s = b ++ QUOTE :: rest ∧ ScanChars b n ∧ k = m + n := by
  fun_induction stringBody s m with
  | case1 => simp at body
  | case2 => simp at body
  | case3 m c s ih =>
      obtain ⟨b, n, rfl, chars, rfl⟩ := ih body
      exact ⟨_, _, rfl, .escaped chars, by omega⟩
  | case4 =>
      obtain ⟨rfl, rfl⟩ := Prod.mk.inj (Option.some.inj body)
      exact ⟨[], 0, rfl, .nil, rfl⟩
  | case5 => simp at body
  | case6 m c s slash quote low ih =>
      obtain ⟨b, n, rfl, chars, rfl⟩ := ih body
      exact ⟨_, _, rfl, .plain slash quote low chars, by omega⟩

theorem scanBody_cuts : Cuts ScanBody := by
  rintro b b' r r' ⟨n, chars⟩ ⟨n', chars'⟩ same
  have first := stringBody_complete chars 0 r
  rw [same, stringBody_complete chars' 0 r'] at first
  obtain ⟨rfl, -⟩ := Prod.mk.inj (Option.some.inj first)
  exact ⟨List.append_cancel_right same, rfl⟩

theorem string_complete {body : Bytes} {n : Nat} (chars : ScanChars body n) (rest : Bytes)
    (d : Nat) : cmdConfigString ⟨QUOTE :: (body ++ QUOTE :: rest), d⟩ = .ok (n, ⟨rest, d⟩) := by
  simp [cmdConfigString, stringBody_complete chars]

theorem string_yields (s : Bytes) (d : Nat) :
    Yields (cmdConfigString ⟨QUOTE :: s, d⟩) fun r =>
      ∃ b rest, s = b ++ QUOTE :: rest ∧ ScanChars b r.1 ∧ r.2 = ⟨rest, d⟩ := by
  cases body : stringBody s 0 with
  | none => exact .inl (by simp [cmdConfigString, body])
  | some found =>
      obtain ⟨rest, k⟩ := found
      obtain ⟨b, n, cut, chars, rfl⟩ := stringBody_sound body
      rw [Nat.zero_add] at body
      exact .inr ⟨(n, ⟨rest, d⟩), by simp [cmdConfigString, body], b, rest, cut, chars, rfl⟩

/-- A string of the RFC is one by the scan's rule. -/
theorem ScanChars.high {c : UInt8} {s : Bytes} {n : Nat} (high : 0x80 ≤ c)
    (chars : ScanChars s n) : ScanChars (c :: s) (n + 1) := by
  refine .plain ?_ ?_ ?_ chars
  · rintro rfl
    exact absurd high (by decide)
  · rintro rfl
    exact absurd high (by decide)
  · intro low
    exact absurd (UInt8.lt_of_le_of_lt high low) (by decide)

theorem ScanChars.hex {c : UInt8} {i : Nat} (digit : hexDigit c = some i) {s : Bytes} {n : Nat}
    (chars : ScanChars s n) : ScanChars (c :: s) (n + 1) := by
  refine .plain ?_ ?_ ?_ chars
  · rintro rfl
    simp [hexDigit, BACKSLASH] at digit
  · rintro rfl
    simp [hexDigit, QUOTE] at digit
  · intro low
    have least : 0x30 ≤ c := by
      simp only [hexDigit] at digit
      split at digit
      · rename_i decimal
        exact decimal.1
      · split at digit
        · rename_i upper
          exact UInt8.le_trans (by decide) upper.1
        · split at digit
          · rename_i lower
            exact UInt8.le_trans (by decide) lower.1
          · simp at digit
    exact absurd (UInt8.lt_of_le_of_lt least low) (by decide)

theorem ScanChars.of_character {w : Bytes} {n : Nat} (character : Character w n) :
    ∃ m, ScanChars w m := by
  have tail {c : UInt8} (isTail : JsonGrammar.isTail c = true) : 0x80 ≤ c := by
    simp only [JsonGrammar.isTail, Bool.and_eq_true, decide_eq_true_eq] at isTail
    exact isTail.1
  have lead {a b : UInt8} (least : 0x80 ≤ b) (above : b ≤ a) : 0x80 ≤ a :=
    UInt8.le_trans least above
  cases character with
  | short known => exact ⟨1, .escaped .nil⟩
  | unicode a b c d => exact ⟨5, .escaped (.hex a (.hex b (.hex c (.hex d .nil))))⟩
  | unescaped utf8 printable quote slash =>
      cases utf8 with
      | one ascii =>
          refine ⟨1, .plain ?_ ?_ ?_ .nil⟩
          · rintro rfl
            exact slash rfl
          · rintro rfl
            exact quote rfl
          · exact fun low => absurd (UInt8.lt_iff_toNat_lt.mp low) (Nat.not_lt.mpr printable)
      | two least most b => exact ⟨2, .high (lead (by decide) least) (.high (tail b) .nil)⟩
      | three least most _ _ b c =>
          exact ⟨3, .high (lead (by decide) least) (.high (tail b) (.high (tail c) .nil))⟩
      | four least most _ _ b c d =>
          exact ⟨4, .high (lead (by decide) least)
            (.high (tail b) (.high (tail c) (.high (tail d) .nil)))⟩

theorem scanBody_of_rfc {body : Bytes} (rfc : RfcBody body) : ScanBody body := by
  obtain ⟨ns, decodes⟩ := rfc
  induction decodes with
  | nil => exact ⟨0, .nil⟩
  | cons character rest ih =>
      obtain ⟨m, front⟩ := ScanChars.of_character character
      obtain ⟨n, back⟩ := ih
      exact ⟨m + n, front.append back⟩

/-! ## Words and numbers -/

theorem literal_yields (lit s : Bytes) (d : Nat) :
    Yields (cmdConfigLiteral ⟨s, d⟩ lit) fun q => ∃ rest, s = lit ++ rest ∧ q = ⟨rest, d⟩ := by
  induction lit generalizing s with
  | nil => exact .ok ⟨s, rfl, rfl⟩
  | cons l lit ih =>
      cases s with
      | nil => exact .refused
      | cons c s =>
          simp only [cmdConfigLiteral]
          split
          · rename_i same
            subst same
            refine (ih s).mono ?_
            rintro q ⟨rest, rfl, rfl⟩
            exact ⟨rest, rfl, rfl⟩
          · exact .refused

/-- No digit stands in front. -/
def NoDigit (s : Bytes) : Prop := ∀ c ∈ s.head?, isDigit c = false

theorem dropWhile_digits {ds rest : Bytes} (digits : ∀ c ∈ ds, isDigit c = true)
    (stops : NoDigit rest) : (ds ++ rest).dropWhile isDigit = rest := by
  rw [List.dropWhile_append_of_pos digits]
  cases rest with
  | nil => rfl
  | cons c rest => simp [stops c rfl]

theorem dropWhile_isDigit (s : Bytes) :
    ∃ ds, s = ds ++ s.dropWhile isDigit ∧ ∀ c ∈ ds, isDigit c = true :=
  ⟨s.takeWhile isDigit, List.takeWhile_append_dropWhile.symm, fun _ => List.mem_takeWhile_imp⟩

theorem someDigits_complete {w rest : Bytes} (digits : Digits w) (stops : NoDigit rest) :
    someDigits (w ++ rest) = some rest := by
  obtain ⟨nonempty, digit⟩ := digits
  cases w with
  | nil => exact absurd rfl nonempty
  | cons c ds =>
      rw [List.forall_mem_cons] at digit
      simp [someDigits, digit.1, dropWhile_digits digit.2 stops]

theorem someDigits_sound {s rest : Bytes} (read : someDigits s = some rest) :
    ∃ w, s = w ++ rest ∧ Digits w := by
  cases s with
  | nil => simp [someDigits] at read
  | cons c s =>
      simp only [someDigits, Option.ite_none_right_eq_some, Option.some.injEq] at read
      obtain ⟨digit, rfl⟩ := read
      obtain ⟨ds, cut, digits⟩ := dropWhile_isDigit s
      refine ⟨c :: ds, ?_, List.cons_ne_nil c ds, List.forall_mem_cons.mpr ⟨digit, digits⟩⟩
      rw [List.cons_append, ← cut]

theorem numberInt_complete {w rest : Bytes} (int : IntPart w) (stops : NoDigit rest) :
    numberInt (w ++ rest) = some rest := by
  obtain rfl | ⟨c, ds, rfl, digit, nonzero, digits⟩ := int
  · rfl
  · simp [numberInt, digit, nonzero, dropWhile_digits digits stops]

theorem numberInt_sound {s rest : Bytes} (read : numberInt s = some rest) :
    ∃ w, s = w ++ rest ∧ IntPart w := by
  cases s with
  | nil => simp [numberInt] at read
  | cons c s =>
      simp only [numberInt] at read
      split at read
      · simp at read
      · rename_i digit
        split at read
        · rename_i zero
          obtain rfl := Option.some.inj read
          exact ⟨[c], rfl, .inl (by rw [zero])⟩
        · rename_i nonzero
          obtain rfl := Option.some.inj read
          obtain ⟨ds, cut, digits⟩ := dropWhile_isDigit s
          refine ⟨c :: ds, ?_, .inr ⟨c, ds, rfl, by simpa using digit, nonzero, digits⟩⟩
          rw [List.cons_append, ← cut]

theorem numberFrac_complete {w rest : Bytes} (frac : FracPart w) (stops : NoDigit rest)
    (pointless : ∀ c ∈ rest.head?, c ≠ 0x2E) : numberFrac (w ++ rest) = some rest := by
  obtain rfl | ⟨ds, rfl, digits⟩ := frac
  · cases rest with
    | nil => rfl
    | cons c rest => simp [numberFrac, pointless c rfl]
  · simp [numberFrac, someDigits_complete digits stops]

theorem numberFrac_sound {s rest : Bytes} (read : numberFrac s = some rest) :
    ∃ w, s = w ++ rest ∧ FracPart w := by
  cases s with
  | nil =>
      obtain rfl := Option.some.inj read
      exact ⟨[], rfl, .inl rfl⟩
  | cons c s =>
      simp only [numberFrac] at read
      split at read
      · rename_i point
        obtain ⟨w, rfl, digits⟩ := someDigits_sound read
        exact ⟨c :: w, rfl, .inr ⟨w, by rw [point], digits⟩⟩
      · obtain rfl := Option.some.inj read
        exact ⟨[], rfl, .inl rfl⟩

theorem expSign_complete {sign ds rest : Bytes} (signed : sign = [] ∨ sign = [0x2B] ∨ sign = [0x2D])
    (digits : Digits ds) : expSign (sign ++ ds ++ rest) = ds ++ rest := by
  obtain rfl | rfl | rfl := signed
  · obtain ⟨nonempty, digit⟩ := digits
    cases ds with
    | nil => exact absurd rfl nonempty
    | cons c ds =>
        have first := digit c List.mem_cons_self
        have unsigned : ¬(c = 0x2B ∨ c = 0x2D) := by
          rintro (rfl | rfl)
          · exact absurd first (by decide)
          · exact absurd first (by decide)
        simp [expSign, unsigned]
  · rfl
  · rfl

theorem expSign_sound (s : Bytes) :
    ∃ sign, s = sign ++ expSign s ∧ (sign = [] ∨ sign = [0x2B] ∨ sign = [0x2D]) := by
  cases s with
  | nil => exact ⟨[], rfl, .inl rfl⟩
  | cons c s =>
      simp only [expSign]
      split
      · rename_i sign
        exact ⟨[c], rfl, .inr (sign.imp (congrArg ([·])) (congrArg ([·])))⟩
      · exact ⟨[], rfl, .inl rfl⟩

theorem noDigit_of_ended {rest : Bytes} (ended : Ended rest) : NoDigit rest := by
  intro c first
  have other := ended c first
  simp only [numeric, Bool.or_eq_false_iff] at other
  exact other.1.1.1.1.1

theorem numberExp_complete {w rest : Bytes} (exp : ExpPart w) (ended : Ended rest) :
    numberExp (w ++ rest) = some rest := by
  obtain rfl | ⟨e, sign, ds, rfl, letter, signed, digits⟩ := exp
  · cases rest with
    | nil => rfl
    | cons c rest =>
        have other := ended c rfl
        simp only [numeric, Bool.or_eq_false_iff, decide_eq_false_iff_not] at other
        simp [numberExp, other.1.1.1.2, other.1.1.2]
  · simp only [List.cons_append, numberExp, letter, if_true, expSign_complete signed digits]
    exact someDigits_complete digits (noDigit_of_ended ended)

theorem numberExp_sound {s rest : Bytes} (read : numberExp s = some rest) :
    ∃ w, s = w ++ rest ∧ ExpPart w := by
  cases s with
  | nil =>
      obtain rfl := Option.some.inj read
      exact ⟨[], rfl, .inl rfl⟩
  | cons c s =>
      simp only [numberExp] at read
      split at read
      · rename_i letter
        obtain ⟨sign, cut, signed⟩ := expSign_sound s
        obtain ⟨ds, rest', digits⟩ := someDigits_sound read
        refine ⟨c :: (sign ++ ds), ?_, .inr ⟨c, sign, ds, rfl, letter, signed, digits⟩⟩
        rw [List.cons_append, List.append_assoc, ← rest', ← cut]
      · obtain rfl := Option.some.inj read
        exact ⟨[], rfl, .inl rfl⟩

/-- The bytes after the integer part of a number, and after its fraction. -/
theorem exp_head {exp rest : Bytes} (isExp : ExpPart exp) (ended : Ended rest) :
    NoDigit (exp ++ rest) ∧ ∀ c ∈ (exp ++ rest).head?, c ≠ 0x2E := by
  obtain rfl | ⟨e, sign, ds, rfl, letter, -, -⟩ := isExp
  · refine ⟨noDigit_of_ended ended, fun c first => ?_⟩
    have other := ended c first
    simp only [numeric, Bool.or_eq_false_iff, decide_eq_false_iff_not] at other
    exact other.1.1.1.1.2
  · refine ⟨fun c first => ?_, fun c first => ?_⟩
    · obtain rfl : e = c := by simpa using first
      obtain rfl | rfl := letter <;> rfl
    · obtain rfl : e = c := by simpa using first
      obtain rfl | rfl := letter <;> decide

theorem frac_head {frac tail : Bytes} (isFrac : FracPart frac) (stops : NoDigit tail) :
    NoDigit (frac ++ tail) := by
  obtain rfl | ⟨ds, rfl, -⟩ := isFrac
  · exact stops
  · intro c first
    obtain rfl : 0x2E = c := by simpa using first
    rfl

theorem numberSign_complete {sign int : Bytes} (signed : sign = [] ∨ sign = [0x2D])
    (isInt : IntPart int) (tail : Bytes) : numberSign (sign ++ (int ++ tail)) = int ++ tail := by
  obtain rfl | rfl := signed
  · obtain rfl | ⟨c, ds, rfl, digit, -, -⟩ := isInt
    · rfl
    · have positive : c ≠ 0x2D := by
        rintro rfl
        exact absurd digit (by decide)
      simp [numberSign, positive]
  · rfl

theorem number_complete {w rest : Bytes} (number : Number w) (ended : Ended rest) (d : Nat) :
    cmdConfigNumber ⟨w ++ rest, d⟩ = .ok ⟨rest, d⟩ := by
  have nonempty : rest.length < (w ++ rest).length := by
    obtain ⟨c, s, rfl, -⟩ := number.head
    simp only [List.length_append, List.length_cons]
    omega
  obtain ⟨sign, int, frac, exp, rfl, signed, isInt, isFrac, isExp⟩ := number
  obtain ⟨stops, pointless⟩ := exp_head isExp ended
  have read : ((numberInt (numberSign (sign ++ (int ++ (frac ++ exp)) ++ rest))).bind
      numberFrac).bind numberExp = some rest := by
    simp only [List.append_assoc, numberSign_complete signed isInt,
      numberInt_complete isInt (frac_head isFrac stops), Option.bind_some,
      numberFrac_complete isFrac stops pointless, numberExp_complete isExp ended]
  simp only [cmdConfigNumber, read, nonempty, if_true]

theorem number_yields (s : Bytes) (d : Nat) :
    Yields (cmdConfigNumber ⟨s, d⟩) fun q =>
      ∃ w rest, s = w ++ rest ∧ Number w ∧ q = ⟨rest, d⟩ := by
  cases read : ((numberInt (numberSign s)).bind numberFrac).bind numberExp with
  | none => exact .inl (by simp only [cmdConfigNumber, read])
  | some rest =>
      simp only [cmdConfigNumber, read]
      split
      · simp only [Option.bind_eq_some_iff] at read
        obtain ⟨afterFrac, ⟨afterInt, int, frac⟩, exp⟩ := read
        obtain ⟨i, cutInt, isInt⟩ := numberInt_sound int
        obtain ⟨f, rfl, isFrac⟩ := numberFrac_sound frac
        obtain ⟨e, rfl, isExp⟩ := numberExp_sound exp
        obtain ⟨sign, cut, signed⟩ : ∃ sign, s = sign ++ numberSign s ∧
            (sign = [] ∨ sign = [0x2D]) := by
          cases s with
          | nil => exact ⟨[], rfl, .inl rfl⟩
          | cons c s =>
              simp only [numberSign]
              split
              · rename_i minus
                exact ⟨[c], rfl, .inr (by rw [minus])⟩
              · exact ⟨[], rfl, .inl rfl⟩
        refine .ok ⟨sign ++ (i ++ (f ++ e)), rest, ?_, ?_, rfl⟩
        · rw [cut, cutInt]
          simp only [List.append_assoc]
        · exact ⟨sign, i, f, e, rfl, signed, isInt, isFrac, isExp⟩
      · exact .refused

/-! ## Walkers -/

/-- At the nesting `d`, `f` accepts what stands in `R` with the text in front and the one left.
What it accepts is in `R` when a number would end there. -/
structure Reads {α : Type} (d : Nat) (f : CmdConfigScan → Scanned (α × CmdConfigScan))
    (R : Bytes → α → Bytes → Prop) : Prop where
  sound : ∀ s, Yields (f ⟨s, d⟩) fun r =>
    r.2.depth = d ∧ r.2.rest.length ≤ s.length ∧ (Ended r.2.rest → R s r.1 r.2.rest)
  complete : ∀ s a r, R s a r → f ⟨s, d⟩ = .ok (a, ⟨r, d⟩)

theorem Reads.length_le {α : Type} {d : Nat} {f : CmdConfigScan → Scanned (α × CmdConfigScan)}
    {R : Bytes → α → Bytes → Prop} (reads : Reads d f R) {s r : Bytes} {a : α} (holds : R s a r) :
    r.length ≤ s.length :=
  ((reads.sound s).of_ok (reads.complete s a r holds)).2.1

theorem memberName_complete {s name rest : Bytes} (label : Label ScanBody true s name rest)
    (d : Nat) : memberName ⟨s, d⟩ = .ok (name, ⟨rest, d⟩) := by
  cases label with
  | @name k s _ inside colon =>
      obtain ⟨n, chars⟩ := inside
      have cut : (QUOTE :: (name ++ QUOTE :: s)).length - s.length - 2 = name.length := by
        simp only [List.length_cons, List.length_append]
        omega
      simp only [memberName, read_cons, ok_bind, if_true, string_complete chars,
        skippedTo_of_cons colon, next_cons, cut]
      simp

theorem memberName_yields (c : UInt8) (s : Bytes) (d : Nat) :
    Yields (memberName ⟨c :: s, d⟩) fun r =>
      ∃ rest, r.2 = ⟨rest, d⟩ ∧ Label ScanBody true (c :: s) r.1 rest := by
  simp only [memberName, read_cons, ok_bind]
  split
  · rename_i quote
    subst quote
    refine (string_yields s d).bind ?_
    rintro ⟨n, _⟩ ⟨b, rest, rfl, chars, rfl⟩
    refine (skippedTo_yields COLON _).bind ?_
    rintro _ ⟨after, rfl, colon⟩
    have cut : (QUOTE :: (b ++ QUOTE :: rest)).length - rest.length - 2 = b.length := by
      simp only [List.length_cons, List.length_append]
      omega
    refine .ok ⟨after, rfl, ?_⟩
    simp only [cut, List.drop_one, List.tail_cons, List.take_left]
    exact .name ⟨n, chars⟩ colon
  · exact .refused

theorem label_length {named : Bool} {s name rest : Bytes}
    (label : Label ScanBody named s name rest) : rest.length ≤ s.length := by
  cases label with
  | element => exact Nat.le_refl _
  | name inside colon =>
      have shorter := skipWs_cons_length colon
      simp only [List.length_cons, List.length_append]
      omega

/-- The first part of a turn: the name of an object's member. -/
theorem label_complete {named : Bool} {s name rest : Bytes}
    (label : Label ScanBody named s name rest) (d : Nat) :
    memberLabel named ⟨s, d⟩ = .ok (name, ⟨rest, d⟩) := by
  cases named with
  | true => exact memberName_complete label d
  | false =>
      cases label
      rfl

theorem label_yields (named : Bool) (c : UInt8) (s : Bytes) (d : Nat) :
    Yields (memberLabel named ⟨c :: s, d⟩) fun r =>
      ∃ rest, r.2 = ⟨rest, d⟩ ∧ Label ScanBody named (c :: s) r.1 rest := by
  cases named with
  | true => exact memberName_yields c s d
  | false => exact .ok ⟨c :: s, rfl, .element⟩

section Walk

variable {σ : Type} {named : Bool} {V : Bytes → Tree → Bytes → Prop}
  {member : Bytes → σ → CmdConfigScan → Scanned (σ × CmdConfigScan)}
  {step : σ → Bytes × Tree → Option σ} {d : Nat}

/-- A member is read as a value, and the walker's state takes the step for it. -/
def ReadsMembers (V : Bytes → Tree → Bytes → Prop) (d : Nat)
    (member : Bytes → σ → CmdConfigScan → Scanned (σ × CmdConfigScan))
    (step : σ → Bytes × Tree → Option σ) : Prop :=
  ∀ name st, Reads d (member name st) fun s st' r =>
    ∃ t, V (skipWs s) t r ∧ step st (name, t) = some st'

theorem walkMembers_complete (headed : Headed V) (reads : ReadsMembers V d member step)
    {s r : Bytes} {ms : List (Bytes × Tree)} (members : Members ScanBody named V s ms r) {st st' : σ}
    (steps : ms.foldlM step st = some st') {fuel : Nat} (enough : s.length ≤ fuel) :
    walkMembers named member fuel st ⟨s, d⟩ = .ok (st', ⟨r, d - 1⟩) := by
  induction members generalizing st fuel with
  | @last s k s₁ t s₂ rest label value closes =>
      have taken : step st (k, t) = some st' := by simpa using steps
      have room := label_length label
      have more := (reads k st).length_le ⟨t, value, taken⟩
      have left := skipWs_cons_length closes
      obtain ⟨fuel, rfl⟩ : ∃ n, fuel = n + 1 := Nat.exists_eq_succ_of_ne_zero (by omega)
      simp only [walkMembers, label_complete label, ok_bind,
        (reads k st).complete _ _ _ ⟨t, value, taken⟩, skipped_of_cons closes, read_cons,
        closing_ne_comma, if_false, if_true, next_cons]
  | @more s k s₁ t s₂ s₃ ms rest label value comma others ih =>
      obtain ⟨mid, taken, later⟩ : ∃ mid, step st (k, t) = some mid ∧
          ms.foldlM step mid = some st' := by
        simpa only [List.foldlM_cons, Option.bind_eq_bind, Option.bind_eq_some_iff] using steps
      have room := label_length label
      have more := (reads k st).length_le ⟨t, value, taken⟩
      have left := skipWs_cons_length comma
      have shorter := skipWs_length s₃
      obtain ⟨fuel, rfl⟩ : ∃ n, fuel = n + 1 := Nat.exists_eq_succ_of_ne_zero (by omega)
      obtain ⟨c, u, next⟩ := others.cons headed
      simp only [walkMembers, label_complete label, ok_bind,
        (reads k st).complete _ _ _ ⟨t, value, taken⟩, skipped_of_cons comma, read_cons,
        if_true, next_cons, skipped_of_cons next]
      rw [← next]
      exact ih later (by omega)

theorem numeric_closing (named : Bool) : numeric (closing named) = false := by
  cases named <;> decide

theorem walkMembers_yields (reads : ReadsMembers V d member step) (fuel : Nat) (st : σ)
    {c : UInt8} {s : Bytes} (enough : (c :: s).length ≤ fuel) :
    Yields (walkMembers named member fuel st ⟨c :: s, d⟩) fun r =>
      r.2.depth = d - 1 ∧ r.2.rest.length ≤ (c :: s).length ∧
        ∃ ms, Members ScanBody named V (c :: s) ms r.2.rest ∧ ms.foldlM step st = some r.1 := by
  induction fuel generalizing st c s with
  | zero => simp at enough
  | succ fuel ih =>
      simp only [walkMembers]
      refine (label_yields named c s d).bind ?_
      rintro ⟨name, _⟩ ⟨s₁, rfl, label⟩
      refine ((reads name st).sound s₁).bind ?_
      rintro ⟨st₁, s₂, _⟩ ⟨rfl, more, value⟩
      refine (skipped_yields _).bind ?_
      rintro _ ⟨b, s₃, rfl, left⟩
      have room := label_length label
      have shorter := skipWs_cons_length left
      simp only at more shorter
      simp only [read_cons, ok_bind, next_cons]
      split
      · rename_i comma
        subst comma
        obtain ⟨t, holds, taken⟩ := value (ended_of_skipWs left rfl)
        refine (skipped_yields _).bind ?_
        rintro _ ⟨c', s', rfl, next⟩
        have less := skipWs_length s₃
        simp only at next less
        rw [next] at less
        refine (ih st₁ (by omega)).mono ?_
        rintro ⟨st', rest, _⟩ ⟨rfl, fewer, ms, members, steps⟩
        simp only at fewer members steps
        refine ⟨rfl, by simp only; omega, (name, t) :: ms, ?_, ?_⟩
        · exact .more label holds left (by rwa [next])
        · simpa [taken] using steps
      · split
        · rename_i closes
          subst closes
          obtain ⟨t, holds, taken⟩ := value (ended_of_skipWs left (numeric_closing named))
          refine .ok ⟨rfl, by simp only; omega, [(name, t)], .last label holds left, ?_⟩
          simpa using taken
        · exact .refused

/-! ### From the bracket on -/

theorem walkContainer_deep (deep : CMD_CONFIG_MAX_DEPTH < d + 1) (st : σ) (s : Bytes) :
    walkContainer named member st ⟨s, d⟩ = .error .refused := by
  simp [walkContainer, deep]

theorem walkContainer_complete (headed : Headed V) (shallow : d < CMD_CONFIG_MAX_DEPTH)
    (reads : ReadsMembers V (d + 1) member step) {s r : Bytes} {ms : List (Bytes × Tree)}
    (node : Node ScanBody V s (.node named ms) r) {st st' : σ}
    (steps : ms.foldlM step st = some st') :
    walkContainer named member st ⟨s, d⟩ = .ok (st', ⟨r, d⟩) := by
  have fits : ¬ CMD_CONFIG_MAX_DEPTH < d + 1 := Nat.not_lt.mpr shallow
  cases node with
  | empty closes =>
      obtain rfl : st = st' := by simpa using steps
      simp only [walkContainer, fits, if_false, next_cons, ok_bind, skipped_of_cons closes,
        read_cons, if_true, Nat.add_sub_cancel]
  | @members _ s ms rest inside =>
      obtain ⟨c, u, cut⟩ := inside.cons headed
      have more : c ≠ closing named := by
        rintro rfl
        exact inside.not_closed headed cut
      simp only [walkContainer, fits, if_false, next_cons, ok_bind, skipped_of_cons cut,
        read_cons, more]
      rw [cut] at inside
      exact walkMembers_complete headed reads inside steps (Nat.le_refl _)

theorem walkContainer_yields (reads : ReadsMembers V (d + 1) member step) (st : σ) (s : Bytes) :
    Yields (walkContainer named member st ⟨opening named :: s, d⟩) fun r =>
      r.2.depth = d ∧ r.2.rest.length ≤ s.length ∧ d < CMD_CONFIG_MAX_DEPTH ∧
        ∃ ms, Node ScanBody V (opening named :: s) (.node named ms) r.2.rest ∧
          ms.foldlM step st = some r.1 := by
  by_cases deep : CMD_CONFIG_MAX_DEPTH < d + 1
  · exact .inl (walkContainer_deep deep st _)
  · simp only [walkContainer, deep, if_false, next_cons, ok_bind]
    refine (skipped_yields _).bind ?_
    rintro _ ⟨c, u, rfl, left⟩
    have shorter := skipWs_length s
    simp only at left
    rw [left] at shorter
    simp only [read_cons, ok_bind, next_cons]
    split
    · rename_i closes
      subst closes
      have less := skipWs_cons_length left
      exact .ok ⟨rfl, by simp only; omega, Nat.not_lt.mp deep, [], .empty left, rfl⟩
    · refine (walkMembers_yields reads _ st (Nat.le_refl _)).mono ?_
      rintro ⟨st', rest, _⟩ ⟨rfl, fewer, ms, members, steps⟩
      simp only at fewer
      refine ⟨rfl, by simp only; omega, Nat.not_lt.mp deep, ms, .members ?_, steps⟩
      rwa [left]

end Walk

/-! ### Values -/

theorem Value.of_leaf {Body : Bytes → Prop} {s r : Bytes} {t : Tree} (leaf : Leaf Body s t r)
    (k : Nat) : Value Body k s t r := by
  cases k with
  | zero => exact leaf
  | succ k => exact .inl leaf

theorem foldlM_unit (ms : List (Bytes × Tree)) :
    ms.foldlM (fun _ _ => some ()) () = some () := by
  induction ms with
  | nil => rfl
  | cons m ms ih => simpa using ih

/-- What a container needs of the values in it. -/
def ReadsInside (k d : Nat) (value : CmdConfigScan → Scanned (Unit × CmdConfigScan)) : Prop :=
  ∀ k', k = k' + 1 → Reads (d + 1) value fun s _ r => ∃ t, Value ScanBody k' (skipWs s) t r

theorem ReadsInside.members {k d : Nat} {value : CmdConfigScan → Scanned (Unit × CmdConfigScan)}
    (inside : ReadsInside (k + 1) d value) :
    ReadsMembers (Value ScanBody k) (d + 1) (fun _ _ p => value p) fun _ _ => some () := by
  intro name st
  have reads := inside k rfl
  refine ⟨fun s => (reads.sound s).mono ?_, ?_⟩
  · rintro r ⟨depth, shorter, holds⟩
    exact ⟨depth, shorter, fun ended => (holds ended).imp fun t value => ⟨value, rfl⟩⟩
  · rintro s a r ⟨t, holds, -⟩
    exact reads.complete s a r ⟨t, holds⟩

theorem container_yields {k d : Nat} (levels : k + d = CMD_CONFIG_MAX_DEPTH)
    {value : CmdConfigScan → Scanned (Unit × CmdConfigScan)} (inside : ReadsInside k d value)
    (named : Bool) (s : Bytes) :
    Yields (cmdConfigContainer value named ⟨opening named :: s, d⟩) fun r =>
      r.2.depth = d ∧ r.2.rest.length ≤ s.length ∧
        ∃ t, Value ScanBody k (opening named :: s) t r.2.rest := by
  cases k with
  | zero => exact .inl (walkContainer_deep (by omega) () _)
  | succ k =>
      refine (walkContainer_yields inside.members () s).mono ?_
      rintro r ⟨depth, shorter, -, ms, node, -⟩
      exact ⟨depth, shorter, _, .inr node⟩

theorem container_complete {k d : Nat} (levels : k + 1 + d = CMD_CONFIG_MAX_DEPTH)
    {value : CmdConfigScan → Scanned (Unit × CmdConfigScan)} (inside : ReadsInside (k + 1) d value)
    {named : Bool} {s r : Bytes} {ms : List (Bytes × Tree)}
    (node : Node ScanBody (Value ScanBody k) s (.node named ms) r) :
    cmdConfigContainer value named ⟨s, d⟩ = .ok ((), ⟨r, d⟩) :=
  walkContainer_complete (Value.headed k) (by omega) inside.members node (foldlM_unit ms)

/-- The value in front, told by its first byte. -/
theorem value_yields {k d : Nat} (levels : k + d = CMD_CONFIG_MAX_DEPTH) {fuel : Nat}
    (inside : ReadsInside k d (cmdConfigValue fuel)) (s : Bytes) :
    Yields (cmdConfigValue (fuel + 1) ⟨s, d⟩) fun r =>
      r.2.depth = d ∧ r.2.rest.length ≤ s.length ∧
        (Ended r.2.rest → ∃ t, Value ScanBody k (skipWs s) t r.2.rest) := by
  simp only [cmdConfigValue]
  refine (skipped_yields _).bind ?_
  rintro _ ⟨c, u, rfl, left⟩
  simp only at left
  have shorter := skipWs_length s
  rw [left] at shorter ⊢
  simp only [read_cons, ok_bind]
  have word (lit : Bytes) (known : lit ∈ WORDS) :
      Yields (cmdConfigLiteral ⟨c :: u, d⟩ lit >>= fun q => .ok ((), q)) fun r =>
        r.2.depth = d ∧ r.2.rest.length ≤ s.length ∧
          (Ended r.2.rest → ∃ t, Value ScanBody k (c :: u) t r.2.rest) := by
    refine (literal_yields lit (c :: u) d).bind ?_
    rintro _ ⟨rest, cut, rfl⟩
    rw [cut] at shorter ⊢
    rw [List.length_append] at shorter
    exact .ok ⟨rfl, by simp only; omega, fun _ => ⟨_, Value.of_leaf (.word known) k⟩⟩
  have container (named : Bool) (bracket : c = opening named) :
      Yields (cmdConfigContainer (cmdConfigValue fuel) named ⟨c :: u, d⟩) fun r =>
        r.2.depth = d ∧ r.2.rest.length ≤ s.length ∧
          (Ended r.2.rest → ∃ t, Value ScanBody k (c :: u) t r.2.rest) := by
    subst bracket
    refine (container_yields levels inside named u).mono ?_
    rintro r ⟨depth, fewer, holds⟩
    rw [List.length_cons] at shorter
    exact ⟨depth, by omega, fun _ => holds⟩
  split
  · rename_i quote
    subst quote
    refine (string_yields u d).bind ?_
    rintro ⟨n, _⟩ ⟨b, rest, rfl, chars, rfl⟩
    simp only [List.length_cons, List.length_append] at shorter
    exact .ok ⟨rfl, by simp only; omega, fun _ => ⟨_, Value.of_leaf (.str ⟨n, chars⟩) k⟩⟩
  · split
    · rename_i bracket
      exact container true bracket
    · split
      · rename_i bracket
        exact container false bracket
      · split
        · exact word _ (by simp [WORDS])
        · split
          · exact word _ (by simp [WORDS])
          · split
            · exact word _ (by simp [WORDS])
            · refine (number_yields (c :: u) d).bind ?_
              rintro _ ⟨w, rest, cut, number, rfl⟩
              rw [cut, List.length_append] at shorter
              refine .ok ⟨rfl, by simp only; omega, fun ended => ?_⟩
              rw [cut]
              exact ⟨_, Value.of_leaf (.number number ended) k⟩

theorem leaf_complete {s u r : Bytes} {c : UInt8} {t : Tree} (left : skipWs s = c :: u)
    (leaf : Leaf ScanBody (c :: u) t r) (fuel d : Nat) :
    cmdConfigValue (fuel + 1) ⟨s, d⟩ = .ok ((), ⟨r, d⟩) := by
  simp only [cmdConfigValue, skipped_of_cons left, ok_bind, read_cons]
  generalize same : c :: u = v at leaf
  cases leaf with
  | str body =>
      obtain ⟨n, chars⟩ := body
      obtain ⟨rfl, rfl⟩ := List.cons.inj same
      simp only [if_true, string_complete chars, ok_bind]
  | @word w rest known =>
      simp only [WORDS, List.mem_cons, List.not_mem_nil, or_false] at known
      obtain rfl | rfl | rfl := known <;> obtain ⟨rfl, rfl⟩ := List.cons.inj same <;>
        simp [QUOTE, cmdConfigLiteral]
  | @number w rest number ended =>
      obtain ⟨b, v, rfl, numberFirst⟩ := number.head
      obtain ⟨rfl, rfl⟩ := List.cons.inj same
      have other : c ≠ QUOTE ∧ c ≠ 0x7B ∧ c ≠ 0x5B ∧ c ≠ 0x74 ∧ c ≠ 0x66 ∧ c ≠ 0x6E := by
        refine ⟨?_, ?_, ?_, ?_, ?_, ?_⟩ <;> rintro rfl <;> revert numberFirst <;> decide
      simp only [other.1, other.2.1, other.2.2.1, other.2.2.2.1, other.2.2.2.2.1,
        other.2.2.2.2.2, if_false]
      exact congrArg (· >>= fun q => .ok ((), q)) (number_complete number ended d)

theorem node_complete {k d : Nat} (levels : k + 1 + d = CMD_CONFIG_MAX_DEPTH) {fuel : Nat}
    (inside : ReadsInside (k + 1) d (cmdConfigValue fuel)) {s u r : Bytes} {c : UInt8} {t : Tree}
    (left : skipWs s = c :: u) (node : Node ScanBody (Value ScanBody k) (c :: u) t r) :
    cmdConfigValue (fuel + 1) ⟨s, d⟩ = .ok ((), ⟨r, d⟩) := by
  obtain ⟨named, ms, u', rfl, opens⟩ := node.opens
  obtain ⟨bracket, -⟩ := List.cons.inj opens
  have read := container_complete levels inside node
  simp only [cmdConfigValue, skipped_of_cons left, ok_bind, read_cons]
  cases named with
  | true =>
      have known : c = 0x7B := bracket
      rw [if_neg (by rw [known]; decide), if_pos known]
      exact read
  | false =>
      have known : c = 0x5B := bracket
      rw [if_neg (by rw [known]; decide), if_neg (by rw [known]; decide), if_pos known]
      exact read

/-- The fuel of a value is only the nesting that is left. -/
theorem value_reads (k : Nat) {d fuel : Nat} (levels : k + d = CMD_CONFIG_MAX_DEPTH)
    (enough : k < fuel) :
    Reads d (cmdConfigValue fuel) fun s _ r => ∃ t, Value ScanBody k (skipWs s) t r := by
  induction k generalizing d fuel with
  | zero =>
      obtain ⟨fuel, rfl⟩ : ∃ n, fuel = n + 1 := Nat.exists_eq_succ_of_ne_zero (by omega)
      have inside : ReadsInside 0 d (cmdConfigValue fuel) := fun k' never => by omega
      refine ⟨value_yields levels inside, ?_⟩
      rintro s _ r ⟨t, leaf⟩
      obtain ⟨c, u, left, -⟩ := Leaf.headed _ _ _ leaf
      exact leaf_complete left (left ▸ leaf) fuel d
  | succ k ih =>
      obtain ⟨fuel, rfl⟩ : ∃ n, fuel = n + 1 := Nat.exists_eq_succ_of_ne_zero (by omega)
      have inside : ReadsInside (k + 1) d (cmdConfigValue fuel) := by
        intro k' same
        obtain rfl : k = k' := by omega
        exact ih (by omega) (by omega)
      refine ⟨value_yields levels inside, ?_⟩
      rintro s _ r ⟨t, value⟩
      obtain ⟨c, u, left, -⟩ := Value.headed (k + 1) _ _ _ value
      rw [left] at value
      obtain leaf | node := value
      · exact leaf_complete left leaf fuel d
      · exact node_complete levels inside left node

/-! ### Looking for one name -/

theorem keyIs_iff {name lit : Bytes} : cmdConfigKeyIs name lit = true ↔ name = lit := by
  fun_induction cmdConfigKeyIs name lit with
  | case1 name => simp
  | case2 => simp
  | case3 c name l lit ih => simp [ih]

/-- What a walker that looks for `lit` makes of a member. -/
def once (lit : Bytes) (f : Tree → Option Nat) (st : Found) (m : Bytes × Tree) : Option Found :=
  if m.1 = lit then if st.1 then none else (f m.2).map (true, ·) else some st

/-- What it makes of an object. -/
def objectOf (lit : Bytes) (f : Tree → Option Nat) : Tree → Option Nat
  | .node true ms => (ms.foldlM (once lit f) (false, 0)).map Prod.snd
  | _ => none

def brokerOf : Tree → Option Nat
  | .str body => some (if body = [] then 0 else 1)
  | _ => none

/-- `found` reads a value, and its result is that of `f`. -/
def Finds (k d : Nat) (found : CmdConfigScan → Scanned (Nat × CmdConfigScan))
    (f : Tree → Option Nat) : Prop :=
  Reads d found fun s v r => ∃ t, Value ScanBody k (skipWs s) t r ∧ f t = some v

variable {k d : Nat} {lit : Bytes} {found : CmdConfigScan → Scanned (Nat × CmdConfigScan)}
  {f : Tree → Option Nat}

theorem soughtMember_reads (levels : k + d = CMD_CONFIG_MAX_DEPTH) (finds : Finds k d found f) :
    ReadsMembers (Value ScanBody k) d (soughtMember lit found) (once lit f) := by
  intro name st
  have reads : Reads d (cmdConfigValue (CMD_CONFIG_MAX_DEPTH + 1)) _ :=
    value_reads k levels (by omega)
  by_cases same : name = lit
  · have key := keyIs_iff.mpr same
    cases seen : st.1 with
    | true =>
        refine ⟨fun s => .inl ?_, ?_⟩
        · simp [soughtMember, key, seen]
        · rintro s st' r ⟨t, -, taken⟩
          simp [once, same, seen] at taken
    | false =>
        refine ⟨fun s => ?_, ?_⟩
        · simp only [soughtMember, key, seen, if_true, Bool.false_eq_true, if_false]
          refine (finds.sound s).bind ?_
          rintro ⟨v, rest, _⟩ ⟨rfl, shorter, holds⟩
          refine .ok ⟨rfl, shorter, fun ended => ?_⟩
          obtain ⟨t, value, gives⟩ := holds ended
          exact ⟨t, value, by simp [once, same, seen, gives]⟩
        · rintro s st' r ⟨t, value, taken⟩
          simp only [once, same, if_true, seen, Bool.false_eq_true, if_false,
            Option.map_eq_some_iff] at taken
          obtain ⟨v, gives, rfl⟩ := taken
          simp [soughtMember, key, seen, finds.complete _ _ _ ⟨t, value, gives⟩]
  · have key : cmdConfigKeyIs name lit = false := by
      rw [← Bool.not_eq_true, keyIs_iff]
      exact same
    refine ⟨fun s => ?_, ?_⟩
    · simp only [soughtMember, key, Bool.false_eq_true, if_false]
      refine (reads.sound s).bind ?_
      rintro ⟨_, rest, _⟩ ⟨rfl, shorter, holds⟩
      refine .ok ⟨rfl, shorter, fun ended => ?_⟩
      obtain ⟨t, value⟩ := holds ended
      exact ⟨t, value, by simp [once, same]⟩
    · rintro s st' r ⟨t, value, taken⟩
      obtain rfl : st = st' := by simpa [once, same] using taken
      simp [soughtMember, key, reads.complete s () r ⟨t, value⟩]

theorem brokerValue_finds (k d : Nat) : Finds k d brokerValue brokerOf := by
  refine ⟨fun s => ?_, ?_⟩
  · simp only [brokerValue]
    refine (skippedTo_yields QUOTE _).bind ?_
    rintro _ ⟨u, rfl, left⟩
    have shorter := skipWs_cons_length left
    refine (string_yields u d).bind ?_
    rintro ⟨n, _⟩ ⟨b, rest, rfl, chars, rfl⟩
    simp only [List.length_append, List.length_cons] at shorter
    refine .ok ⟨rfl, by simp only; omega, fun _ => ⟨.str b, ?_, ?_⟩⟩
    · simp only at left
      rw [left]
      exact Value.of_leaf (.str ⟨n, chars⟩) k
    · simp only [brokerOf, ← chars.zero_iff, Nat.pos_iff_ne_zero]
      split <;> simp_all
  · rintro s v r ⟨t, value, gives⟩
    cases t with
    | str body =>
        have leaf : Leaf ScanBody (skipWs s) (.str body) r := by
          cases k with
          | zero => exact value
          | succ k =>
              obtain leaf | node := value
              · exact leaf
              · obtain ⟨_, _, _, same, -⟩ := node.opens
                cases same
        generalize left : skipWs s = u at leaf
        cases leaf with
        | str inside =>
            obtain ⟨n, chars⟩ := inside
            have gives := Option.some.inj gives
            simp only [brokerValue, skippedTo_of_cons left, ok_bind, string_complete chars]
            rw [← gives]
            simp only [← chars.zero_iff, Nat.pos_iff_ne_zero]
            split <;> simp_all
    | _ => simp [brokerOf] at gives

/-- A walker that looks for `lit` in an object. -/
theorem object_finds (levels : k + 1 + d = CMD_CONFIG_MAX_DEPTH) (finds : Finds k (d + 1) found f) :
    Finds (k + 1) d
      (fun p => do
        let p ← skippedTo 0x7B p
        let (st, p) ← walkContainer true (soughtMember lit found) (false, 0) p
        .ok (st.2, p)) (objectOf lit f) := by
  have members : ReadsMembers _ _ (soughtMember lit found) (once lit f) :=
    soughtMember_reads (by omega) finds
  refine ⟨fun s => ?_, ?_⟩
  · refine (skippedTo_yields 0x7B _).bind ?_
    rintro _ ⟨u, rfl, left⟩
    have shorter := skipWs_cons_length left
    have walked : Yields (walkContainer true _ _ ⟨opening true :: u, d⟩) _ :=
      walkContainer_yields members (false, 0) u
    refine walked.bind ?_
    rintro ⟨st, rest, _⟩ ⟨rfl, fewer, -, ms, node, steps⟩
    simp only at fewer shorter left node steps
    refine .ok ⟨rfl, by simp only; omega, fun _ => ⟨.node true ms, ?_, ?_⟩⟩
    · rw [left]
      exact .inr node
    · simp [objectOf, steps]
  · rintro s v r ⟨t, value, gives⟩
    cases t with
    | node named ms =>
        cases named with
        | false => simp [objectOf] at gives
        | true =>
            simp only [objectOf, Option.map_eq_some_iff] at gives
            obtain ⟨st, steps, rfl⟩ := gives
            obtain leaf | node := value
            · exact leaf.not_container.elim
            · obtain ⟨_, _, u, same, left⟩ := node.opens
              cases same
              have walked := walkContainer_complete (Value.headed k) (by omega) members node steps
              have left : skipWs s = 0x7B :: u := left
              rw [left] at walked
              simp only [skippedTo_of_cons left, ok_bind, walked]
    | _ => simp [objectOf] at gives

end Thesada.Config
