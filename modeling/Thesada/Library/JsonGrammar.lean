import Mathlib.Data.List.TakeWhile

/-!
# The grammar of JSON texts

RFC 8259 over bytes. A rule relates a text to what stands at its front and to what is left of
it. The rule for the inside of a string is a parameter: `Decodes` is that of the RFC, and a
scanner that reads strings by another rule has its own.

`Value d` allows arrays and objects nested at most `d` deep.
-/

namespace JsonGrammar

abbrev Bytes := List UInt8

def QUOTE : UInt8 := 0x22
def COMMA : UInt8 := 0x2C
def COLON : UInt8 := 0x3A
def BACKSLASH : UInt8 := 0x5C

/-- `{` or `[`. -/
def opening (named : Bool) : UInt8 := if named then 0x7B else 0x5B

def closing (named : Bool) : UInt8 := if named then 0x7D else 0x5D

def isWs (c : UInt8) : Bool := c = 0x20 || c = 0x09 || c = 0x0A || c = 0x0D

def skipWs (s : Bytes) : Bytes := s.dropWhile isWs

/-- What a text says, with strings and scalars as they are spelled. The elements of an array
have the empty name. -/
inductive Tree where
  | scalar (lexeme : Bytes)
  | str (body : Bytes)
  | node (named : Bool) (members : List (Bytes × Tree))

/-! ## Strings -/

def isTail (c : UInt8) : Bool := 0x80 ≤ c && c ≤ 0xBF

/-- The UTF-8 form of a code point. -/
inductive Utf8 : Bytes → Nat → Prop where
  | one {a} : a < 0x80 → Utf8 [a] a.toNat
  | two {a b} : 0xC2 ≤ a → a ≤ 0xDF → isTail b →
      Utf8 [a, b] ((a.toNat - 0xC0) * 64 + (b.toNat - 0x80))
  | three {a b c} : 0xE0 ≤ a → a ≤ 0xEF → (a = 0xE0 → 0xA0 ≤ b) → (a = 0xED → b ≤ 0x9F) →
      isTail b → isTail c →
      Utf8 [a, b, c] (((a.toNat - 0xE0) * 64 + (b.toNat - 0x80)) * 64 + (c.toNat - 0x80))
  | four {a b c d} : 0xF0 ≤ a → a ≤ 0xF4 → (a = 0xF0 → 0x90 ≤ b) → (a = 0xF4 → b ≤ 0x8F) →
      isTail b → isTail c → isTail d →
      Utf8 [a, b, c, d] ((((a.toNat - 0xF0) * 64 + (b.toNat - 0x80)) * 64 +
        (c.toNat - 0x80)) * 64 + (d.toNat - 0x80))

/-- A text of code points in UTF-8. -/
inductive Utf8Text : Bytes → List Nat → Prop where
  | nil : Utf8Text [] []
  | cons {w s n ns} : Utf8 w n → Utf8Text s ns → Utf8Text (w ++ s) (n :: ns)

/-- The letters of the two-character escapes and what they stand for. -/
def SHORT_ESCAPES : List (UInt8 × Nat) :=
  [(0x22, 0x22), (0x5C, 0x5C), (0x2F, 0x2F), (0x62, 0x08), (0x66, 0x0C), (0x6E, 0x0A),
    (0x72, 0x0D), (0x74, 0x09)]

def hexDigit (c : UInt8) : Option Nat :=
  if 0x30 ≤ c ∧ c ≤ 0x39 then some (c.toNat - 0x30)
  else if 0x41 ≤ c ∧ c ≤ 0x46 then some (c.toNat - 0x37)
  else if 0x61 ≤ c ∧ c ≤ 0x66 then some (c.toNat - 0x57)
  else none

/-- One character of a string. An escaped UTF-16 code unit counts as one. -/
inductive Character : Bytes → Nat → Prop where
  | unescaped {w n} : Utf8 w n → 0x20 ≤ n → n ≠ 0x22 → n ≠ 0x5C → Character w n
  | short {e n} : (e, n) ∈ SHORT_ESCAPES → Character [BACKSLASH, e] n
  | unicode {a b c d i j k l} : hexDigit a = some i → hexDigit b = some j → hexDigit c = some k →
      hexDigit d = some l →
      Character [BACKSLASH, 0x75, a, b, c, d] (((i * 16 + j) * 16 + k) * 16 + l)

/-- The characters between the quotes. -/
inductive Decodes : Bytes → List Nat → Prop where
  | nil : Decodes [] []
  | cons {w s n ns} : Character w n → Decodes s ns → Decodes (w ++ s) (n :: ns)

def RfcBody (body : Bytes) : Prop := ∃ ns, Decodes body ns

/-! ## Numbers and words -/

def isDigit (c : UInt8) : Bool := 0x30 ≤ c && c ≤ 0x39

/-- `1*DIGIT`. -/
def Digits (w : Bytes) : Prop := w ≠ [] ∧ ∀ c ∈ w, isDigit c

def IntPart (w : Bytes) : Prop :=
  w = [0x30] ∨ ∃ c ds, w = c :: ds ∧ isDigit c ∧ c ≠ 0x30 ∧ ∀ d ∈ ds, isDigit d

def FracPart (w : Bytes) : Prop := w = [] ∨ ∃ ds, w = 0x2E :: ds ∧ Digits ds

def ExpPart (w : Bytes) : Prop :=
  w = [] ∨ ∃ e sign ds, w = e :: (sign ++ ds) ∧ (e = 0x65 ∨ e = 0x45) ∧
    (sign = [] ∨ sign = [0x2B] ∨ sign = [0x2D]) ∧ Digits ds

def Number (w : Bytes) : Prop :=
  ∃ sign int frac exp, w = sign ++ (int ++ (frac ++ exp)) ∧ (sign = [] ∨ sign = [0x2D]) ∧
    IntPart int ∧ FracPart frac ∧ ExpPart exp

/-- A byte that can stand in a number. -/
def numeric (c : UInt8) : Bool :=
  isDigit c || c = 0x2E || c = 0x65 || c = 0x45 || c = 0x2B || c = 0x2D

/-- A number in front of `rest` ends there, as it does before white space, a comma, a closing
bracket and the end of the text. -/
def Ended (rest : Bytes) : Prop := ∀ c ∈ rest.head?, numeric c = false

/-- `true`, `false` and `null`. -/
def WORDS : List Bytes :=
  [[0x74, 0x72, 0x75, 0x65], [0x66, 0x61, 0x6C, 0x73, 0x65], [0x6E, 0x75, 0x6C, 0x6C]]

/-! ## Values and texts -/

section Grammar

variable (Body : Bytes → Prop)

inductive Leaf : Bytes → Tree → Bytes → Prop where
  | str {body rest} : Body body → Leaf (QUOTE :: (body ++ QUOTE :: rest)) (.str body) rest
  | word {w rest} : w ∈ WORDS → Leaf (w ++ rest) (.scalar w) rest
  | number {w rest} : Number w → Ended rest → Leaf (w ++ rest) (.scalar w) rest

/-- The name of a member up to its colon. -/
inductive Label : Bool → Bytes → Bytes → Bytes → Prop where
  | name {k s rest} : Body k → skipWs s = COLON :: rest →
      Label true (QUOTE :: (k ++ QUOTE :: s)) k rest
  | element {s} : Label false s [] s

/-- The members from the first one to the bracket after the last. -/
inductive Members (named : Bool) (V : Bytes → Tree → Bytes → Prop) :
    Bytes → List (Bytes × Tree) → Bytes → Prop where
  | last {s k s₁ t s₂ rest} : Label Body named s k s₁ → V (skipWs s₁) t s₂ →
      skipWs s₂ = closing named :: rest → Members named V s [(k, t)] rest
  | more {s k s₁ t s₂ s₃ ms rest} : Label Body named s k s₁ → V (skipWs s₁) t s₂ →
      skipWs s₂ = COMMA :: s₃ → Members named V (skipWs s₃) ms rest →
      Members named V s ((k, t) :: ms) rest

inductive Node (V : Bytes → Tree → Bytes → Prop) : Bytes → Tree → Bytes → Prop where
  | empty {named s rest} : skipWs s = closing named :: rest →
      Node V (opening named :: s) (.node named []) rest
  | members {named s ms rest} : Members Body named V (skipWs s) ms rest →
      Node V (opening named :: s) (.node named ms) rest

def Value : Nat → Bytes → Tree → Bytes → Prop
  | 0 => Leaf Body
  | d + 1 => fun s t rest => Leaf Body s t rest ∨ Node Body (Value d) s t rest

def Text (d : Nat) (s : Bytes) (t : Tree) : Prop :=
  ∃ rest, Value Body d (skipWs s) t rest ∧ skipWs rest = []

end Grammar

mutual

/-- The insides of the strings, names among them. -/
def Tree.strings : Tree → List Bytes
  | .scalar _ => []
  | .str body => [body]
  | .node named ms => memberStrings named ms

def memberStrings (named : Bool) : List (Bytes × Tree) → List Bytes
  | [] => []
  | (k, t) :: ms => (if named then [k] else []) ++ (t.strings ++ memberStrings named ms)

end

/-! ## White space -/

theorem skipWs_length (s : Bytes) : (skipWs s).length ≤ s.length :=
  (List.dropWhile_suffix _).length_le

theorem skipWs_of_not_ws {c : UInt8} (solid : isWs c = false) (s : Bytes) :
    skipWs (c :: s) = c :: s := by
  simp [skipWs, solid]

/-- What is left starts with no white space. -/
theorem isWs_of_skipWs {s r : Bytes} {c : UInt8} (left : skipWs s = c :: r) : isWs c = false := by
  induction s with
  | nil => simp [skipWs] at left
  | cons d s ih =>
      cases blank : isWs d with
      | true => exact ih (by simpa [skipWs, blank] using left)
      | false =>
          rw [skipWs_of_not_ws blank] at left
          obtain ⟨rfl, -⟩ := List.cons.inj left
          exact blank

@[simp] theorem skipWs_skipWs (s : Bytes) : skipWs (skipWs s) = skipWs s := by
  cases left : skipWs s with
  | nil => rfl
  | cons c r => exact skipWs_of_not_ws (isWs_of_skipWs left) r

/-! ## Where a number ends -/

theorem numeric_of_isDigit {c : UInt8} (digit : isDigit c = true) : numeric c = true := by
  simp [numeric, digit]

theorem Digits.numeric {w : Bytes} (digits : Digits w) {c : UInt8} (inside : c ∈ w) :
    numeric c = true :=
  numeric_of_isDigit (digits.2 c inside)

theorem IntPart.numeric {w : Bytes} (int : IntPart w) {c : UInt8} (inside : c ∈ w) :
    JsonGrammar.numeric c = true := by
  obtain rfl | ⟨d, ds, rfl, digit, -, digits⟩ := int
  · obtain rfl := List.mem_singleton.mp inside
    rfl
  · obtain rfl | later := List.mem_cons.mp inside
    · exact numeric_of_isDigit digit
    · exact numeric_of_isDigit (digits c later)

theorem FracPart.numeric {w : Bytes} (frac : FracPart w) {c : UInt8} (inside : c ∈ w) :
    JsonGrammar.numeric c = true := by
  obtain rfl | ⟨ds, rfl, digits⟩ := frac
  · simp at inside
  · obtain rfl | later := List.mem_cons.mp inside
    · rfl
    · exact digits.numeric later

theorem ExpPart.numeric {w : Bytes} (exp : ExpPart w) {c : UInt8} (inside : c ∈ w) :
    JsonGrammar.numeric c = true := by
  obtain rfl | ⟨e, sign, ds, rfl, letter, signed, digits⟩ := exp
  · simp at inside
  · rw [List.mem_cons, List.mem_append] at inside
    obtain rfl | inSign | inDigits := inside
    · obtain rfl | rfl := letter <;> rfl
    · obtain rfl | rfl | rfl := signed
      · simp at inSign
      · obtain rfl := List.mem_singleton.mp inSign
        rfl
      · obtain rfl := List.mem_singleton.mp inSign
        rfl
    · exact digits.numeric inDigits

theorem Number.numeric {w : Bytes} (number : Number w) {c : UInt8} (inside : c ∈ w) :
    JsonGrammar.numeric c = true := by
  obtain ⟨sign, int, frac, exp, rfl, signed, isInt, isFrac, isExp⟩ := number
  rw [List.mem_append, List.mem_append, List.mem_append] at inside
  obtain inSign | inInt | inFrac | inExp := inside
  · obtain rfl | rfl := signed
    · simp at inSign
    · obtain rfl := List.mem_singleton.mp inSign
      rfl
  · exact isInt.numeric inInt
  · exact isFrac.numeric inFrac
  · exact isExp.numeric inExp

theorem takeWhile_numeric {w rest : Bytes} (inside : ∀ c ∈ w, numeric c = true)
    (ended : Ended rest) : (w ++ rest).takeWhile numeric = w := by
  rw [List.takeWhile_append_of_pos inside]
  cases rest with
  | nil => simp
  | cons c rest => simp [ended c rfl]

/-- A text has one number in front. -/
theorem Number.unique {w w' r r' : Bytes} (number : Number w) (ended : Ended r)
    (number' : Number w') (ended' : Ended r') (same : w ++ r = w' ++ r') : w = w' ∧ r = r' := by
  have cut := takeWhile_numeric (fun _ => number.numeric) ended
  rw [same, takeWhile_numeric (fun _ => number'.numeric) ended'] at cut
  obtain rfl := cut
  exact ⟨rfl, List.append_cancel_left same⟩

theorem Number.head {w : Bytes} (number : Number w) :
    ∃ c s, w = c :: s ∧ (c = 0x2D ∨ isDigit c = true) := by
  obtain ⟨sign, int, frac, exp, rfl, rfl | rfl, isInt, -, -⟩ := number
  · obtain rfl | ⟨d, ds, rfl, digit, -, -⟩ := isInt
    · exact ⟨_, _, rfl, .inr rfl⟩
    · exact ⟨_, _, rfl, .inr digit⟩
  · exact ⟨_, _, rfl, .inl rfl⟩

/-! ## A text has one tree

The rule for strings has to find one closing quote only. -/

/-- The inside of a string ends at one quote. -/
def Cuts (Body : Bytes → Prop) : Prop :=
  ∀ b b' r r', Body b → Body b' → b ++ QUOTE :: r = b' ++ QUOTE :: r' → b = b' ∧ r = r'

/-- At most one tree and one rest at the front of a text. -/
def Deterministic (V : Bytes → Tree → Bytes → Prop) : Prop :=
  ∀ s t t' r r', V s t r → V s t' r' → t = t' ∧ r = r'

/-- The first byte of a value. -/
def starts (c : UInt8) : Bool :=
  c = QUOTE || c = 0x2D || isDigit c || c = 0x74 || c = 0x66 || c = 0x6E || c = 0x7B || c = 0x5B

def Headed (V : Bytes → Tree → Bytes → Prop) : Prop :=
  ∀ s t r, V s t r → ∃ c s', s = c :: s' ∧ starts c = true

variable {Body : Bytes → Prop} {V : Bytes → Tree → Bytes → Prop}

theorem Number.starts {w : Bytes} (number : Number w) :
    ∃ c s, w = c :: s ∧ (c = 0x2D ∨ isDigit c = true) ∧ JsonGrammar.starts c = true := by
  obtain ⟨c, s, rfl, first⟩ := number.head
  refine ⟨c, s, rfl, first, ?_⟩
  obtain rfl | digit := first
  · rfl
  · simp [JsonGrammar.starts, digit]

theorem Leaf.headed : Headed (Leaf Body) := by
  intro s t r leaf
  cases leaf with
  | str inside => exact ⟨_, _, rfl, rfl⟩
  | word known =>
      simp only [WORDS, List.mem_cons, List.not_mem_nil, or_false] at known
      obtain rfl | rfl | rfl := known
      · exact ⟨_, _, rfl, rfl⟩
      · exact ⟨_, _, rfl, rfl⟩
      · exact ⟨_, _, rfl, rfl⟩
  | number number ended =>
      obtain ⟨c, w, rfl, -, first⟩ := number.starts
      exact ⟨c, _, rfl, first⟩

theorem Leaf.not_container {s r : Bytes} {named : Bool} {ms : List (Bytes × Tree)}
    (leaf : Leaf Body s (.node named ms) r) : False := by
  cases leaf

theorem Node.opens {s r : Bytes} {t : Tree} (node : Node Body V s t r) :
    ∃ named ms u, t = .node named ms ∧ s = opening named :: u := by
  cases node with
  | empty closes => exact ⟨_, _, _, rfl, rfl⟩
  | members inside => exact ⟨_, _, _, rfl, rfl⟩

theorem Node.headed : Headed (Node Body V) := by
  intro s t r node
  obtain ⟨named, ms, u, -, rfl⟩ := node.opens
  refine ⟨_, _, rfl, ?_⟩
  cases named <;> decide

theorem Value.headed (d : Nat) : Headed (Value Body d) := by
  cases d with
  | zero => exact Leaf.headed
  | succ d =>
      rintro s t r (leaf | node)
      · exact Leaf.headed s t r leaf
      · exact Node.headed s t r node

theorem Leaf.unique (cuts : Cuts Body) : Deterministic (Leaf Body) := by
  intro s t t' r r' leaf leaf'
  generalize same : s = u at leaf'
  cases leaf with
  | str inside =>
      cases leaf' with
      | str inside' =>
          obtain ⟨rfl, rfl⟩ := cuts _ _ _ _ inside inside' (List.cons.inj same).2
          exact ⟨rfl, rfl⟩
      | word known =>
          simp only [WORDS, List.mem_cons, List.not_mem_nil, or_false] at known
          obtain rfl | rfl | rfl := known <;> simp [QUOTE] at same
      | number number ended =>
          obtain ⟨c, w, rfl, rfl | digit, -⟩ := number.starts
          · simp [QUOTE] at same
          · obtain ⟨rfl, -⟩ := List.cons.inj same
            simp [QUOTE, isDigit] at digit
  | word known =>
      simp only [WORDS, List.mem_cons, List.not_mem_nil, or_false] at known
      cases leaf' with
      | str inside' => obtain rfl | rfl | rfl := known <;> simp [QUOTE] at same
      | word known' =>
          simp only [WORDS, List.mem_cons, List.not_mem_nil, or_false] at known'
          obtain rfl | rfl | rfl := known <;> obtain rfl | rfl | rfl := known' <;>
            simp at same ⊢ <;> exact same
      | number number ended =>
          obtain ⟨c, w, rfl, first, -⟩ := number.starts
          obtain rfl | rfl | rfl := known <;> obtain ⟨rfl, -⟩ := List.cons.inj same <;>
            simp [isDigit] at first
  | number number ended =>
      cases leaf' with
      | str inside' =>
          obtain ⟨c, w, rfl, rfl | digit, -⟩ := number.starts
          · simp [QUOTE] at same
          · obtain ⟨rfl, -⟩ := List.cons.inj same
            simp [QUOTE, isDigit] at digit
      | word known =>
          simp only [WORDS, List.mem_cons, List.not_mem_nil, or_false] at known
          obtain ⟨c, w, rfl, first, -⟩ := number.starts
          obtain rfl | rfl | rfl := known <;> obtain ⟨rfl, -⟩ := List.cons.inj same <;>
            simp [isDigit] at first
      | number number' ended' =>
          obtain ⟨rfl, rfl⟩ := number.unique ended number' ended' same
          exact ⟨rfl, rfl⟩

theorem Label.unique (cuts : Cuts Body) {named : Bool} {s k k' r r' : Bytes}
    (label : Label Body named s k r) (label' : Label Body named s k' r') : k = k' ∧ r = r' := by
  generalize same : s = u at label'
  cases label with
  | element =>
      cases label' with
      | element => exact ⟨rfl, same⟩
  | name inside colon =>
      cases label' with
      | name inside' colon' =>
          obtain ⟨rfl, rfl⟩ := cuts _ _ _ _ inside inside' (List.cons.inj same).2
          rw [colon] at colon'
          exact ⟨rfl, (List.cons.inj colon').2⟩

theorem closing_ne_comma (named : Bool) : closing named ≠ COMMA := by
  cases named <;> decide

theorem Members.unique (cuts : Cuts Body) (unique : Deterministic V) {named : Bool}
    {s r r' : Bytes} {ms ms' : List (Bytes × Tree)} (members : Members Body named V s ms r)
    (members' : Members Body named V s ms' r') : ms = ms' ∧ r = r' := by
  induction members generalizing ms' r' with
  | last label value closes =>
      cases members' with
      | last label' value' closes' =>
          obtain ⟨rfl, rfl⟩ := label.unique cuts label'
          obtain ⟨rfl, rfl⟩ := unique _ _ _ _ _ value value'
          rw [closes] at closes'
          exact ⟨rfl, (List.cons.inj closes').2⟩
      | more label' value' comma rest =>
          obtain ⟨rfl, rfl⟩ := label.unique cuts label'
          obtain ⟨rfl, rfl⟩ := unique _ _ _ _ _ value value'
          rw [closes] at comma
          exact absurd (List.cons.inj comma).1 (closing_ne_comma named)
  | more label value comma rest ih =>
      cases members' with
      | last label' value' closes =>
          obtain ⟨rfl, rfl⟩ := label.unique cuts label'
          obtain ⟨rfl, rfl⟩ := unique _ _ _ _ _ value value'
          rw [comma] at closes
          exact absurd (List.cons.inj closes).1.symm (closing_ne_comma named)
      | more label' value' comma' rest' =>
          obtain ⟨rfl, rfl⟩ := label.unique cuts label'
          obtain ⟨rfl, rfl⟩ := unique _ _ _ _ _ value value'
          rw [comma] at comma'
          obtain ⟨-, rfl⟩ := List.cons.inj comma'
          obtain ⟨rfl, rfl⟩ := ih rest'
          exact ⟨rfl, rfl⟩

theorem closing_not_starts (named : Bool) : starts (closing named) = false := by
  cases named <;> decide

/-- Members do not start with a closing bracket. -/
theorem Members.not_closed (headed : Headed V) {named : Bool} {s rest r : Bytes}
    {ms : List (Bytes × Tree)} (closes : skipWs s = closing named :: rest)
    (members : Members Body named V (skipWs s) ms r) : False := by
  have label {k s₁ : Bytes} {t : Tree} {s₂ : Bytes} (label : Label Body named (skipWs s) k s₁)
      (value : V (skipWs s₁) t s₂) : False := by
    rw [closes] at label
    generalize same : closing named :: rest = u at label
    cases label with
    | name inside colon =>
        have first := closing_not_starts true
        rw [(List.cons.inj same).1] at first
        exact absurd first (by decide)
    | element =>
        rw [← same, ← closes, skipWs_skipWs, closes] at value
        obtain ⟨c, s', cut, first⟩ := headed _ _ _ value
        rw [← (List.cons.inj cut).1, closing_not_starts] at first
        exact Bool.false_ne_true first
  cases members with
  | last first value _ => exact label first value
  | more first value _ _ => exact label first value

theorem Members.cons (headed : Headed V) {named : Bool} {s r : Bytes} {ms : List (Bytes × Tree)}
    (members : Members Body named V s ms r) : ∃ c u, s = c :: u := by
  have label {k s₁ : Bytes} {t : Tree} {s₂ : Bytes} (label : Label Body named s k s₁)
      (value : V (skipWs s₁) t s₂) : ∃ c u, s = c :: u := by
    cases label with
    | name inside colon => exact ⟨_, _, rfl⟩
    | element =>
        obtain ⟨c, u, cut, -⟩ := headed _ _ _ value
        cases s with
        | nil => simp [skipWs] at cut
        | cons c s => exact ⟨c, s, rfl⟩
  cases members with
  | last first value _ => exact label first value
  | more first value _ _ => exact label first value

theorem opening_inj {a b : Bool} (same : opening a = opening b) : a = b := by
  revert a b
  decide

theorem Node.unique (cuts : Cuts Body) (headed : Headed V) (unique : Deterministic V) :
    Deterministic (Node Body V) := by
  intro s t t' r r' node node'
  generalize same : s = u at node'
  cases node with
  | empty closes =>
      cases node' with
      | empty closes' =>
          obtain ⟨bracket, rfl⟩ := List.cons.inj same
          obtain rfl := opening_inj bracket
          rw [closes] at closes'
          exact ⟨rfl, (List.cons.inj closes').2⟩
      | members inside =>
          obtain ⟨bracket, rfl⟩ := List.cons.inj same
          obtain rfl := opening_inj bracket
          exact (inside.not_closed headed closes).elim
  | members inside =>
      cases node' with
      | empty closes =>
          obtain ⟨bracket, rfl⟩ := List.cons.inj same
          obtain rfl := opening_inj bracket
          exact (inside.not_closed headed closes).elim
      | members inside' =>
          obtain ⟨bracket, rfl⟩ := List.cons.inj same
          obtain rfl := opening_inj bracket
          obtain ⟨rfl, rfl⟩ := inside.unique cuts unique inside'
          exact ⟨rfl, rfl⟩

/-- A leaf does not start with a bracket. -/
theorem Leaf.not_node {s r r' : Bytes} {t t' : Tree} (leaf : Leaf Body s t r)
    (node : Node Body V s t' r') : False := by
  obtain ⟨named, -, u, -, opens⟩ := node.opens
  have bracket : opening named ≠ QUOTE ∧ opening named ≠ 0x2D ∧ isDigit (opening named) = false ∧
      opening named ≠ 0x74 ∧ opening named ≠ 0x66 ∧ opening named ≠ 0x6E := by
    cases named <;> decide
  cases leaf with
  | str inside => exact bracket.1 (List.cons.inj opens).1.symm
  | word known =>
      simp only [WORDS, List.mem_cons, List.not_mem_nil, or_false] at known
      obtain rfl | rfl | rfl := known
      · exact bracket.2.2.2.1 (List.cons.inj opens).1.symm
      · exact bracket.2.2.2.2.1 (List.cons.inj opens).1.symm
      · exact bracket.2.2.2.2.2 (List.cons.inj opens).1.symm
  | number number ended =>
      obtain ⟨c, w, rfl, first, -⟩ := number.starts
      obtain ⟨rfl, -⟩ := List.cons.inj opens
      obtain minus | digit := first
      · exact bracket.2.1 minus
      · exact Bool.false_ne_true (bracket.2.2.1.symm.trans digit)

theorem Value.unique (cuts : Cuts Body) (d : Nat) : Deterministic (Value Body d) := by
  induction d with
  | zero => exact Leaf.unique cuts
  | succ d ih =>
      rintro s t t' r r' (leaf | node) (leaf' | node')
      · exact Leaf.unique cuts s t t' r r' leaf leaf'
      · exact (leaf.not_node node').elim
      · exact (leaf'.not_node node).elim
      · exact Node.unique cuts (Value.headed d) ih s t t' r r' node node'

theorem Text.unique (cuts : Cuts Body) {d : Nat} {s : Bytes} {t t' : Tree}
    (text : Text Body d s t) (text' : Text Body d s t') : t = t' := by
  obtain ⟨r, value, -⟩ := text
  obtain ⟨r', value', -⟩ := text'
  exact (Value.unique cuts d _ _ _ _ _ value value').1

/-! ## Two rules for the inside of a string -/

variable {Strict : Bytes → Prop} {V' : Bytes → Tree → Bytes → Prop}

/-- What the strict rule reads is what the wide one reads with strict strings. -/
def Narrows (Strict : Bytes → Prop) (V' V : Bytes → Tree → Bytes → Prop) : Prop :=
  ∀ s t r, V' s t r ↔ V s t r ∧ ∀ b ∈ t.strings, Strict b

theorem Leaf.narrows (sub : ∀ b, Strict b → Body b) :
    Narrows Strict (Leaf Strict) (Leaf Body) := by
  intro s t r
  constructor
  · intro leaf
    cases leaf with
    | str inside => exact ⟨.str (sub _ inside), by simpa [Tree.strings] using inside⟩
    | word known => exact ⟨.word known, by simp [Tree.strings]⟩
    | number number ended => exact ⟨.number number ended, by simp [Tree.strings]⟩
  · rintro ⟨leaf, strict⟩
    cases leaf with
    | str inside => exact .str (strict _ (by simp [Tree.strings]))
    | word known => exact .word known
    | number number ended => exact .number number ended

theorem Label.narrows (sub : ∀ b, Strict b → Body b) {named : Bool} {s k r : Bytes} :
    Label Strict named s k r ↔ Label Body named s k r ∧ (named = true → Strict k) := by
  constructor
  · intro label
    cases label with
    | name inside colon => exact ⟨.name (sub _ inside) colon, fun _ => inside⟩
    | element => exact ⟨.element, by simp⟩
  · rintro ⟨label, strict⟩
    cases label with
    | name inside colon => exact .name (strict rfl) colon
    | element => exact .element

theorem memberStrings_cons {named : Bool} {k : Bytes} {t : Tree} {ms : List (Bytes × Tree)} :
    (∀ b ∈ memberStrings named ((k, t) :: ms), Strict b) ↔
      (named = true → Strict k) ∧ (∀ b ∈ t.strings, Strict b) ∧
        ∀ b ∈ memberStrings named ms, Strict b := by
  cases named <;> simp [memberStrings, or_imp, forall_and]

theorem Members.narrows (sub : ∀ b, Strict b → Body b) (narrows : Narrows Strict V' V)
    {named : Bool} {s r : Bytes} {ms : List (Bytes × Tree)} :
    Members Strict named V' s ms r ↔
      Members Body named V s ms r ∧ ∀ b ∈ memberStrings named ms, Strict b := by
  constructor
  · intro members
    induction members with
    | last label value closes =>
        obtain ⟨wide, name⟩ := (Label.narrows sub).mp label
        obtain ⟨read, strict⟩ := (narrows _ _ _).mp value
        refine ⟨.last wide read closes, memberStrings_cons.mpr ⟨name, strict, ?_⟩⟩
        simp [memberStrings]
    | more label value comma rest ih =>
        obtain ⟨wide, name⟩ := (Label.narrows sub).mp label
        obtain ⟨read, strict⟩ := (narrows _ _ _).mp value
        exact ⟨.more wide read comma ih.1, memberStrings_cons.mpr ⟨name, strict, ih.2⟩⟩
  · rintro ⟨members, strict⟩
    induction members with
    | last label value closes =>
        obtain ⟨name, inside, -⟩ := memberStrings_cons.mp strict
        exact .last ((Label.narrows sub).mpr ⟨label, name⟩) ((narrows _ _ _).mpr ⟨value, inside⟩)
          closes
    | more label value comma rest ih =>
        obtain ⟨name, inside, others⟩ := memberStrings_cons.mp strict
        exact .more ((Label.narrows sub).mpr ⟨label, name⟩) ((narrows _ _ _).mpr ⟨value, inside⟩)
          comma (ih others)

theorem Node.narrows (sub : ∀ b, Strict b → Body b) (narrows : Narrows Strict V' V) :
    Narrows Strict (Node Strict V') (Node Body V) := by
  intro s t r
  constructor
  · intro node
    cases node with
    | empty closes => exact ⟨.empty closes, by simp [Tree.strings, memberStrings]⟩
    | members inside =>
        obtain ⟨wide, strict⟩ := (Members.narrows sub narrows).mp inside
        exact ⟨.members wide, by simpa only [Tree.strings] using strict⟩
  · rintro ⟨node, strict⟩
    cases node with
    | empty closes => exact .empty closes
    | members inside =>
        rw [Tree.strings] at strict
        exact .members ((Members.narrows sub narrows).mpr ⟨inside, strict⟩)

theorem Value.narrows (sub : ∀ b, Strict b → Body b) (d : Nat) :
    Narrows Strict (Value Strict d) (Value Body d) := by
  induction d with
  | zero => exact Leaf.narrows sub
  | succ d ih =>
      intro s t r
      simp only [Value, Leaf.narrows sub s t r, Node.narrows sub ih s t r, or_and_right]

theorem Text.narrows (sub : ∀ b, Strict b → Body b) {d : Nat} {s : Bytes} {t : Tree} :
    Text Strict d s t ↔ Text Body d s t ∧ ∀ b ∈ t.strings, Strict b := by
  simp only [Text, Value.narrows sub d _ _ _]
  constructor
  · rintro ⟨rest, ⟨value, strict⟩, ends⟩
    exact ⟨⟨rest, value, ends⟩, strict⟩
  · rintro ⟨⟨rest, value, ends⟩, strict⟩
    exact ⟨rest, ⟨value, strict⟩, ends⟩

/-! ## Nesting -/

theorem Members.mono (wider : ∀ s t r, V s t r → V' s t r) {named : Bool} {s r : Bytes}
    {ms : List (Bytes × Tree)} (members : Members Body named V s ms r) :
    Members Body named V' s ms r := by
  induction members with
  | last label value closes => exact .last label (wider _ _ _ value) closes
  | more label value comma _ ih => exact .more label (wider _ _ _ value) comma ih

theorem Node.mono (wider : ∀ s t r, V s t r → V' s t r) {s r : Bytes} {t : Tree}
    (node : Node Body V s t r) : Node Body V' s t r := by
  cases node with
  | empty closes => exact .empty closes
  | members inside => exact .members (inside.mono wider)

/-- What is read under one nesting cap is read under a larger one. -/
theorem Value.deepen {d e : Nat} (le : d ≤ e) {s r : Bytes} {t : Tree}
    (value : Value Body d s t r) :
    Value Body e s t r := by
  have deeper (d : Nat) : ∀ s t r, Value Body d s t r → Value Body (d + 1) s t r := by
    induction d with
    | zero => exact fun _ _ _ => .inl
    | succ d ih => exact fun _ _ _ => Or.imp_right (Node.mono ih)
  induction le with
  | refl => exact value
  | step _ ih => exact deeper _ _ _ _ ih

theorem Text.deepen {d e : Nat} (le : d ≤ e) {s : Bytes} {t : Tree} (text : Text Body d s t) :
    Text Body e s t := by
  obtain ⟨rest, value, ends⟩ := text
  exact ⟨rest, value.deepen le, ends⟩

/-! ## The widest rule for the inside of a string -/

/-- Any bytes, with each quote and each backslash behind a backslash. -/
inductive Quoted : Bytes → Prop where
  | nil : Quoted []
  | escaped {c s} : Quoted s → Quoted (BACKSLASH :: c :: s)
  | plain {c s} : c ≠ BACKSLASH → c ≠ QUOTE → Quoted s → Quoted (c :: s)

theorem quoted_cuts : Cuts Quoted := by
  intro b b' r r' quoted quoted' same
  induction quoted generalizing b' with
  | nil =>
      cases quoted' with
      | nil => exact ⟨rfl, (List.cons.inj same).2⟩
      | escaped => exact absurd (List.cons.inj same).1 (by decide)
      | plain _ quote => exact absurd (List.cons.inj same).1.symm quote
  | escaped _ ih =>
      cases quoted' with
      | nil => exact absurd (List.cons.inj same).1 (by decide)
      | escaped inside =>
          obtain ⟨-, behind⟩ := List.cons.inj same
          obtain ⟨rfl, later⟩ := List.cons.inj behind
          obtain ⟨rfl, rest⟩ := ih _ inside later
          exact ⟨rfl, rest⟩
      | plain slash => exact absurd (List.cons.inj same).1.symm slash
  | plain slash quote _ ih =>
      cases quoted' with
      | nil => exact absurd (List.cons.inj same).1 quote
      | escaped => exact absurd (List.cons.inj same).1 slash
      | plain _ _ inside =>
          obtain ⟨rfl, later⟩ := List.cons.inj same
          obtain ⟨rfl, rest⟩ := ih _ inside later
          exact ⟨rfl, rest⟩

theorem Quoted.append {w s : Bytes} (front : Quoted w) (back : Quoted s) : Quoted (w ++ s) := by
  induction front with
  | nil => exact back
  | escaped _ ih => exact .escaped ih
  | plain slash quote _ ih => exact .plain slash quote ih

/-- Bytes that are no quote and no backslash. -/
theorem Quoted.of_plain {w : Bytes} (plain : ∀ c ∈ w, c ≠ BACKSLASH ∧ c ≠ QUOTE) : Quoted w := by
  induction w with
  | nil => exact .nil
  | cons c w ih =>
      obtain ⟨⟨slash, quote⟩, rest⟩ := List.forall_mem_cons.mp plain
      exact .plain slash quote (ih rest)

theorem isTail_high {c : UInt8} (tail : isTail c) : 0x80 ≤ c := by
  simp only [isTail, Bool.and_eq_true, decide_eq_true_eq] at tail
  exact tail.1

/-- The bytes of a character outside ASCII are. -/
theorem Utf8.high {w : Bytes} {n : Nat} (utf8 : Utf8 w n) (outside : ∀ a, w = [a] → ¬ a < 0x80) :
    ∀ c ∈ w, 0x80 ≤ c := by
  cases utf8 with
  | one low => exact absurd low (outside _ rfl)
  | two low high tail =>
      simp only [List.forall_mem_cons, List.not_mem_nil, false_implies, implies_true, and_true]
      exact ⟨UInt8.le_trans (by decide) low, isTail_high tail⟩
  | three low high _ _ tail tail' =>
      simp only [List.forall_mem_cons, List.not_mem_nil, false_implies, implies_true, and_true]
      exact ⟨UInt8.le_trans (by decide) low, isTail_high tail, isTail_high tail'⟩
  | four low high _ _ tail tail' tail'' =>
      simp only [List.forall_mem_cons, List.not_mem_nil, false_implies, implies_true, and_true]
      exact ⟨UInt8.le_trans (by decide) low, isTail_high tail, isTail_high tail',
        isTail_high tail''⟩

theorem Utf8.value_high {w : Bytes} {n : Nat} (utf8 : Utf8 w n) (high : ∀ c ∈ w, 0x80 ≤ c) :
    0x80 ≤ n := by
  cases utf8 with
  | one low => exact absurd low (UInt8.not_lt.mpr (high _ List.mem_cons_self))
  | two low _ _ =>
      have : 0xC2 ≤ _ := UInt8.le_iff_toNat_le.mp low
      omega
  | @three a b c low _ lead _ _ _ =>
      have first : 0xE0 ≤ a.toNat := UInt8.le_iff_toNat_le.mp low
      by_cases least : a = 0xE0
      · have second : 0xA0 ≤ b.toNat := UInt8.le_iff_toNat_le.mp (lead least)
        omega
      · have other : a.toNat ≠ 0xE0 := fun same => least (UInt8.toNat_inj.mp same)
        omega
  | @four a b c d low _ lead _ _ _ _ =>
      have first : 0xF0 ≤ a.toNat := UInt8.le_iff_toNat_le.mp low
      by_cases least : a = 0xF0
      · have second : 0x90 ≤ b.toNat := UInt8.le_iff_toNat_le.mp (lead least)
        omega
      · have other : a.toNat ≠ 0xF0 := fun same => least (UInt8.toNat_inj.mp same)
        omega

theorem hexDigit_plain {c : UInt8} {i : Nat} (digit : hexDigit c = some i) :
    (c ≠ BACKSLASH ∧ c ≠ QUOTE) ∧ 0x20 ≤ c := by
  refine ⟨⟨?_, ?_⟩, ?_⟩
  · rintro rfl
    simp [hexDigit, BACKSLASH] at digit
  · rintro rfl
    simp [hexDigit, QUOTE] at digit
  · simp only [hexDigit] at digit
    split_ifs at digit with decimal upper lower
    · exact UInt8.le_trans (by decide) decimal.1
    · exact UInt8.le_trans (by decide) upper.1
    · exact UInt8.le_trans (by decide) lower.1

theorem Character.quoted {w : Bytes} {n : Nat} (character : Character w n) :
    Quoted w ∧ ∀ c ∈ w, 0x20 ≤ c := by
  cases character with
  | unescaped utf8 printable quote slash =>
      by_cases ascii : ∃ a, w = [a] ∧ a < 0x80
      · obtain ⟨a, rfl, -⟩ := ascii
        cases utf8 with
        | one low =>
            refine ⟨.of_plain ?_, ?_⟩
            · simp only [List.forall_mem_cons, List.not_mem_nil, false_implies, implies_true,
                and_true]
              exact ⟨fun same => slash (by rw [same]; rfl), fun same => quote (by rw [same]; rfl)⟩
            · simpa [UInt8.le_iff_toNat_le] using printable
      · have high : ∀ c ∈ w, 0x80 ≤ c :=
          utf8.high fun a same low => ascii ⟨a, same, low⟩
        refine ⟨.of_plain ?_, fun c inside => UInt8.le_trans (by decide) (high c inside)⟩
        intro c inside
        exact ⟨fun same => absurd (same ▸ high c inside) (by decide),
          fun same => absurd (same ▸ high c inside) (by decide)⟩
  | @short e _ known =>
      refine ⟨.escaped .nil, ?_⟩
      have printable : ∀ p ∈ SHORT_ESCAPES, 0x20 ≤ p.1 := by decide
      simp only [List.forall_mem_cons, List.not_mem_nil, false_implies, implies_true, and_true]
      exact ⟨by decide, printable _ known⟩
  | unicode a b c d =>
      obtain ⟨⟨plainA, lowA⟩, plainB, lowB⟩ := And.intro (hexDigit_plain a) (hexDigit_plain b)
      obtain ⟨⟨plainC, lowC⟩, plainD, lowD⟩ := And.intro (hexDigit_plain c) (hexDigit_plain d)
      constructor
      · refine .escaped (.of_plain ?_)
        simp only [List.forall_mem_cons, List.not_mem_nil, false_implies, implies_true, and_true]
        exact ⟨plainA, plainB, plainC, plainD⟩
      · simp only [List.forall_mem_cons, List.not_mem_nil, false_implies, implies_true, and_true]
        exact ⟨by decide, by decide, lowA, lowB, lowC, lowD⟩

/-- A string of the RFC is quoted, and has no control character as it is. -/
theorem RfcBody.quoted {body : Bytes} (rfc : RfcBody body) :
    Quoted body ∧ ∀ c ∈ body, 0x20 ≤ c := by
  obtain ⟨ns, decodes⟩ := rfc
  induction decodes with
  | nil => exact ⟨.nil, by simp⟩
  | cons first _ ih =>
      obtain ⟨quoted, printable⟩ := first.quoted
      refine ⟨quoted.append ih.1, ?_⟩
      intro c inside
      exact (List.mem_append.mp inside).elim (printable c) (ih.2 c)

end JsonGrammar
