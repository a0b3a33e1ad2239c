import Thesada.Library.JsonGrammar

/-!
# Objects that are printed member by member

A format string with the names in it and no white space prints one object of strings and numbers.
Where the arguments are bodies and lexemes of the RFC, the text has one tree, with these members in
this order.
-/

namespace JsonGrammar

/-- An argument of the format string. -/
inductive Printed where
  | str (body : Bytes)
  | number (lexeme : Bytes)

namespace Printed

def bytes : Printed → Bytes
  | .str body => QUOTE :: (body ++ [QUOTE])
  | .number lexeme => lexeme

def tree : Printed → Tree
  | .str body => .str body
  | .number lexeme => .scalar lexeme

def Fits (Body : Bytes → Prop) : Printed → Prop
  | .str body => Body body
  | .number lexeme => Number lexeme

end Printed

def printedMember (m : Bytes × Printed) : Bytes :=
  QUOTE :: (m.1 ++ QUOTE :: COLON :: m.2.bytes)

/-- What follows the first member. -/
def printedMore (ms : List (Bytes × Printed)) : Bytes :=
  ms.flatMap fun m => COMMA :: printedMember m

def printedObject (m : Bytes × Printed) (ms : List (Bytes × Printed)) : Bytes :=
  opening true :: (printedMember m ++ (printedMore ms ++ [closing true]))

def memberTree (m : Bytes × Printed) : Bytes × Tree := (m.1, m.2.tree)

/-- The name and the argument of a member are what stands there in a text. -/
def MemberFits (Body : Bytes → Prop) (m : Bytes × Printed) : Prop := Body m.1 ∧ m.2.Fits Body

/-! ## The tree -/

variable {Body : Bytes → Prop}

theorem isWs_of_starts {c : UInt8} (first : starts c = true) : isWs c = false := by
  simp only [starts, isDigit, Bool.or_eq_true, Bool.and_eq_true, decide_eq_true_eq, or_assoc]
    at first
  obtain rfl | rfl | ⟨low, -⟩ | rfl | rfl | rfl | rfl | rfl := first
  any_goals decide
  · have space (d : UInt8) (below : d < 0x30) : c ≠ d := fun same =>
      absurd (same ▸ low) (UInt8.not_le.mpr below)
    simp [isWs, space 0x20 (by decide), space 0x09 (by decide), space 0x0A (by decide),
      space 0x0D (by decide)]

/-- An argument before what no number goes on with. -/
theorem Printed.leaf {p : Printed} (fits : p.Fits Body) {rest : Bytes} (ended : Ended rest) :
    Value Body 0 (skipWs (p.bytes ++ rest)) p.tree rest := by
  cases p with
  | str body =>
      have cut : (Printed.str body).bytes ++ rest = QUOTE :: (body ++ QUOTE :: rest) := by
        simp [Printed.bytes]
      rw [cut, skipWs_of_not_ws rfl]
      exact .str fits
  | number lexeme =>
      obtain ⟨c, s, same, -, first⟩ := Number.starts fits
      have cut : (Printed.number lexeme).bytes ++ rest = c :: (s ++ rest) := by
        rw [Printed.bytes, same, List.cons_append]
      rw [cut, skipWs_of_not_ws (isWs_of_starts first), ← List.cons_append, ← same]
      exact .number fits ended

theorem printedMore_members (m : Bytes × Printed) (ms : List (Bytes × Printed)) (rest : Bytes)
    (fits : ∀ n ∈ m :: ms, MemberFits Body n) :
    Members Body true (Value Body 0)
      (printedMember m ++ (printedMore ms ++ closing true :: rest)) ((m :: ms).map memberTree)
      rest := by
  induction ms generalizing m with
  | nil =>
      obtain ⟨name, value⟩ := fits m List.mem_cons_self
      have cut : printedMember m ++ (printedMore [] ++ closing true :: rest) =
          QUOTE :: (m.1 ++ QUOTE :: COLON :: (m.2.bytes ++ closing true :: rest)) := by
        simp [printedMember, printedMore]
      rw [cut]
      exact .last (.name name rfl) (Printed.leaf value (by simp [Ended]; decide)) rfl
  | cons n ms ih =>
      obtain ⟨name, value⟩ := fits m List.mem_cons_self
      have cut : printedMember m ++ (printedMore (n :: ms) ++ closing true :: rest) =
          QUOTE :: (m.1 ++ QUOTE :: COLON :: (m.2.bytes ++
            COMMA :: (printedMember n ++ (printedMore ms ++ closing true :: rest)))) := by
        simp [printedMember, printedMore]
      rw [cut]
      refine .more (.name name rfl) (Printed.leaf value (by simp [Ended]; decide)) rfl ?_
      have quoted : skipWs (printedMember n ++ (printedMore ms ++ closing true :: rest)) =
          printedMember n ++ (printedMore ms ++ closing true :: rest) := by
        rw [printedMember, List.cons_append]
        exact skipWs_of_not_ws rfl _
      rw [quoted]
      exact ih n fun k mem => fits k (List.mem_cons_of_mem m mem)

theorem printedObject_text (m : Bytes × Printed) (ms : List (Bytes × Printed))
    (fits : ∀ n ∈ m :: ms, MemberFits Body n) :
    Text Body 1 (printedObject m ms) (.node true ((m :: ms).map memberTree)) := by
  refine ⟨[], .inr ?_, rfl⟩
  rw [printedObject, skipWs_of_not_ws rfl]
  refine .members ?_
  have quoted : skipWs (printedMember m ++ (printedMore ms ++ [closing true])) =
      printedMember m ++ (printedMore ms ++ [closing true]) := by
    rw [printedMember, List.cons_append]
    exact skipWs_of_not_ws rfl _
  rw [quoted]
  exact printedMore_members m ms [] fits

/-! ## No other tree -/

theorem MemberFits.quoted {m : Bytes × Printed} (fits : MemberFits RfcBody m) :
    MemberFits Quoted m := by
  obtain ⟨k, p⟩ := m
  cases p with
  | str body => exact ⟨fits.1.quoted.1, RfcBody.quoted fits.2 |>.1⟩
  | number lexeme => exact ⟨fits.1.quoted.1, fits.2⟩

/-- A printed object is text of the RFC, and has no second reading. -/
theorem printedObject_reads (m : Bytes × Printed) (ms : List (Bytes × Printed))
    (fits : ∀ n ∈ m :: ms, MemberFits RfcBody n) {d : Nat} {t : Tree} :
    Text RfcBody (d + 1) (printedObject m ms) t ↔ t = .node true ((m :: ms).map memberTree) := by
  constructor
  · intro text
    have wide := ((Text.narrows fun _ rfc => rfc.quoted.1).mp text).1
    exact Text.unique quoted_cuts wide
      ((printedObject_text m ms fun n mem => (fits n mem).quoted).deepen (Nat.le_add_left 1 d))
  · rintro rfl
    exact (printedObject_text m ms fits).deepen (Nat.le_add_left 1 d)

end JsonGrammar
