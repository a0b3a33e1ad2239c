import Thesada.Library.Varint

/-!
# The protobuf wire format

A message is a row of fields. A field is a tag, the varint of its number and its wire type, and a
value that the wire type delimits. Varints have up to ten bytes and need not be the shortest.
Groups, which the format has withdrawn, are left out.
-/

namespace ProtoWire

open Varint

inductive WireValue where
  | varint (bytes : List UInt8)
  | fixed64 (bytes : List UInt8)
  /-- A length, as the varint it is written as, and as many bytes. -/
  | delimited (length : List UInt8) (bytes : List UInt8)
  | fixed32 (bytes : List UInt8)

namespace WireValue

def wireType : WireValue → Nat
  | .varint _ => 0
  | .fixed64 _ => 1
  | .delimited .. => 2
  | .fixed32 _ => 5

theorem wireType_lt (v : WireValue) : v.wireType < 8 := by
  cases v <;> simp [wireType]

def bytes : WireValue → List UInt8
  | .varint bytes => bytes
  | .fixed64 bytes => bytes
  | .delimited length bytes => length ++ bytes
  | .fixed32 bytes => bytes

/-- A varint of at most `groups` bytes and 64 bits. -/
def FitsVarint (groups : Nat) (bytes : List UInt8) : Prop :=
  IsVarint bytes ∧ bytes.length ≤ groups ∧ Varint.value bytes < 2 ^ 64

def WellFormed (groups : Nat) : WireValue → Prop
  | .varint bytes => FitsVarint groups bytes
  | .fixed64 bytes => bytes.length = 8
  | .delimited length bytes => FitsVarint groups length ∧ Varint.value length = bytes.length
  | .fixed32 bytes => bytes.length = 4

instance (groups : Nat) (bytes : List UInt8) : Decidable (FitsVarint groups bytes) :=
  inferInstanceAs (Decidable (_ ∧ _ ∧ _))

instance WellFormed.decidable (groups : Nat) : ∀ v : WireValue, Decidable (v.WellFormed groups)
  | .varint bytes => inferInstanceAs (Decidable (FitsVarint groups bytes))
  | .fixed64 bytes => inferInstanceAs (Decidable (bytes.length = 8))
  | .delimited length bytes =>
      inferInstanceAs (Decidable (FitsVarint groups length ∧ Varint.value length = bytes.length))
  | .fixed32 bytes => inferInstanceAs (Decidable (bytes.length = 4))

end WireValue

structure Field where
  number : Nat
  tag : List UInt8
  value : WireValue

namespace Field

def bytes (f : Field) : List UInt8 := f.tag ++ f.value.bytes

/-- A field of a number the format allows, with varints of at most `groups` bytes. -/
structure WellFormed (groups : Nat) (f : Field) : Prop where
  number : 1 ≤ f.number ∧ f.number < 2 ^ 29
  tag : WireValue.FitsVarint groups f.tag
  tag_value : Varint.value f.tag = 8 * f.number + f.value.wireType
  value : f.value.WellFormed groups

end Field

/-- The bytes of a message. -/
def message (fields : List Field) : List UInt8 := fields.flatMap Field.bytes

@[simp] theorem message_cons (f : Field) (fields : List Field) :
    message (f :: fields) = f.tag ++ (f.value.bytes ++ message fields) := by
  simp [message, Field.bytes]

/-- A field whose number is below 16 can have a tag of one byte. -/
theorem Field.WellFormed.tag_byte {groups : Nat} {f : Field} (h : f.WellFormed groups)
    (one : f.tag.length = 1) :
    ∃ tag, f.tag = [tag] ∧ tag.toNat = 8 * f.number + f.value.wireType := by
  obtain ⟨tag, single⟩ := List.length_eq_one_iff.mp one
  refine ⟨tag, single, ?_⟩
  have varint := h.tag.1
  have sum := h.tag_value
  rw [single] at varint sum
  have last : decide (128 ≤ tag.toNat) = false := varint
  have low : ¬128 ≤ tag.toNat := of_decide_eq_false last
  rw [← sum, Varint.value, Varint.value]
  omega

end ProtoWire
