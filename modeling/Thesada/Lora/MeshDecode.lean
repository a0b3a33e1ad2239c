import Thesada.Library.ProtoWire
import Thesada.Lora.MeshFrame

/-!
# What the decoder makes of a protobuf message

A `Data` message keeps growing, so `dataDecode` walks over fields it does not know by their wire
type. A tag is read as one byte and a varint is refused after five, so the messages it follows
are those with field numbers up to 15 and short varints.
-/

namespace Thesada.Lora

open ProtoWire

/-- Field 1 as a varint: the portnum, of 32 bits. -/
def fieldPortnum (f : Field) : Option UInt32 :=
  match f.number, f.value with
  | 1, .varint bytes => some (UInt32.ofNat (Varint.value bytes))
  | _, _ => none

/-- Field 2 as a length-delimited value: the payload. -/
def fieldPayload (f : Field) : Option (List UInt8) :=
  match f.number, f.value with
  | 2, .delimited _ bytes => some bytes
  | _, _ => none

/-- The last portnum of a message, 0 when it has none. -/
def lastPortnum (fields : List Field) : UInt32 := (fields.filterMap fieldPortnum).getLast?.getD 0

def lastPayload (fields : List Field) : Option (List UInt8) :=
  (fields.filterMap fieldPayload).getLast?

/-- What a field adds to what was found before it. -/
def DataOut.after (out : DataOut) (f : Field) : DataOut where
  portnum := (fieldPortnum f).getD out.portnum
  payload := (fieldPayload f).or out.payload

/-- The tag byte of a field is taken apart into its number and wire type. -/
theorem tag_parts {tag : UInt8} {number wire : Nat} (h : tag.toNat = 8 * number + wire)
    (bound : wire < 8) : (tag >>> 3).toNat = number ∧ (tag &&& 0x07).toNat = wire := by
  have mask : (0x07 : UInt8).toNat = 2 ^ 3 - 1 := rfl
  constructor
  · rw [UInt8.toNat_shiftRight, Nat.shiftRight_eq_div_pow, h]
    simp only [UInt8.reduceToNat, Nat.reduceMod]
    omega
  · rw [UInt8.toNat_and, mask, Nat.and_two_pow_sub_one_eq_mod, h]
    omega

/-- What the turn for a field does, by its kind. A field it does not know leaves what was found. -/
theorem skipField_eq {v : WireValue} (h : v.WellFormed 5) {wire : UInt8}
    (kind : wire.toNat = v.wireType) (short : v.bytes.length < 2 ^ 32) (rest : List UInt8) :
    skipField wire (v.bytes ++ rest) = some rest := by
  unfold skipField
  cases v with
  | varint bytes =>
      obtain rfl : wire = 0 := UInt8.toNat_inj.mp kind
      have read := varintRead_eq h.1 h.2.1 rest
      rw [if_pos rfl]
      show (varintRead (bytes ++ rest)).map _ = _
      rw [read]
      rfl
  | fixed64 bytes =>
      obtain rfl : wire = 1 := UInt8.toNat_inj.mp kind
      have size : bytes.length = 8 := h
      rw [if_neg (by decide), if_pos rfl]
      show (if (bytes ++ rest).length < 8 then none else some ((bytes ++ rest).drop 8)) = _
      rw [if_neg (by rw [List.length_append]; omega), List.drop_left' size]
  | delimited length bytes =>
      obtain rfl : wire = 2 := UInt8.toNat_inj.mp kind
      obtain ⟨⟨varint, five, -⟩, size⟩ := h
      have total : bytes.length < 2 ^ 32 := by
        simp only [WireValue.bytes, List.length_append] at short
        omega
      have l : (UInt32.ofNat bytes.length).toNat = bytes.length := by
        rw [UInt32.toNat_ofNat']
        exact Nat.mod_eq_of_lt total
      rw [if_neg (by decide), if_neg (by decide), if_pos rfl]
      simp only [WireValue.bytes, List.append_assoc]
      rw [varintRead_eq varint five, size]
      dsimp only
      rw [l, if_neg (by rw [List.length_append]; omega), List.drop_left]
  | fixed32 bytes =>
      obtain rfl : wire = 5 := UInt8.toNat_inj.mp kind
      have size : bytes.length = 4 := h
      rw [if_neg (by decide), if_neg (by decide), if_neg (by decide), if_pos rfl]
      show (if (bytes ++ rest).length < 4 then none else some ((bytes ++ rest).drop 4)) = _
      rw [if_neg (by rw [List.length_append]; omega), List.drop_left' size]

/-- The turn for a field that is neither the portnum nor the payload. -/
theorem dataField_other {tag : UInt8} {f : Field} (h : f.value.WellFormed 5)
    (field : (tag >>> 3).toNat = f.number) (wire : (tag &&& 0x07).toNat = f.value.wireType)
    (not_port : ¬(f.number = 1 ∧ f.value.wireType = 0))
    (not_payload : ¬(f.number = 2 ∧ f.value.wireType = 2))
    (short : f.value.bytes.length < 2 ^ 32) (rest : List UInt8) (out : DataOut) :
    dataField tag (f.value.bytes ++ rest) out = some (rest, out) := by
  have one : ¬(tag >>> 3 = 1 ∧ tag &&& 0x07 = 0) := by
    intro same
    rw [same.1] at field
    rw [same.2] at wire
    exact not_port ⟨field.symm, wire.symm⟩
  have two : ¬(tag >>> 3 = 2 ∧ tag &&& 0x07 = 2) := by
    intro same
    rw [same.1] at field
    rw [same.2] at wire
    exact not_payload ⟨field.symm, wire.symm⟩
  simp only [dataField, if_neg one, if_neg two, skipField_eq h wire short, Option.map_some]

theorem fieldPortnum_none {f : Field} (h : ¬(f.number = 1 ∧ f.value.wireType = 0)) :
    fieldPortnum f = none := by
  unfold fieldPortnum
  split
  · next bytes number value => exact absurd ⟨number, by rw [value]; rfl⟩ h
  · rfl

theorem fieldPayload_none {f : Field} (h : ¬(f.number = 2 ∧ f.value.wireType = 2)) :
    fieldPayload f = none := by
  unfold fieldPayload
  split
  · next length bytes number value => exact absurd ⟨number, by rw [value]; rfl⟩ h
  · rfl

/-- A field is one turn of the loop. -/
theorem dataField_eq {f : Field} (h : f.value.WellFormed 5) {tag : UInt8}
    (parts : tag.toNat = 8 * f.number + f.value.wireType) (short : f.value.bytes.length < 2 ^ 32)
    (rest : List UInt8) (out : DataOut) :
    dataField tag (f.value.bytes ++ rest) out = some (rest, out.after f) := by
  obtain ⟨field, wire⟩ := tag_parts parts f.value.wireType_lt
  obtain ⟨number, tag_bytes, value⟩ := f
  by_cases port : number = 1 ∧ value.wireType = 0
  · obtain ⟨rfl, kind⟩ := port
    cases value with
    | varint bytes =>
        have eight : tag = 0x08 := UInt8.toNat_inj.mp parts
        rw [eight]
        exact dataField_portnum h.1 h.2.1 rest out
    | fixed64 bytes => cases kind
    | delimited length bytes => cases kind
    | fixed32 bytes => cases kind
  by_cases payload : number = 2 ∧ value.wireType = 2
  · obtain ⟨rfl, kind⟩ := payload
    cases value with
    | varint bytes => cases kind
    | fixed64 bytes => cases kind
    | delimited length bytes =>
        have eighteen : tag = 0x12 := UInt8.toNat_inj.mp parts
        have total : bytes.length < 2 ^ 32 := by
          simp only [WireValue.bytes, List.length_append] at short
          omega
        rw [eighteen]
        simp only [WireValue.bytes, List.append_assoc]
        exact dataField_payload h.1.1 h.1.2.1 h.2 total rest out
    | fixed32 bytes => cases kind
  · have same : out.after ⟨number, tag_bytes, value⟩ = out := by
      rw [DataOut.after, fieldPortnum_none port, fieldPayload_none payload]
      rfl
    rw [same]
    exact dataField_other h field wire port payload short rest out

/-- The loop goes over the fields of a message one by one. -/
theorem dataFields_eq {fields : List Field} (well : ∀ f ∈ fields, f.WellFormed 5)
    (one : ∀ f ∈ fields, f.tag.length = 1) (short : (message fields).length < 2 ^ 32)
    {turns : Nat} (enough : (message fields).length ≤ turns) (out : DataOut) :
    dataFields turns (message fields) out = some (fields.foldl DataOut.after out) := by
  induction fields generalizing turns out with
  | nil => cases turns <;> rfl
  | cons f fields ih =>
      have field := well f List.mem_cons_self
      obtain ⟨tag, single, parts⟩ := field.tag_byte (one f List.mem_cons_self)
      rw [message_cons, single] at short enough ⊢
      simp only [List.cons_append, List.nil_append, List.length_cons, List.length_append]
        at short enough
      obtain ⟨turns, rfl⟩ : ∃ left, turns = left + 1 := ⟨turns - 1, by omega⟩
      have turn := dataField_eq field.value parts (by omega) (message fields) out
      rw [List.singleton_append, dataFields, turn]
      exact ih (fun g mem => well g (List.mem_cons_of_mem f mem))
        (fun g mem => one g (List.mem_cons_of_mem f mem)) (by omega) (by omega) (out.after f)

/-- Going over the fields leaves the last portnum and the last payload. -/
theorem foldl_after (fields : List Field) (out : DataOut) :
    fields.foldl DataOut.after out =
      { portnum := (fields.filterMap fieldPortnum).getLast?.getD out.portnum
        payload := (lastPayload fields).or out.payload } := by
  induction fields generalizing out with
  | nil => rfl
  | cons f fields ih =>
      rw [List.foldl_cons, ih]
      congr 1
      · cases port : fieldPortnum f with
        | none => simp [DataOut.after, port]
        | some portnum => simp [DataOut.after, port, List.getLast?_cons]
      · unfold lastPayload
        cases payload : fieldPayload f with
        | none => simp [DataOut.after, payload]
        | some bytes =>
            cases later : (fields.filterMap fieldPayload).getLast? with
            | none => simp [DataOut.after, payload, List.getLast?_cons, later]
            | some last =>
                simp [DataOut.after, payload, List.getLast?_cons, later]

/-- A message of one-byte tags and varints of at most five bytes that has a payload is decoded:
every other field is skipped, and the last portnum and the last payload are what is found. -/
theorem dataDecode_message (fields : List Field) (well : ∀ f ∈ fields, f.WellFormed 5)
    (one : ∀ f ∈ fields, f.tag.length = 1) (short : (message fields).length < 2 ^ 32)
    (payload : List UInt8) (has : lastPayload fields = some payload) :
    dataDecode (message fields) = some (lastPortnum fields, payload) := by
  have walked := dataFields_eq well one short (Nat.le_refl _) { portnum := 0, payload := none }
  rw [foldl_after, has] at walked
  rw [dataDecode, walked]
  rfl

/-- A message of every wire type with fields the decoder does not know. -/
def knownMessage : List Field :=
  [⟨9, [0x48], .varint [0x01]⟩, ⟨1, [0x08], .varint [0x81, 0x00]⟩,
    ⟨4, [0x25], .fixed32 [1, 2, 3, 4]⟩, ⟨2, [0x12], .delimited [0x01] [0x78]⟩,
    ⟨6, [0x31], .fixed64 [1, 2, 3, 4, 5, 6, 7, 8]⟩, ⟨1, [0x08], .varint [0x03]⟩]

theorem knownMessage_wellFormed : ∀ f ∈ knownMessage, f.WellFormed 5 := by
  intro f mem
  simp only [knownMessage, List.mem_cons, List.not_mem_nil, or_false] at mem
  obtain rfl | rfl | rfl | rfl | rfl | rfl := mem <;>
    exact ⟨by decide, by decide, by decide, by decide⟩

theorem dataDecode_knownMessage : dataDecode (message knownMessage) = some (3, [0x78]) :=
  dataDecode_message knownMessage knownMessage_wellFormed (by decide) (by decide) [0x78]
    (by decide)

/-- A payload beside a varint field of ten bytes, as a negative number is written. -/
def longVarint : List Field :=
  [⟨2, [0x12], .delimited [0x01] [0x78]⟩,
    ⟨3, [0x18], .varint [0xff, 0xff, 0xff, 0xff, 0xff, 0xff, 0xff, 0xff, 0xff, 0x01]⟩]

/-- A varint of more than five bytes is refused, in a field that is not read as well. -/
theorem dataDecode_longVarint :
    ¬∀ fields : List Field, (∀ f ∈ fields, f.WellFormed 10) →
      ∀ payload, lastPayload fields = some payload →
        dataDecode (message fields) = some (lastPortnum fields, payload) := by
  intro all
  have well : ∀ f ∈ longVarint, f.WellFormed 10 := by
    intro f mem
    simp only [longVarint, List.mem_cons, List.not_mem_nil, or_false] at mem
    obtain rfl | rfl := mem <;> exact ⟨by decide, by decide, by decide, by decide⟩
  have decoded := all longVarint well [0x78] (by decide)
  have refused : dataDecode (message longVarint) = none := by decide
  rw [refused] at decoded
  cases decoded

end Thesada.Lora
