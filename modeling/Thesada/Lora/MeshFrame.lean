import Thesada.Library.Varint

/-!
# The Meshtastic wire codec

A frame is a header of sixteen bytes and a body; the body, once decrypted, is a protobuf `Data`
message with a portnum and a payload. A buffer is the list of its bytes, and an encoder returns
what it wrote, or nothing where the source returns 0.

A buffer lies in the memory of the machine, so a length and an offset of a few bytes do not
wrap.
-/

namespace Thesada.Lora

def HEADER_LEN : Nat := 16

/-- `PacketHeader`. -/
structure Header where
  dest : UInt32
  src : UInt32
  packetId : UInt32
  hopLimit : UInt8
  wantAck : Bool
  viaMQTT : Bool
  hopStart : UInt8
  channelHash : UInt8
  nextHop : UInt8
  relayNode : UInt8
  deriving DecidableEq

def putLE32 (v : UInt32) : List UInt8 :=
  [v.toUInt8, (v >>> 8).toUInt8, (v >>> 16).toUInt8, (v >>> 24).toUInt8]

def getLE32 (p0 p1 p2 p3 : UInt8) : UInt32 :=
  p0.toUInt32 ||| (p1.toUInt32 <<< 8) ||| (p2.toUInt32 <<< 16) ||| (p3.toUInt32 <<< 24)

def flagBits (limit : UInt8) (wantAck viaMQTT : Bool) (start : UInt8) : UInt8 :=
  limit ||| (bif wantAck then 0x08 else 0) ||| (bif viaMQTT then 0x10 else 0) ||| start

/-- Bits 0 to 2 hop limit, bit 3 ack, bit 4 via MQTT, bits 5 to 7 hop start. -/
def headerFlags (h : Header) : UInt8 :=
  flagBits (h.hopLimit &&& 0x07) h.wantAck h.viaMQTT ((h.hopStart &&& 0x07) <<< 5)

def headerPack (h : Header) : List UInt8 :=
  putLE32 h.dest ++ putLE32 h.src ++ putLE32 h.packetId ++
    [headerFlags h, h.channelHash, h.nextHop, h.relayNode]

def headerParse : List UInt8 → Option Header
  | b0 :: b1 :: b2 :: b3 :: b4 :: b5 :: b6 :: b7 :: b8 :: b9 :: b10 :: b11 ::
      b12 :: b13 :: b14 :: b15 :: _ =>
    some
      { dest := getLE32 b0 b1 b2 b3
        src := getLE32 b4 b5 b6 b7
        packetId := getLE32 b8 b9 b10 b11
        hopLimit := b12 &&& 0x07
        wantAck := b12 &&& 0x08 != 0
        viaMQTT := b12 &&& 0x10 != 0
        hopStart := (b12 >>> 5) &&& 0x07
        channelHash := b13
        nextHop := b14
        relayNode := b15 }
  | _ => none

/-- A varint of 32 bits into a buffer of `cap` bytes. -/
def varintWrite (v : UInt32) : (cap : Nat) → Option (List UInt8)
  | 0 => none
  | cap + 1 =>
      let b := (v &&& 0x7f).toUInt8
      if v >>> 7 ≠ 0 then (varintWrite (v >>> 7) cap).map ((b ||| 0x80) :: ·) else some [b]

/-- The bytes a varint goes on with at `shift`, and what follows it. A varint that is cut or
longer than five bytes is refused. -/
def varintReadFrom (v : UInt32) (shift : Nat) : List UInt8 → Option (UInt32 × List UInt8)
  | [] => none
  | b :: rest =>
      if 28 < shift then none
      else
        let v := v ||| ((b &&& 0x7f).toUInt32 <<< UInt32.ofNat shift)
        if b &&& 0x80 = 0 then some (v, rest) else varintReadFrom v (shift + 7) rest

def varintRead (p : List UInt8) : Option (UInt32 × List UInt8) := varintReadFrom 0 0 p

/-- `dataEncode`: a `Data` message of a portnum and a payload. -/
def dataEncode (portnum : UInt32) (payload : List UInt8) (cap : Nat) : Option (List UInt8) :=
  if cap = 0 then none
  else
    match varintWrite portnum (cap - 1) with
    | none => none
    | some port =>
        let n := 1 + port.length
        if cap ≤ n then none
        else
          match varintWrite (UInt32.ofNat payload.length) (cap - (n + 1)) with
          | none => none
          | some plen =>
              let n := n + 1 + plen.length
              if cap < n + payload.length then none
              else some (0x08 :: port ++ 0x12 :: plen ++ payload)

/-- What `dataDecode` has found so far; the payload is null until field 2 is met. -/
structure DataOut where
  portnum : UInt32
  payload : Option (List UInt8)
  deriving DecidableEq

/-- The bytes after a field that is not known, by its wire type. -/
def skipField (wire : UInt8) (p : List UInt8) : Option (List UInt8) :=
  if wire = 0 then (varintRead p).map (·.2)
  else if wire = 1 then if p.length < 8 then none else some (p.drop 8)
  else if wire = 2 then
    match varintRead p with
    | none => none
    | some (l, rest) => if rest.length < l.toNat then none else some (rest.drop l.toNat)
  else if wire = 5 then if p.length < 4 then none else some (p.drop 4)
  else none

/-- One turn of `dataDecode`: the field behind a tag. -/
def dataField (tag : UInt8) (p : List UInt8) (out : DataOut) : Option (List UInt8 × DataOut) :=
  let field := tag >>> 3
  let wire := tag &&& 0x07
  if field = 1 ∧ wire = 0 then
    match varintRead p with
    | none => none
    | some (portnum, rest) => some (rest, { out with portnum })
  else if field = 2 ∧ wire = 2 then
    match varintRead p with
    | none => none
    | some (l, rest) =>
        if rest.length < l.toNat then none
        else some (rest.drop l.toNat, { out with payload := some (rest.take l.toNat) })
  else (skipField wire p).map fun rest => (rest, out)

/-- The loop of `dataDecode`. Each turn takes a tag, so as many turns as bytes are enough. -/
def dataFields : (turns : Nat) → List UInt8 → DataOut → Option DataOut
  | _, [], out => some out
  | 0, _ :: _, _ => none
  | turns + 1, tag :: p, out =>
      match dataField tag p out with
      | none => none
      | some (rest, out) => dataFields turns rest out

/-- `dataDecode`: the portnum and the payload of a message that has one. -/
def dataDecode (buf : List UInt8) : Option (UInt32 × List UInt8) :=
  match dataFields buf.length buf { portnum := 0, payload := none } with
  | some { portnum, payload := some payload } => some (portnum, payload)
  | _ => none

def frameBuild (h : Header) (body : List UInt8) (cap : Nat) : Option (List UInt8) :=
  if cap < HEADER_LEN + body.length then none else some (headerPack h ++ body)

def frameSplit (buf : List UInt8) : Option (Header × List UInt8) :=
  match headerParse buf with
  | none => none
  | some h => some (h, buf.drop HEADER_LEN)

/-! ## Little-endian words -/

theorem getLE32_toNat (p0 p1 p2 p3 : UInt8) :
    (getLE32 p0 p1 p2 p3).toNat =
      p0.toNat + p1.toNat * 2 ^ 8 + p2.toNat * 2 ^ 16 + p3.toNat * 2 ^ 24 := by
  have h0 := p0.toNat_lt
  have h1 := p1.toNat_lt
  have h2 := p2.toNat_lt
  have h3 := p3.toNat_lt
  unfold getLE32
  simp only [UInt32.toNat_or, UInt32.toNat_shiftLeft, UInt8.toNat_toUInt32, Nat.shiftLeft_eq,
    UInt32.reduceToNat, Nat.reduceMod]
  rw [Nat.mod_eq_of_lt (by omega), Nat.mod_eq_of_lt (by omega), Nat.mod_eq_of_lt (by omega)]
  rw [Varint.or_shifted 8 (by omega), Varint.or_shifted 16 (by omega),
    Varint.or_shifted 24 (by omega)]

/-- The byte of a word `shift` bits up. -/
theorem shifted_byte (v : UInt32) (shift : UInt32) (h : shift.toNat < 32) :
    (v >>> shift).toUInt8.toNat = v.toNat / 2 ^ shift.toNat % 256 := by
  rw [UInt32.toNat_toUInt8, UInt32.toNat_shiftRight, Nat.shiftRight_eq_div_pow,
    Nat.mod_eq_of_lt h]

theorem getLE32_putLE32 (v : UInt32) :
    getLE32 v.toUInt8 (v >>> 8).toUInt8 (v >>> 16).toUInt8 (v >>> 24).toUInt8 = v := by
  have bound := v.toNat_lt
  rw [← UInt32.toNat_inj, getLE32_toNat, shifted_byte v 8 (by decide),
    shifted_byte v 16 (by decide),
    shifted_byte v 24 (by decide), UInt32.toNat_toUInt8]
  simp only [UInt32.reduceToNat]
  omega

theorem putLE32_getLE32 (p0 p1 p2 p3 : UInt8) :
    putLE32 (getLE32 p0 p1 p2 p3) = [p0, p1, p2, p3] := by
  have h0 := p0.toNat_lt
  have h1 := p1.toNat_lt
  have h2 := p2.toNat_lt
  have h3 := p3.toNat_lt
  have word := getLE32_toNat p0 p1 p2 p3
  simp only [putLE32, List.cons.injEq, and_true]
  refine ⟨?_, ?_, ?_, ?_⟩
  · rw [← UInt8.toNat_inj, UInt32.toNat_toUInt8, word]
    omega
  · rw [← UInt8.toNat_inj, shifted_byte _ 8 (by decide), word]
    simp only [UInt32.reduceToNat]
    omega
  · rw [← UInt8.toNat_inj, shifted_byte _ 16 (by decide), word]
    simp only [UInt32.reduceToNat]
    omega
  · rw [← UInt8.toNat_inj, shifted_byte _ 24 (by decide), word]
    simp only [UInt32.reduceToNat]
    omega

/-! ## The header -/

/-- The hop fields fit their three bits. -/
def Header.Fits (h : Header) : Prop := h.hopLimit ≤ 7 ∧ h.hopStart ≤ 7

/-- The flags byte of the fields a flags byte is read as. -/
theorem flagBits_parse (b : UInt8) :
    flagBits ((b &&& 0x07) &&& 0x07) (b &&& 0x08 != 0) (b &&& 0x10 != 0)
      ((((b >>> 5) &&& 0x07) &&& 0x07) <<< 5) = b := by
  have each : ∀ n : Fin 256,
      let b := UInt8.ofNat n
      flagBits ((b &&& 0x07) &&& 0x07) (b &&& 0x08 != 0) (b &&& 0x10 != 0)
        ((((b >>> 5) &&& 0x07) &&& 0x07) <<< 5) = b := by
    decide +kernel
  have this := each ⟨b.toNat, b.toNat_lt⟩
  simpa only [UInt8.ofNat_toNat] using this

/-- Fields that fit are read back from their flags byte. -/
theorem headerFlags_fields {h : Header} (fits : h.Fits) :
    headerFlags h &&& 0x07 = h.hopLimit ∧ (headerFlags h &&& 0x08 != 0) = h.wantAck ∧
      (headerFlags h &&& 0x10 != 0) = h.viaMQTT ∧ (headerFlags h >>> 5) &&& 0x07 = h.hopStart := by
  have each : ∀ (limit start : Fin 8) (ack mqtt : Bool),
      let b := flagBits (UInt8.ofNat limit &&& 0x07) ack mqtt ((UInt8.ofNat start &&& 0x07) <<< 5)
      b &&& 0x07 = UInt8.ofNat limit ∧ (b &&& 0x08 != 0) = ack ∧ (b &&& 0x10 != 0) = mqtt ∧
        (b >>> 5) &&& 0x07 = UInt8.ofNat start := by
    decide +kernel
  have limit : h.hopLimit.toNat < 8 := Nat.lt_succ_of_le (UInt8.le_iff_toNat_le.mp fits.1)
  have start : h.hopStart.toNat < 8 := Nat.lt_succ_of_le (UInt8.le_iff_toNat_le.mp fits.2)
  have this := each ⟨_, limit⟩ ⟨_, start⟩ h.wantAck h.viaMQTT
  simpa only [UInt8.ofNat_toNat, headerFlags] using this

theorem headerParse_headerPack {h : Header} (fits : h.Fits) (rest : List UInt8) :
    headerParse (headerPack h ++ rest) = some h := by
  obtain ⟨limit, ack, mqtt, start⟩ := headerFlags_fields fits
  simp only [headerPack, putLE32, List.cons_append, List.nil_append, headerParse,
    getLE32_putLE32, limit, ack, mqtt, start]

theorem headerPack_length (h : Header) : (headerPack h).length = HEADER_LEN := rfl

/-- Sixteen bytes are the header they are read as. -/
theorem headerPack_headerParse {bytes : List UInt8} (size : bytes.length = HEADER_LEN) :
    ∃ h : Header, h.Fits ∧ headerParse bytes = some h ∧ headerPack h = bytes := by
  match bytes, size with
  | [b0, b1, b2, b3, b4, b5, b6, b7, b8, b9, b10, b11, b12, b13, b14, b15], _ =>
      have low (b : UInt8) : b &&& 0x07 ≤ 7 := by
        have each : ∀ n : Fin 256, UInt8.ofNat n &&& 0x07 ≤ 7 := by decide +kernel
        have this := each ⟨b.toNat, b.toNat_lt⟩
        simpa only [UInt8.ofNat_toNat] using this
      refine ⟨_, ⟨low _, low _⟩, rfl, ?_⟩
      simp only [headerPack, putLE32_getLE32, List.cons_append, List.nil_append, List.cons.injEq,
        true_and, and_true]
      exact flagBits_parse b12

/-! ## Varints of 32 bits -/

theorem low_bits (v : UInt32) : (v &&& 0x7f).toUInt8.toNat = v.toNat % 128 := by
  have mask : (0x7f : UInt32).toNat = 2 ^ 7 - 1 := rfl
  rw [UInt32.toNat_toUInt8, UInt32.toNat_and, mask, Nat.and_two_pow_sub_one_eq_mod]
  omega

theorem shifted_seven (v : UInt32) : (v >>> 7).toNat = v.toNat / 128 := by
  rw [UInt32.toNat_shiftRight, Nat.shiftRight_eq_div_pow]
  rfl

theorem shifted_seven_zero (v : UInt32) : v >>> 7 = 0 ↔ v.toNat < 128 := by
  rw [← UInt32.toNat_inj, shifted_seven]
  simp only [UInt32.reduceToNat]
  omega

theorem with_high_bit {b : UInt8} (h : b.toNat < 128) : (b ||| 0x80).toNat = b.toNat + 128 := by
  have high : (0x80 : UInt8).toNat = 1 * 2 ^ 7 := rfl
  rw [UInt8.toNat_or, high, Varint.or_shifted 7 h]
  rfl

/-- A varint is written whole, or not at all when the buffer is too small for it. -/
theorem varintWrite_eq (v : UInt32) (cap : Nat) :
    varintWrite v cap =
      if (Varint.encode v.toNat).length ≤ cap then some (Varint.encode v.toNat) else none := by
  induction cap generalizing v with
  | zero =>
      have long := List.length_pos_iff.mpr (Varint.encode_ne_nil v.toNat)
      rw [if_neg (Nat.not_le.mpr long)]
      rfl
  | succ cap ih =>
      unfold varintWrite
      by_cases last : v >>> 7 = 0
      · have small := (shifted_seven_zero v).mp last
        have byte : (v &&& 0x7f).toUInt8 = UInt8.ofNat v.toNat := by
          rw [← UInt8.toNat_inj, low_bits, Varint.ofNat_toNat (by omega)]
          omega
        have fits : (Varint.encode v.toNat).length ≤ cap + 1 := by
          rw [Varint.encode_of_lt small]
          exact Nat.le_add_left 1 cap
        rw [if_neg (not_not_intro last), if_pos fits, Varint.encode_of_lt small, byte]
      · have big : ¬v.toNat < 128 := fun small => last ((shifted_seven_zero v).mpr small)
        have byte : (v &&& 0x7f).toUInt8 ||| 0x80 = UInt8.ofNat (v.toNat % 128 + 128) := by
          have low := low_bits v
          rw [← UInt8.toNat_inj, with_high_bit (by omega), low, Varint.ofNat_toNat (by omega)]
        have encoded : Varint.encode v.toNat =
            UInt8.ofNat (v.toNat % 128 + 128) :: Varint.encode (v >>> 7).toNat := by
          rw [Varint.encode_of_ge big, shifted_seven]
        rw [if_pos last, ih, encoded, List.length_cons, byte]
        by_cases fits : (Varint.encode (v >>> 7).toNat).length ≤ cap
        · rw [if_pos fits, if_pos (Nat.succ_le_succ fits), Option.map_some]
        · rw [if_neg fits, if_neg fun h => fits (Nat.le_of_succ_le_succ h), Option.map_none]

/-- The seven bits of a byte join what the `k` bytes before it gave. -/
theorem varint_join {v : UInt32} {k : Nat} (bound : k < 5) (h : v.toNat < 2 ^ (7 * k)) (b : UInt8) :
    (v ||| ((b &&& 0x7f).toUInt32 <<< UInt32.ofNat (7 * k))).toNat =
      (v.toNat + b.toNat % 128 * 2 ^ (7 * k)) % 2 ^ 32 := by
  have mask : (0x7f : UInt8).toNat = 2 ^ 7 - 1 := rfl
  have byte : (b &&& 0x7f).toUInt32.toNat = b.toNat % 128 := by
    rw [UInt8.toNat_toUInt32, UInt8.toNat_and, mask, Nat.and_two_pow_sub_one_eq_mod]
  have shift : (UInt32.ofNat (7 * k)).toNat = 7 * k := by
    rw [UInt32.toNat_ofNat']
    exact Nat.mod_eq_of_lt (by omega)
  -- the bits that stay below 2 ^ 32
  have cut : b.toNat % 128 * 2 ^ (7 * k) % 2 ^ 32 =
      b.toNat % 128 % 2 ^ (32 - 7 * k) * 2 ^ (7 * k) := by
    have split : 2 ^ 32 = 2 ^ (32 - 7 * k) * 2 ^ (7 * k) := by
      rw [← Nat.pow_add, Nat.sub_add_cancel (by omega)]
    rw [split, Nat.mul_mod_mul_right]
  rw [UInt32.toNat_or, UInt32.toNat_shiftLeft, byte, shift,
    Nat.mod_eq_of_lt (by omega : 7 * k < 32),
    Nat.shiftLeft_eq, cut, Varint.or_shifted (7 * k) h, ← cut]
  have five : k = 0 ∨ k = 1 ∨ k = 2 ∨ k = 3 ∨ k = 4 := by omega
  obtain rfl | rfl | rfl | rfl | rfl := five <;> omega

theorem last_byte_iff (b : UInt8) : b &&& 0x80 = 0 ↔ Varint.continues b = false := by
  have each : ∀ n : Fin 256,
      UInt8.ofNat n &&& 0x80 = 0 ↔ Varint.continues (UInt8.ofNat n) = false := by
    decide +kernel
  have this := each ⟨b.toNat, b.toNat_lt⟩
  rwa [UInt8.ofNat_toNat] at this

/-- The rest of a varint of at most five bytes. -/
theorem varintReadFrom_eq {bytes : List UInt8} (varint : Varint.IsVarint bytes) {k : Nat}
    (bound : k + bytes.length ≤ 5) {v : UInt32} (h : v.toNat < 2 ^ (7 * k)) (rest : List UInt8) :
    varintReadFrom v (7 * k) (bytes ++ rest) =
      some (UInt32.ofNat (v.toNat + Varint.value bytes * 2 ^ (7 * k)), rest) := by
  induction bytes generalizing k v with
  | nil => exact varint.elim
  | cons b bytes ih =>
      rw [List.length_cons] at bound
      have joined := varint_join (by omega : k < 5) h b
      rw [List.cons_append, varintReadFrom, if_neg (by omega)]
      dsimp only
      cases bytes with
      | nil =>
          have last : Varint.continues b = false := varint
          rw [if_pos ((last_byte_iff b).mpr last)]
          congr 2
          rw [← UInt32.toNat_inj, joined, UInt32.toNat_ofNat']
          simp [Varint.value]
      | cons c bytes =>
          obtain ⟨more, tail⟩ := varint
          have goes_on : ¬b &&& 0x80 = 0 := by
            intro last
            rw [(last_byte_iff b).mp last] at more
            cases more
          have seven : 2 ^ (7 * (k + 1)) = 128 * 2 ^ (7 * k) := by
            rw [Nat.mul_succ, Nat.pow_add, Nat.mul_comm]
          have low : v.toNat + b.toNat % 128 * 2 ^ (7 * k) < 2 ^ (7 * (k + 1)) := by
            have seven_bits : b.toNat % 128 ≤ 127 := by omega
            have scaled := Nat.mul_le_mul_right (2 ^ (7 * k)) seven_bits
            rw [seven]
            omega
          have whole : (v ||| ((b &&& 0x7f).toUInt32 <<< UInt32.ofNat (7 * k))).toNat =
              v.toNat + b.toNat % 128 * 2 ^ (7 * k) := by
            rw [joined]
            rw [List.length_cons] at bound
            refine Nat.mod_eq_of_lt (Nat.lt_of_lt_of_le low ?_)
            exact Nat.pow_le_pow_right (by decide) (by omega)
          rw [if_neg goes_on]
          have next := ih tail (k := k + 1) (by omega) (by rw [whole]; exact low)
          rw [Nat.mul_succ, whole] at next
          rw [next]
          have head : Varint.value (b :: c :: bytes) =
              b.toNat % 128 + 128 * Varint.value (c :: bytes) := rfl
          congr 3
          rw [head, ← Nat.mul_succ, seven, Nat.add_mul, Nat.add_assoc, Nat.mul_left_comm,
            Nat.mul_assoc]

/-- A varint of at most five bytes is read whole, modulo `2 ^ 32`. -/
theorem varintRead_eq {bytes : List UInt8} (varint : Varint.IsVarint bytes)
    (bound : bytes.length ≤ 5) (rest : List UInt8) :
    varintRead (bytes ++ rest) = some (UInt32.ofNat (Varint.value bytes), rest) := by
  have read := varintReadFrom_eq varint (k := 0) (v := 0) (by omega) (by decide) rest
  simpa [varintRead] using read

/-! ## The data message -/

/-- The bytes of a `Data` message: field 1 a varint, field 2 length-delimited. -/
def dataEncoding (portnum : UInt32) (payload : List UInt8) : List UInt8 :=
  0x08 :: Varint.encode portnum.toNat ++ 0x12 :: Varint.encode payload.length ++ payload

theorem encode_five {n : Nat} (h : n < 2 ^ 32) : (Varint.encode n).length ≤ 5 :=
  Varint.encode_length_le (Nat.lt_of_lt_of_le h (by decide))

/-- A message is encoded exactly when it fits the buffer. -/
theorem dataEncode_eq (portnum : UInt32) {payload : List UInt8} (short : payload.length < 2 ^ 32)
    (cap : Nat) :
    dataEncode portnum payload cap =
      if (dataEncoding portnum payload).length ≤ cap then some (dataEncoding portnum payload)
      else none := by
  have plen : (UInt32.ofNat payload.length).toNat = payload.length := by
    rw [UInt32.toNat_ofNat']
    exact Nat.mod_eq_of_lt short
  have size : (dataEncoding portnum payload).length =
      2 + (Varint.encode portnum.toNat).length + (Varint.encode payload.length).length +
        payload.length := by
    simp only [dataEncoding, List.length_append, List.length_cons]
    omega
  unfold dataEncode
  rw [varintWrite_eq, size]
  split
  · rw [if_neg (by omega)]
  by_cases port_fits : (Varint.encode portnum.toNat).length ≤ cap - 1
  · rw [if_pos port_fits]
    dsimp only
    split
    · rw [if_neg (by omega)]
    · rw [varintWrite_eq, plen]
      by_cases len_fits :
          (Varint.encode payload.length).length ≤ cap - (1 + (Varint.encode portnum.toNat).length + 1)
      · rw [if_pos len_fits]
        dsimp only
        split
        · rw [if_neg (by omega)]
        · rw [if_pos (by omega)]
          rfl
      · rw [if_neg len_fits, if_neg (by omega)]
  · rw [if_neg port_fits, if_neg (by omega)]

/-- A turn of the loop on field 1. -/
theorem dataField_portnum {bytes : List UInt8} (varint : Varint.IsVarint bytes)
    (bound : bytes.length ≤ 5) (rest : List UInt8) (out : DataOut) :
    dataField 0x08 (bytes ++ rest) out =
      some (rest, { out with portnum := UInt32.ofNat (Varint.value bytes) }) := by
  have tag : (0x08 : UInt8) >>> 3 = 1 ∧ (0x08 : UInt8) &&& 0x07 = 0 := by decide
  simp only [dataField, if_pos tag, varintRead_eq varint bound]

/-- A turn of the loop on field 2. -/
theorem dataField_payload {bytes payload : List UInt8} (varint : Varint.IsVarint bytes)
    (bound : bytes.length ≤ 5) (size : Varint.value bytes = payload.length)
    (short : payload.length < 2 ^ 32) (rest : List UInt8) (out : DataOut) :
    dataField 0x12 (bytes ++ (payload ++ rest)) out =
      some (rest, { out with payload := some payload }) := by
  have other : ¬((0x12 : UInt8) >>> 3 = 1 ∧ (0x12 : UInt8) &&& 0x07 = 0) := by decide
  have tag : (0x12 : UInt8) >>> 3 = 2 ∧ (0x12 : UInt8) &&& 0x07 = 2 := by decide
  have l : (UInt32.ofNat payload.length).toNat = payload.length := by
    rw [UInt32.toNat_ofNat']
    exact Nat.mod_eq_of_lt short
  have inside : ¬(payload ++ rest).length < payload.length := by
    rw [List.length_append]
    omega
  simp only [dataField, if_neg other, if_pos tag, varintRead_eq varint bound, size, l,
    if_neg inside, List.take_left, List.drop_left]

theorem dataDecode_dataEncoding (portnum : UInt32) {payload : List UInt8}
    (short : payload.length < 2 ^ 32) :
    dataDecode (dataEncoding portnum payload) = some (portnum, payload) := by
  have port := dataField_portnum (Varint.encode_isVarint portnum.toNat)
    (encode_five portnum.toNat_lt) (0x12 :: Varint.encode payload.length ++ payload)
    { portnum := 0, payload := none }
  rw [Varint.value_encode, UInt32.ofNat_toNat] at port
  have text := dataField_payload (Varint.encode_isVarint payload.length) (encode_five short)
    (Varint.value_encode _) short [] { portnum, payload := none }
  rw [List.append_nil] at text
  have fields (turns : Nat) : dataFields (turns + 2) (dataEncoding portnum payload)
      { portnum := 0, payload := none } = some { portnum, payload := some payload } := by
    simp only [dataEncoding, List.cons_append, List.append_assoc, dataFields] at port text ⊢
    rw [port]
    dsimp only
    rw [dataFields, text]
    dsimp only
    cases turns <;> rfl
  have size : ∃ turns, (dataEncoding portnum payload).length = turns + 2 := by
    refine ⟨(dataEncoding portnum payload).length - 2, ?_⟩
    simp only [dataEncoding, List.length_append, List.length_cons]
    omega
  obtain ⟨turns, size⟩ := size
  rw [dataDecode, size, fields]

/-- The codec gives back what it was given, whenever the encoding and the frame fit: the header
fields, the portnum and the payload. Headers and strings of sixteen bytes correspond, and an
encoding fails exactly when it is longer than its buffer. -/
theorem frame_round_trip :
    (∀ (h : Header) (portnum : UInt32) (payload : List UInt8) (cap frameCap : Nat),
      h.hopLimit ≤ 7 → h.hopStart ≤ 7 → payload.length < 2 ^ 31 →
      (dataEncoding portnum payload).length ≤ cap →
      HEADER_LEN + (dataEncoding portnum payload).length ≤ frameCap →
      ∃ data frame, dataEncode portnum payload cap = some data ∧
        frameBuild h data frameCap = some frame ∧
        ∃ body, frameSplit frame = some (h, body) ∧ dataDecode body = some (portnum, payload)) ∧
    (∀ h : Header, h.hopLimit ≤ 7 → h.hopStart ≤ 7 →
      (headerPack h).length = HEADER_LEN ∧ headerParse (headerPack h) = some h) ∧
    (∀ bytes : List UInt8, bytes.length = HEADER_LEN →
      ∃ h : Header, (h.hopLimit ≤ 7 ∧ h.hopStart ≤ 7) ∧ headerParse bytes = some h ∧
        headerPack h = bytes) ∧
    (∀ (portnum : UInt32) (payload : List UInt8) (cap : Nat), payload.length < 2 ^ 31 →
      (dataEncode portnum payload cap = none ↔ cap < (dataEncoding portnum payload).length)) := by
  refine ⟨?_, ?_, ?_, ?_⟩
  · intro h portnum payload cap frameCap limit start short fits frame_fits
    have word : payload.length < 2 ^ 32 := by omega
    refine ⟨dataEncoding portnum payload, headerPack h ++ dataEncoding portnum payload, ?_,
      if_neg (Nat.not_lt.mpr frame_fits), dataEncoding portnum payload, ?_,
      dataDecode_dataEncoding portnum word⟩
    · rw [dataEncode_eq portnum word, if_pos fits]
    · rw [frameSplit, headerParse_headerPack ⟨limit, start⟩]
      rfl
  · intro h limit start
    have parsed := headerParse_headerPack (h := h) ⟨limit, start⟩ []
    rw [List.append_nil] at parsed
    exact ⟨headerPack_length h, parsed⟩
  · intro bytes size
    exact headerPack_headerParse size
  · intro portnum payload cap short
    rw [dataEncode_eq portnum (by omega)]
    by_cases fits : (dataEncoding portnum payload).length ≤ cap
    · rw [if_pos fits]
      simpa using fits
    · rw [if_neg fits]
      simpa using fits

end Thesada.Lora
