import Thesada.Library.WhileLoop
import Thesada.Library.Word32
import Thesada.Lora.MeshFrame

/-!
# The decoder on memory

`dataDecode` is given a pointer and a length and walks over the bytes with an index of 32 bits.
Here it runs on a memory that goes on behind the buffer, each index it reads is recorded, and
the payload is an offset and a length. Where nothing is read behind the buffer, it makes of the
memory what the decoder on lists makes of the bytes of the buffer.
-/

namespace Thesada.Lora

open WhileLoop

/-- The index, and every index read so far. -/
structure Cursor where
  i : Nat
  reads : List Nat

/-- `buf[i++]`. -/
def Cursor.next (c : Cursor) : Cursor := ⟨Word32.add c.i 1, c.i :: c.reads⟩

/-- `i += n`. -/
def Cursor.skip (c : Cursor) (n : Nat) : Cursor := { c with i := Word32.add c.i n }

structure VarintState where
  v : UInt32
  shift : Nat
  cur : Cursor

/-- One turn of `varintRead`. -/
def varintTurn (mem : Nat → UInt8) (len : Nat) (s : VarintState) :
    Turn VarintState (Option UInt32 × Cursor) :=
  if s.cur.i < len ∧ s.shift ≤ 28 then
    let b := mem s.cur.i
    let v := s.v ||| ((b &&& 0x7f).toUInt32 <<< UInt32.ofNat s.shift)
    if b &&& 0x80 = 0 then .done (some v, s.cur.next) else .again ⟨v, s.shift + 7, s.cur.next⟩
  else .done (none, s.cur)

def varintReadAt (fuel : Nat) (mem : Nat → UInt8) (len : Nat) (c : Cursor) :
    Option (Option UInt32 × Cursor) :=
  whileLoop (fun s => some (varintTurn mem len s)) fuel ⟨0, 0, c⟩

/-- A length that the rest of the buffer must have. -/
def takeLength (len : Nat) : Option UInt32 × Cursor → Option Nat × Cursor
  | (none, c) => (none, c)
  | (some l, c) => if Word32.sub len c.i < l.toNat then (none, c) else (some l.toNat, c)

/-- The switch over the wire type of a field that is not known. -/
def skipFieldAt (fuel : Nat) (mem : Nat → UInt8) (len : Nat) (wire : UInt8) (c : Cursor) :
    Option (Bool × Cursor) :=
  if wire = 0 then
    (varintReadAt fuel mem len c).map fun (v, c) => (v.isSome, c)
  else if wire = 1 then
    some (if len < Word32.add c.i 8 then (false, c) else (true, c.skip 8))
  else if wire = 2 then
    (varintReadAt fuel mem len c).map fun read =>
      match takeLength len read with
      | (none, c) => (false, c)
      | (some l, c) => (true, c.skip l)
  else if wire = 5 then
    some (if len < Word32.add c.i 4 then (false, c) else (true, c.skip 4))
  else some (false, c)

/-- `portnum`, and `payload` with `plen` as an offset into the buffer and a length. -/
structure SliceOut where
  portnum : UInt32
  payload : Option (Nat × Nat)
  deriving DecidableEq

/-- The field behind a tag. -/
def dataFieldAt (fuel : Nat) (mem : Nat → UInt8) (len : Nat) (tag : UInt8) (c : Cursor)
    (out : SliceOut) : Option (Option SliceOut × Cursor) :=
  let field := tag >>> 3
  let wire := tag &&& 0x07
  if field = 1 ∧ wire = 0 then
    (varintReadAt fuel mem len c).map fun (portnum, c) =>
      (portnum.map fun portnum => { out with portnum }, c)
  else if field = 2 ∧ wire = 2 then
    (varintReadAt fuel mem len c).map fun read =>
      match takeLength len read with
      | (none, c) => (none, c)
      | (some l, c) => (some { out with payload := some (c.i, l) }, c.skip l)
  else
    (skipFieldAt fuel mem len wire c).map fun (ok, c) => (if ok then some out else none, c)

structure DecodeState where
  cur : Cursor
  out : SliceOut

/-- What a decoder returns, and the indices it has read. -/
structure Decoded where
  result : Option (UInt32 × Nat × Nat)
  reads : List Nat

/-- One turn of the loop of `dataDecode`. -/
def dataTurn (fuel : Nat) (mem : Nat → UInt8) (len : Nat) (s : DecodeState) :
    Option (Turn DecodeState Decoded) :=
  if s.cur.i < len then
    (dataFieldAt fuel mem len (mem s.cur.i) s.cur.next s.out).map fun
      | (some out, c) => .again ⟨c, out⟩
      | (none, c) => .done ⟨none, c.reads⟩
  else some (.done ⟨s.out.payload.map fun slice => (s.out.portnum, slice), s.cur.reads⟩)

/-- `dataDecode` of the `len` bytes at the start of a memory. -/
def dataDecodeAt (fuel : Nat) (mem : Nat → UInt8) (len : Nat) : Option Decoded :=
  whileLoop (dataTurn fuel mem len) fuel ⟨⟨0, []⟩, ⟨0, none⟩⟩

/-! ## The bytes that are left -/

/-- The bytes from an index up to the end of the buffer. -/
def bytesFrom (mem : Nat → UInt8) (len i : Nat) : List UInt8 := (List.range' i (len - i)).map mem

def slice (mem : Nat → UInt8) (pos : Nat × Nat) : List UInt8 := (List.range' pos.1 pos.2).map mem

@[simp] theorem bytesFrom_length (mem : Nat → UInt8) (len i : Nat) :
    (bytesFrom mem len i).length = len - i := by
  simp [bytesFrom]

theorem bytesFrom_cons (mem : Nat → UInt8) {len i : Nat} (inside : i < len) :
    bytesFrom mem len i = mem i :: bytesFrom mem len (i + 1) := by
  have left : len - i = len - (i + 1) + 1 := by omega
  rw [bytesFrom, bytesFrom, left, List.range'_succ, List.map_cons]

theorem bytesFrom_end (mem : Nat → UInt8) {len i : Nat} (past : ¬i < len) :
    bytesFrom mem len i = [] := by
  have none : len - i = 0 := by omega
  rw [bytesFrom, none]
  rfl

theorem bytesFrom_split (mem : Nat → UInt8) {len i n : Nat} (fits : i + n ≤ len) :
    bytesFrom mem len i = slice mem (i, n) ++ bytesFrom mem len (i + n) := by
  have left : len - i = n + (len - (i + n)) := by omega
  rw [bytesFrom, slice, bytesFrom, left, ← List.range'_append_1, List.map_append]

theorem bytesFrom_drop (mem : Nat → UInt8) {len i n : Nat} (fits : i + n ≤ len) :
    (bytesFrom mem len i).drop n = bytesFrom mem len (i + n) := by
  rw [bytesFrom_split mem fits]
  exact List.drop_left' (by simp [slice])

theorem bytesFrom_take (mem : Nat → UInt8) {len i n : Nat} (fits : i + n ≤ len) :
    (bytesFrom mem len i).take n = slice mem (i, n) := by
  rw [bytesFrom_split mem fits]
  exact List.take_left' (by simp [slice])

/-! ## The index stays in the buffer -/

/-- The index is in the buffer or at its end, and nothing was read behind it. -/
structure Cursor.Inside (len : Nat) (c : Cursor) : Prop where
  within : c.i ≤ len
  reads : ∀ r ∈ c.reads, r < len

section Inside

variable {mem : Nat → UInt8} {len : Nat} (short : len < 2 ^ 32 - 8) {c : Cursor}

include short

theorem Cursor.next_i (inside : c.i < len) : c.next.i = c.i + 1 :=
  Word32.add_of_lt (by unfold Word32.size; omega)

theorem Cursor.Inside.next (h : c.Inside len) (inside : c.i < len) : c.next.Inside len where
  within := by
    rw [Cursor.next_i short inside]
    exact inside
  reads := by
    intro r mem
    obtain rfl | old := List.mem_cons.mp mem
    · exact inside
    · exact h.reads r old

theorem Cursor.skip_i {n : Nat} (fits : c.i + n ≤ len) : (c.skip n).i = c.i + n :=
  Word32.add_of_lt (by unfold Word32.size; omega)

theorem Cursor.Inside.skip (h : c.Inside len) {n : Nat} (fits : c.i + n ≤ len) :
    (c.skip n).Inside len where
  within := by
    rw [Cursor.skip_i short fits]
    exact fits
  reads := h.reads

/-- What a varint at `c` comes to: the cursor behind it, and what the reader on lists finds. -/
structure Reads (mem : Nat → UInt8) (len : Nat) (c : Cursor) (read : Option UInt32 × Cursor) :
    Prop where
  inside : read.2.Inside len
  onward : c.i ≤ read.2.i
  same : varintRead (bytesFrom mem len c.i) = read.1.map fun v => (v, bytesFrom mem len read.2.i)

theorem varintReadAt_reads (mem : Nat → UInt8) (h : c.Inside len) {fuel : Nat}
    (enough : 5 < fuel) :
    ∃ read, varintReadAt fuel mem len c = some read ∧ Reads mem len c read := by
  apply whileLoop_returns (fun s => s.cur.Inside len ∧ c.i ≤ s.cur.i ∧
    varintReadFrom s.v s.shift (bytesFrom mem len s.cur.i) = varintRead (bytesFrom mem len c.i))
    (fun s => (35 - s.shift) / 7)
  · intro s ⟨inside, onward, same⟩
    refine ⟨_, rfl, ?_⟩
    simp only [varintTurn]
    split
    · rename_i more
      have next := inside.next short more.1
      have i := Cursor.next_i short more.1
      rw [bytesFrom_cons mem more.1, varintReadFrom, if_neg (by omega)] at same
      simp only at same
      split
      · rename_i last
        rw [if_pos last] at same
        exact ⟨next, by rw [i]; omega, by rw [← same, i]; rfl⟩
      · rename_i more'
        rw [if_neg more'] at same
        refine ⟨⟨next, by rw [i]; omega, ?_⟩, ?_⟩
        · rw [i, same]
        · show (35 - (s.shift + 7)) / 7 < (35 - s.shift) / 7
          omega
    · rename_i stops
      refine ⟨inside, onward, ?_⟩
      rw [← same]
      by_cases more : s.cur.i < len
      · rw [bytesFrom_cons mem more, varintReadFrom, if_pos (by omega)]
        rfl
      · rw [bytesFrom_end mem more]
        rfl
  · exact ⟨h, Nat.le_refl _, rfl⟩
  · show 35 / 7 < fuel
    exact enough

/-- A length that is refused is refused on lists as well; one that is taken fits what is left. -/
theorem takeLength_cases {read : Option UInt32 × Cursor} (h : Reads mem len c read) :
    (∃ c', takeLength len read = (none, c') ∧ c'.Inside len ∧ c.i ≤ c'.i ∧
      ∀ l rest, varintRead (bytesFrom mem len c.i) = some (l, rest) → rest.length < l.toNat) ∨
    ∃ l c', takeLength len read = (some l.toNat, c') ∧ c'.Inside len ∧ c.i ≤ c'.i ∧
      c'.i + l.toNat ≤ len ∧
      varintRead (bytesFrom mem len c.i) = some (l, bytesFrom mem len c'.i) := by
  obtain ⟨v, c'⟩ := read
  have within := h.inside.within
  have left : Word32.sub len c'.i = len - c'.i :=
    Word32.sub_of_le within (by unfold Word32.size; omega)
  cases v with
  | none =>
      refine .inl ⟨c', rfl, h.inside, h.onward, ?_⟩
      intro l rest found
      rw [h.same] at found
      cases found
  | some l =>
      simp only [takeLength, left]
      by_cases long : len - c'.i < l.toNat
      · refine .inl ⟨c', if_pos long, h.inside, h.onward, ?_⟩
        intro l' rest found
        rw [h.same] at found
        cases found
        rw [bytesFrom_length]
        exact long
      · refine .inr ⟨l, c', if_neg long, h.inside, h.onward, ?_, h.same⟩
        have within : c'.i ≤ len := within
        omega

theorem skipFieldAt_fields (mem : Nat → UInt8) (h : c.Inside len) {fuel : Nat} (enough : 5 < fuel)
    (wire : UInt8) :
    ∃ ok c', skipFieldAt fuel mem len wire c = some (ok, c') ∧ c'.Inside len ∧ c.i ≤ c'.i ∧
      skipField wire (bytesFrom mem len c.i) =
        if ok then some (bytesFrom mem len c'.i) else none := by
  obtain ⟨read, returns, reads⟩ := varintReadAt_reads short mem h enough
  have within := h.within
  have add (n : Nat) (few : n ≤ 8) : Word32.add c.i n = c.i + n :=
    Word32.add_of_lt (by unfold Word32.size; omega)
  -- a fixed number of bytes
  have fixed (n : Nat) (few : n ≤ 8) :
      ∃ ok c', (if len < Word32.add c.i n then (false, c) else (true, c.skip n)) = (ok, c') ∧
        c'.Inside len ∧ c.i ≤ c'.i ∧
        (if (bytesFrom mem len c.i).length < n then none
          else some ((bytesFrom mem len c.i).drop n)) =
            if ok then some (bytesFrom mem len c'.i) else none := by
    rw [add n few, bytesFrom_length]
    by_cases fits : c.i + n ≤ len
    · rw [if_neg (by omega), if_neg (by omega)]
      refine ⟨_, _, rfl, h.skip short fits, ?_, ?_⟩
      · rw [Cursor.skip_i short fits]
        omega
      · rw [Cursor.skip_i short fits, bytesFrom_drop mem fits]
        rfl
    · rw [if_pos (by omega), if_pos (by omega)]
      exact ⟨_, _, rfl, h, Nat.le_refl _, rfl⟩
  simp only [skipFieldAt, skipField, returns, Option.map_some]
  split
  · refine ⟨_, _, rfl, reads.inside, reads.onward, ?_⟩
    rw [reads.same]
    cases read.1 <;> rfl
  split
  · obtain ⟨ok, c', same, rest⟩ := fixed 8 (by decide)
    exact ⟨ok, c', congrArg some same, rest⟩
  split
  · obtain ⟨c', refused, inside, onward, long⟩ | ⟨l, c', taken, inside, onward, fits, list⟩ :=
      takeLength_cases short reads
    · rw [refused]
      refine ⟨_, _, rfl, inside, onward, ?_⟩
      cases list : varintRead (bytesFrom mem len c.i) with
      | none => rfl
      | some pair => exact if_pos (long pair.1 pair.2 list)
    · rw [taken]
      refine ⟨_, _, rfl, inside.skip short fits, ?_, ?_⟩
      · rw [Cursor.skip_i short fits]
        omega
      · rw [list, Cursor.skip_i short fits, ← bytesFrom_drop mem fits]
        exact if_neg (by rw [bytesFrom_length]; omega)
  split
  · obtain ⟨ok, c', same, rest⟩ := fixed 4 (by decide)
    exact ⟨ok, c', congrArg some same, rest⟩
  · exact ⟨_, _, rfl, h, Nat.le_refl _, rfl⟩

/-- The slice lies in the buffer. -/
def SliceOut.Within (len : Nat) (out : SliceOut) : Prop :=
  ∀ off plen, out.payload = some (off, plen) → off + plen ≤ len

/-- What the slice holds. -/
def SliceOut.bytes (mem : Nat → UInt8) (out : SliceOut) : DataOut where
  portnum := out.portnum
  payload := out.payload.map (slice mem)

theorem dataFieldAt_fields (mem : Nat → UInt8) (h : c.Inside len) {fuel : Nat} (enough : 5 < fuel)
    (tag : UInt8) {out : SliceOut} (within : out.Within len) :
    ∃ r, dataFieldAt fuel mem len tag c out = some r ∧ r.2.Inside len ∧ c.i ≤ r.2.i ∧
      (∀ out', r.1 = some out' → out'.Within len) ∧
      dataField tag (bytesFrom mem len c.i) (out.bytes mem) =
        r.1.map fun out' => (bytesFrom mem len r.2.i, out'.bytes mem) := by
  obtain ⟨read, returns, reads⟩ := varintReadAt_reads short mem h enough
  simp only [dataFieldAt, dataField, returns, Option.map_some]
  split
  · refine ⟨_, rfl, reads.inside, reads.onward, ?_, ?_⟩
    · intro out' found off plen payload
      obtain ⟨portnum, -, rfl⟩ := Option.map_eq_some_iff.mp found
      exact within off plen payload
    · rw [reads.same]
      cases read.1 <;> rfl
  split
  · obtain ⟨c', refused, inside, onward, long⟩ | ⟨l, c', taken, inside, onward, fits, list⟩ :=
      takeLength_cases short reads
    · rw [refused]
      refine ⟨_, rfl, inside, onward, by simp, ?_⟩
      cases list : varintRead (bytesFrom mem len c.i) with
      | none => rfl
      | some pair => exact if_pos (long pair.1 pair.2 list)
    · rw [taken]
      refine ⟨_, rfl, inside.skip short fits, ?_, ?_, ?_⟩
      · rw [Cursor.skip_i short fits]
        omega
      · intro out' same off plen payload
        cases same
        cases payload
        exact fits
      · rw [list, Cursor.skip_i short fits, ← bytesFrom_drop mem fits]
        simp only [Option.map_some, SliceOut.bytes]
        rw [← bytesFrom_take mem fits]
        exact if_neg (by rw [bytesFrom_length]; omega)
  · obtain ⟨ok, c', skips, inside, onward, same⟩ := skipFieldAt_fields short mem h enough
      (tag &&& 0x07)
    refine ⟨_, congrArg _ skips, inside, onward, ?_, ?_⟩
    · intro out' found
      cases ok <;> cases found
      exact within
    · rw [same]
      cases ok <;> rfl

/-- What the decoder on memory comes to: no read behind the buffer, a payload inside it, and the
result of the decoder on lists. -/
structure Decoded.Good (mem : Nat → UInt8) (len : Nat) (r : Decoded) : Prop where
  reads : ∀ i ∈ r.reads, i < len
  within : ∀ portnum off plen, r.result = some (portnum, off, plen) → off + plen ≤ len
  same : r.result.map (fun found => (found.1, slice mem found.2)) =
    dataDecode (bytesFrom mem len 0)

/-- The decoder on lists goes on with the bytes that are left as it did with all of them. -/
def Goes (mem : Nat → UInt8) (len : Nat) (s : DecodeState) : Prop :=
  ∃ turns, len - s.cur.i ≤ turns ∧
    dataFields turns (bytesFrom mem len s.cur.i) (s.out.bytes mem) =
      dataFields len (bytesFrom mem len 0) ⟨0, none⟩

omit short in
theorem dataDecode_bytes (mem : Nat → UInt8) (len : Nat) :
    dataDecode (bytesFrom mem len 0) =
      match dataFields len (bytesFrom mem len 0) ⟨0, none⟩ with
      | some { portnum, payload := some payload } => some (portnum, payload)
      | _ => none := by
  rw [dataDecode, bytesFrom_length]
  rfl

theorem dataTurn_good (mem : Nat → UInt8) {fuel : Nat} (enough : 5 < fuel) {s : DecodeState}
    (inside : s.cur.Inside len) (within : s.out.Within len) (goes : Goes mem len s) :
    ∃ t, dataTurn fuel mem len s = some t ∧ t.Satisfies
      (fun next => (next.cur.Inside len ∧ next.out.Within len ∧ Goes mem len next) ∧
        len - next.cur.i < len - s.cur.i)
      (Decoded.Good mem len) := by
  obtain ⟨turns, many, list⟩ := goes
  by_cases more : s.cur.i < len
  · obtain ⟨r, returns, inside', onward, within', same⟩ := dataFieldAt_fields short mem
      (inside.next short more) enough (mem s.cur.i) within
    rw [Cursor.next_i short more] at onward same
    obtain ⟨turns, rfl⟩ : ∃ left, turns = left + 1 := ⟨turns - 1, by omega⟩
    rw [bytesFrom_cons mem more, dataFields, same] at list
    simp only [dataTurn, if_pos more, returns]
    refine ⟨_, rfl, ?_⟩
    obtain ⟨out, c'⟩ := r
    cases out with
    | none =>
        refine ⟨inside'.reads, by simp, ?_⟩
        rw [dataDecode_bytes, ← list]
        rfl
    | some out =>
        have lower : len - c'.i < len - s.cur.i := by
          have onward : s.cur.i + 1 ≤ c'.i := onward
          omega
        refine ⟨⟨inside', within' out rfl, turns, ?_, list⟩, lower⟩
        show len - c'.i ≤ turns
        omega
  · rw [bytesFrom_end mem more, dataFields] at list
    simp only [dataTurn, if_neg more]
    refine ⟨_, rfl, inside.reads, ?_, ?_⟩
    · intro portnum off plen found
      obtain ⟨pos, payload, same⟩ := Option.map_eq_some_iff.mp found
      cases same
      exact within off plen payload
    · rw [dataDecode_bytes, ← list, SliceOut.bytes]
      cases s.out.payload <;> rfl

theorem dataDecodeAt_good (mem : Nat → UInt8) {fuel : Nat} (enough : len + 6 ≤ fuel) :
    ∃ r, dataDecodeAt fuel mem len = some r ∧ r.Good mem len := by
  apply whileLoop_returns (fun s => s.cur.Inside len ∧ s.out.Within len ∧ Goes mem len s)
    (fun s => len - s.cur.i)
  · intro s ⟨inside, within, goes⟩
    exact dataTurn_good short mem (by omega) inside within goes
  · refine ⟨⟨Nat.zero_le len, by simp⟩, ?_, len, by simp, rfl⟩
    intro off plen payload
    cases payload
  · show len - 0 < fuel
    omega

end Inside

/-- On memory and on lists the decoder finds the same. -/
theorem dataDecodeAt_list (mem : Nat → UInt8) (len : Nat) (short : len < 2 ^ 32 - 8) (fuel : Nat)
    (enough : len + 6 ≤ fuel) :
    (dataDecodeAt fuel mem len).map (fun r => r.result.map fun found =>
      (found.1, slice mem found.2)) = some (dataDecode (bytesFrom mem len 0)) := by
  obtain ⟨r, returns, good⟩ := dataDecodeAt_good short mem enough
  rw [returns, Option.map_some, good.same]

/-- On a buffer of `len` bytes the decoder returns, has read no index behind the buffer, and the
payload it reports lies in the buffer. -/
theorem dataDecodeAt_bounded (mem : Nat → UInt8) (len : Nat) (short : len < 2 ^ 32 - 8)
    (fuel : Nat) (enough : len + 6 ≤ fuel) :
    ∃ r, dataDecodeAt fuel mem len = some r ∧ (∀ i ∈ r.reads, i < len) ∧
      ∀ portnum off plen, r.result = some (portnum, off, plen) → off + plen ≤ len := by
  obtain ⟨r, returns, good⟩ := dataDecodeAt_good short mem enough
  exact ⟨r, returns, good.reads, good.within⟩

/-- A payload field with a length of `2 ^ 32 - 1`, in a memory that goes on. -/
def overlongPayload : Nat → UInt8 := fun i =>
  [0x08, 0x01, 0x12, 0xff, 0xff, 0xff, 0xff, 0x0f, 0x41].getD i 0x55

theorem dataDecodeAt_overlongPayload :
    ∃ r, dataDecodeAt 15 overlongPayload 9 = some r ∧ (∀ i ∈ r.reads, i < 9) ∧
      ∀ portnum off plen, r.result = some (portnum, off, plen) → off + plen ≤ 9 :=
  dataDecodeAt_bounded overlongPayload 9 (by decide) 15 (by decide)

end Thesada.Lora
