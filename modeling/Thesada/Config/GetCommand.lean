import Thesada.Config.SetCommand

/-!
# `config.get` and index segments

The command walks the live document down all segments of its key. A segment of digits is an index
where it meets an array, in `config.get` and at three places of `config.set`: on the way to the
parent, as the peeked segment and as the last one. The index is a `size_t` of 32 bits, and what is
compared with the size of the array is the number that is left of the digits.
-/

namespace Thesada.Config

open CString Json

/-- One segment of `config.get`. -/
def getStep (current : Json) (tok : Str) : Except Str Json :=
  match current with
  | .arr items =>
      match parseArrayIndex tok with
      | none => .error "Key not found".toList
      | some i =>
          match items[i]? with
          | none => .error "Array index out of range".toList
          | some c => .ok c
  | .obj ms => .ok ((getMember tok ms).getD .null)
  | _ => .error "Key not found".toList

def getWalk : List Str → Json → Except Str Json
  | [], current => .ok current
  | tok :: rest, current => (getStep current tok).bind (getWalk rest)

/-- `Config::get`: null for a document that is no object. -/
def ConfigUnit.get (c : ConfigUnit) : Json := if c.live.isObject then c.live else .null

/-- `cmd_config_get` with its argument: the value it prints, or the text of the failure. -/
def ConfigUnit.configGet (c : ConfigUnit) (key : Str) : Except Str Json :=
  if CONFIG_KEY_CAP ≤ key.length then .error "Key too long (max 127 bytes)".toList
  else getWalk (tokens key) c.get

theorem getWalk_append (toks more : List Str) (current : Json) :
    getWalk (toks ++ more) current = (getWalk toks current).bind (getWalk more) := by
  induction toks generalizing current with
  | nil => rfl
  | cons tok rest ih =>
      rw [List.cons_append, getWalk, getWalk]
      cases getStep current tok with
      | error text => rfl
      | ok c => exact ih c

/-! ## Index segments -/

/-- A segment of digits. -/
abbrev IndexSegment := { tok : Str // tok ≠ [] ∧ tok.all Char.isDigit = true }

/-- The index a segment names. -/
def IndexSegment.named (tok : IndexSegment) : Nat := decimal tok.1

/-- The index that is left of it in a `size_t`. -/
def IndexSegment.wrapped (tok : IndexSegment) : Nat := tok.named % 2 ^ 32

theorem parseArrayIndex_segment (tok : IndexSegment) :
    parseArrayIndex tok.1 = some tok.wrapped := by
  obtain ⟨text, some, digits⟩ := tok
  simp [parseArrayIndex, some, digits, IndexSegment.wrapped, IndexSegment.named]

/-- In every array of this size `config.get` reads the named element or refuses the segment. -/
def GetsNamed (tok : IndexSegment) (size : Nat) : Prop :=
  ∀ items, items.length = size →
    getStep (.arr items) tok.1 = .error "Array index out of range".toList ∨
      ∃ c, items[tok.named]? = some c ∧ getStep (.arr items) tok.1 = .ok c

/-- On its way to the parent `config.set` goes down to the named element or refuses the segment. -/
def WalksNamed (tok : IndexSegment) (size : Nat) : Prop :=
  ∀ items, items.length = size → ∀ finish walked rest,
    walkTo finish walked (tok.1 :: rest) (.arr items) =
        .error "Parent array index out of range".toList ∨
      ∃ c, items[tok.named]? = some c ∧ walkTo finish walked (tok.1 :: rest) (.arr items) =
        (walkTo finish (joined walked tok.1) rest c).map ((Json.arr items).put (.index tok.named))

/-- What a value leaves in an element; a deleted one is null. -/
def SetValue.element : SetValue → Json
  | .delete => .null
  | .value j => j

/-- As the last segment it writes or appends the named element, or is refused. -/
def PlacesNamed (tok : IndexSegment) (size : Nat) : Prop :=
  ∀ items, items.length = size → ∀ parentPath v,
    placeValue parentPath tok.1 v (.arr items) =
        .error "Array index out of range (would leave hole)".toList ∨
      tok.named ≤ size ∧ placeValue parentPath tok.1 v (.arr items) =
        .ok ((Json.arr items).put (.index tok.named) v.element)

section

variable {tok : IndexSegment} {size : Nat}

theorem IndexSegment.wrapped_eq (small : tok.named < 2 ^ 32) : tok.wrapped = tok.named :=
  Nat.mod_eq_of_lt small

/-- An index from 2^32 on wraps to another one. -/
theorem IndexSegment.wrapped_lt (large : ¬tok.named < 2 ^ 32) : tok.wrapped < tok.named :=
  Nat.lt_of_lt_of_le (Nat.mod_lt _ (by decide)) (Nat.not_lt.mp large)

theorem getStep_index (items : List Json) (tok : IndexSegment) :
    getStep (.arr items) tok.1 =
      items[tok.wrapped]?.elim (.error "Array index out of range".toList) .ok := by
  simp only [getStep, parseArrayIndex_segment]
  cases items[tok.wrapped]? with
  | none => rfl
  | some c => rfl

theorem walkTo_index (finish : Json → Except Str Json) (walked : Str) (rest : List Str)
    (items : List Json) (tok : IndexSegment) :
    walkTo finish walked (tok.1 :: rest) (.arr items) =
      items[tok.wrapped]?.elim (.error "Parent array index out of range".toList) fun c =>
        (walkTo finish (joined walked tok.1) rest c).map
          ((Json.arr items).put (.index tok.wrapped)) := by
  simp only [walkTo, parseArrayIndex_segment]
  cases items[tok.wrapped]? with
  | none => rfl
  | some c => rfl

theorem placeValue_index (parentPath : Str) (v : SetValue) (items : List Json)
    (tok : IndexSegment) :
    placeValue parentPath tok.1 v (.arr items) =
      if items.length < tok.wrapped then
        .error "Array index out of range (would leave hole)".toList
      else .ok ((Json.arr items).put (.index tok.wrapped) v.element) := by
  simp only [placeValue, parseArrayIndex_segment]
  cases v with
  | delete => rfl
  | value j => rfl

theorem getsNamed_iff : GetsNamed tok size ↔ tok.named < 2 ^ 32 ∨ size ≤ tok.wrapped := by
  constructor
  · intro named
    by_contra outside
    simp only [not_or, Nat.not_le] at outside
    obtain ⟨large, inside⟩ := outside
    -- elements that are all different
    have element (i : Nat) (below : i < size) :
        ((List.range size).map fun i : Nat => Json.int i)[i]? = some (.int i) := by
      simp [below]
    have reads := named ((List.range size).map fun i : Nat => Json.int i) (by simp)
    rw [getStep_index, element _ inside] at reads
    obtain refused | ⟨c, found, read⟩ := reads
    · cases refused
    · obtain rfl := Except.ok.inj read
      have below : tok.named < size := by
        simpa using (List.getElem?_eq_some_iff.mp found).1
      rw [element _ below, Option.some.injEq, Json.int.injEq] at found
      have other := IndexSegment.wrapped_lt large
      omega
  · rintro (small | outside) items rfl
    · rw [getStep_index, IndexSegment.wrapped_eq small]
      cases found : items[tok.named]? with
      | none => exact .inl rfl
      | some c => exact .inr ⟨c, rfl, rfl⟩
    · rw [getStep_index, List.getElem?_eq_none outside]
      exact .inl rfl

theorem IndexSegment.seg_ne (large : ¬tok.named < 2 ^ 32) :
    Seg.index tok.wrapped ≠ .index tok.named := by
  intro same
  have less := wrapped_lt large
  rw [Seg.index.inj same] at less
  exact Nat.lt_irrefl _ less

/-- A write at the wrapped place is not one at the named place. -/
theorem put_wrapped_ne (large : ¬tok.named < 2 ^ 32) (room : tok.wrapped ≤ size) :
    (Json.arr (List.replicate size .null)).put (.index tok.wrapped) (.bool true) ≠
      (Json.arr (List.replicate size .null)).put (.index tok.named) (.bool true) := by
  intro same
  have fits : tok.wrapped ≤ (List.replicate size Json.null).length := by
    rw [List.length_replicate]
    exact room
  have wrote := child_put_index fits (.bool true)
  rw [same, child_put_other (IndexSegment.seg_ne large)] at wrote
  have held := List.mem_of_getElem? wrote
  cases List.eq_of_mem_replicate held

theorem walksNamed_iff : WalksNamed tok size ↔ tok.named < 2 ^ 32 ∨ size ≤ tok.wrapped := by
  constructor
  · intro named
    by_contra outside
    simp only [not_or, Nat.not_le] at outside
    obtain ⟨large, inside⟩ := outside
    -- a walk that ends here and puts `true` for the null it finds
    have walks := named (List.replicate size .null) List.length_replicate
      (fun _ => .ok (.bool true)) [] []
    have found : (List.replicate size Json.null)[tok.wrapped]? = some .null := by simp [inside]
    rw [walkTo_index, found] at walks
    obtain refused | ⟨c, -, walk⟩ := walks
    · cases refused
    · exact put_wrapped_ne large (Nat.le_of_lt inside) (Except.ok.inj walk)
  · rintro (small | outside) items rfl finish walked rest
    · rw [walkTo_index, IndexSegment.wrapped_eq small]
      cases found : items[tok.named]? with
      | none => exact .inl rfl
      | some c => exact .inr ⟨c, rfl, rfl⟩
    · rw [walkTo_index, List.getElem?_eq_none outside]
      exact .inl rfl

theorem placesNamed_iff : PlacesNamed tok size ↔ tok.named < 2 ^ 32 ∨ size < tok.wrapped := by
  constructor
  · intro named
    by_contra outside
    obtain ⟨large, inside⟩ := not_or.mp outside
    have room : tok.wrapped ≤ size := Nat.not_lt.mp inside
    have places := named (List.replicate size .null) List.length_replicate [] (.value (.bool true))
    rw [placeValue_index, List.length_replicate, if_neg inside] at places
    obtain refused | ⟨-, place⟩ := places
    · cases refused
    · exact put_wrapped_ne large room (Except.ok.inj place)
  · rintro (small | outside) items rfl parentPath v
    · rw [placeValue_index, IndexSegment.wrapped_eq small]
      split
      · exact .inl rfl
      · next room => exact .inr ⟨Nat.not_lt.mp room, rfl⟩
    · rw [placeValue_index, if_pos outside]
      exact .inl rfl

end

/-- An index segment reaches the element it names, or is refused, in every array of a size when
the index fits a `size_t`, or what is left of it lies outside. -/
theorem index_segment_iff (tok : IndexSegment) (size : Nat) :
    (GetsNamed tok size ↔ tok.named < 2 ^ 32 ∨ size ≤ tok.wrapped) ∧
      (WalksNamed tok size ↔ tok.named < 2 ^ 32 ∨ size ≤ tok.wrapped) ∧
      (PlacesNamed tok size ↔ tok.named < 2 ^ 32 ∨ size < tok.wrapped) :=
  ⟨getsNamed_iff, walksNamed_iff, placesNamed_iff⟩

/-- The index 2^32 reads and writes element 0. -/
theorem index_segment_wraps :
    let items : Json := .obj [(['a'], .arr [.str ['x'], .str ['y']])]
    (readUnit items).configGet "a.4294967296".toList = .ok (.str ['x']) ∧
      configSetDoc "a.4294967296".toList (.value (.str ['z'])) items =
        .ok (.obj [(['a'], .arr [.str ['z'], .str ['y']])]) :=
  ⟨rfl, rfl⟩

end Thesada.Config
