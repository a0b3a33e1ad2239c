import Mathlib.Algebra.Order.Ring.Nat
import Mathlib.Data.List.Induction
import Mathlib.Tactic.Common
import Thesada.Library.Machine
import Thesada.Library.Word32

/-!
# The body of a POST

Chunks of a body go to one buffer for the declared total. A chunk out of order, or past the
total, leaves the length at `SIZE_MAX`, and the buffer is refused from there on. A chunk of index
0 begins a buffer, also where there is one.

Whether a chunk is let in and whether `malloc` succeeds is part of the chunk. A `size_t` has 32
bits, and the size of the block is computed in one.
-/

namespace Thesada.Http

open Machine

def SIZE_MAX : Nat := 4294967295

/-- Two sizes and a byte, padded. -/
def sizeofHttpBody : Nat := 12

/-- Where the bytes begin. -/
def dataOffset : Nat := 8

structure HttpBody where
  len : Nat
  cap : Nat
  data : List Nat
  /-- What `malloc` gave. -/
  block : Nat

/-- The declared total of a request and the cap of its endpoint. -/
structure PostRequest where
  total : Nat
  maxBytes : Nat
  total_le : total ≤ SIZE_MAX

structure Chunk where
  data : List Nat
  index : Nat
  authed : Bool
  mallocs : Bool

def PostRequest.blockSize (r : PostRequest) : Nat := Word32.add sizeofHttpBody r.total

def httpBodyBegin (r : PostRequest) (mallocs : Bool) : Option HttpBody :=
  if r.total = 0 ∨ r.maxBytes < r.total then none
  else if !mallocs then none
  else some { len := 0, cap := r.total, data := [], block := r.blockSize }

def httpBodyAppend (b : HttpBody) (data : List Nat) (index : Nat) : HttpBody × Bool :=
  if b.len = SIZE_MAX then (b, false)
  else if index ≠ b.len ∨ b.cap - b.len < data.length then ({ b with len := SIZE_MAX }, false)
  else ({ b with len := b.len + data.length, data := b.data.take b.len ++ data }, true)

def httpBodyComplete (b : HttpBody) : Bool := b.len = b.cap

/-- `_tempObject`, and whether a write left its block. -/
structure BodyState where
  tempObject : Option HttpBody
  outside : Bool

namespace BodyState

def empty : BodyState := ⟨none, false⟩

/-- The sizes and the first byte are written. -/
def begun (s : BodyState) (b : Option HttpBody) : BodyState :=
  ⟨b, s.outside || b.any fun b => b.block < dataOffset + 1⟩

/-- The bytes of a chunk that is taken are written, and a terminator. -/
def appended (s : BodyState) (c : Chunk) : BodyState :=
  match s.tempObject with
  | none => s
  | some b =>
      ⟨some (httpBodyAppend b c.data c.index).1, s.outside ||
        ((httpBodyAppend b c.data c.index).2 && b.block < dataOffset + b.len + c.data.length + 1)⟩

end BodyState

def Chunk.begins (c : Chunk) : Bool := c.index = 0 && c.authed

def bodyChunk (r : PostRequest) (s : BodyState) (c : Chunk) : BodyState :=
  (if c.begins then s.begun (httpBodyBegin r c.mallocs) else s).appended c

/-! ## What a body is -/

def arrived (cs : List Chunk) : Nat := (cs.map fun c => c.data.length).sum

def bodyBytes (cs : List Chunk) : List Nat := cs.flatMap fun c => c.data

/-- Each chunk comes where the one before ended. -/
def InOrder (cs : List Chunk) : Prop :=
  ∀ front c, front ++ [c] <+: cs → c.index = arrived front

/-- In order, and not past the total. -/
def Accepts (total : Nat) (cs : List Chunk) : Prop := InOrder cs ∧ arrived cs ≤ total

def Whole (total : Nat) (cs : List Chunk) : Prop := InOrder cs ∧ arrived cs = total

/-- What is buffered is complete exactly when it is whole, then it is the chunks, a chunk that was
refused is not made up for, and no write leaves the block. -/
def BodyCorrect (r : PostRequest) (cs : List Chunk) : Prop :=
  (∀ b, (run (bodyChunk r) BodyState.empty cs).tempObject = some b →
    (httpBodyComplete b = true ↔ Whole r.total cs) ∧
    (httpBodyComplete b = true → b.data.take b.len = bodyBytes cs) ∧
    (∀ front, front <+: cs → ¬ Accepts r.total front → httpBodyComplete b = false)) ∧
  (run (bodyChunk r) BodyState.empty cs).outside = false

/-- A chunk begins a buffer. -/
def Begun (r : PostRequest) (c : Chunk) : Prop :=
  c.begins = true ∧ 0 < r.total ∧ r.total ≤ r.maxBytes ∧ c.mallocs = true

/-- The chunks of the last buffer. -/
structure LastBegun (r : PostRequest) (cs before : List Chunk) (c : Chunk) (rest : List Chunk) :
    Prop where
  split : cs = before ++ c :: rest
  begun : Begun r c
  last : ∀ e ∈ rest, e.begins = false

/-- The block holds what is taken of some chunks. -/
def Room (r : PostRequest) (cs : List Chunk) : Prop :=
  dataOffset + 1 ≤ r.blockSize ∧
    (Accepts r.total cs → dataOffset + arrived cs + 1 ≤ r.blockSize)

/-- Nothing came before a buffer that is filled, its block has the room that its total asks for,
and its length is not the one of a refused buffer. -/
def BufferedOnce (r : PostRequest) (cs : List Chunk) : Prop :=
  (∀ front before c rest, front <+: cs → LastBegun r front before c rest → Room r (c :: rest)) ∧
  ∀ before c rest, LastBegun r cs before c rest →
    (r.total = SIZE_MAX → Accepts r.total (c :: rest)) ∧
    (Whole r.total (c :: rest) → ∀ e ∈ before, e.index = 0 ∧ e.data = [])

/-! ## Chunks -/

section

variable {r : PostRequest} {cs ds before rest : List Chunk} {c : Chunk} {s : BodyState}
  {b : HttpBody} {total : Nat}

@[simp] theorem arrived_nil : arrived [] = 0 := rfl

@[simp] theorem arrived_cons (c : Chunk) (cs : List Chunk) :
    arrived (c :: cs) = c.data.length + arrived cs := by
  simp [arrived]

@[simp] theorem arrived_append (as bs : List Chunk) :
    arrived (as ++ bs) = arrived as + arrived bs := by
  simp [arrived]

theorem length_bodyBytes (cs : List Chunk) : (bodyBytes cs).length = arrived cs := by
  simp [bodyBytes, arrived, List.length_flatMap]

theorem inOrder_nil : InOrder [] := by
  intro front c first
  have none := List.prefix_nil.mp first
  simp at none

theorem inOrder_concat : InOrder (cs ++ [c]) ↔ InOrder cs ∧ c.index = arrived cs := by
  constructor
  · intro order
    refine ⟨fun front e first => order front e (first.trans (List.prefix_append cs [c])), ?_⟩
    exact order cs c List.prefix_rfl
  · rintro ⟨order, here⟩ front e first
    rcases List.prefix_concat_iff.mp first with same | first
    · obtain ⟨fronts, last⟩ := List.append_inj' same rfl
      injection last with eq
      rw [fronts, eq, here]
    · exact order front e first

theorem Whole.accepts (whole : Whole total cs) : Accepts total cs :=
  ⟨whole.1, Nat.le_of_eq whole.2⟩

theorem Accepts.front {front : List Chunk} (accepts : Accepts total cs) (first : front <+: cs) :
    Accepts total front := by
  obtain ⟨order, le⟩ := accepts
  refine ⟨fun f e inside => order f e (inside.trans first), ?_⟩
  obtain ⟨more, rfl⟩ := first
  rw [arrived_append] at le
  omega

theorem accepts_concat :
    Accepts total (cs ++ [c]) ↔
      Accepts total cs ∧ c.index = arrived cs ∧ arrived cs + c.data.length ≤ total := by
  rw [Accepts, inOrder_concat, arrived_append, arrived_cons, arrived_nil, Nat.add_zero]
  constructor
  · rintro ⟨⟨order, here⟩, le⟩
    exact ⟨⟨order, Nat.le_trans (Nat.le_add_right _ _) le⟩, here, le⟩
  · rintro ⟨⟨order, -⟩, here, le⟩
    exact ⟨⟨order, here⟩, le⟩

/-! ## One buffer -/

/-- The buffer that some chunks leave. -/
def bodyAfter (r : PostRequest) (cs : List Chunk) : HttpBody :=
  cs.foldl (fun b c => (httpBodyAppend b c.data c.index).1)
    { len := 0, cap := r.total, data := [], block := r.blockSize }

theorem bodyAfter_concat (r : PostRequest) (cs : List Chunk) (c : Chunk) :
    bodyAfter r (cs ++ [c]) = (httpBodyAppend (bodyAfter r cs) c.data c.index).1 := by
  rw [bodyAfter, List.foldl_append]
  rfl

@[simp] theorem httpBodyAppend_cap (b : HttpBody) (data : List Nat) (index : Nat) :
    (httpBodyAppend b data index).1.cap = b.cap := by
  unfold httpBodyAppend
  split
  · rfl
  · split
    · rfl
    · rfl

@[simp] theorem httpBodyAppend_block (b : HttpBody) (data : List Nat) (index : Nat) :
    (httpBodyAppend b data index).1.block = b.block := by
  unfold httpBodyAppend
  split
  · rfl
  · split
    · rfl
    · rfl

@[simp] theorem bodyAfter_cap (r : PostRequest) (cs : List Chunk) :
    (bodyAfter r cs).cap = r.total := by
  induction cs using List.reverseRecOn with
  | nil => rfl
  | append_singleton cs c ih => rw [bodyAfter_concat, httpBodyAppend_cap, ih]

@[simp] theorem bodyAfter_block (r : PostRequest) (cs : List Chunk) :
    (bodyAfter r cs).block = r.blockSize := by
  induction cs using List.reverseRecOn with
  | nil => rfl
  | append_singleton cs c ih => rw [bodyAfter_concat, httpBodyAppend_block, ih]

theorem httpBodyAppend_refused (full : b.len = SIZE_MAX) (data : List Nat) (index : Nat) :
    httpBodyAppend b data index = (b, false) := if_pos full

theorem httpBodyAppend_taken {data : List Nat} {index : Nat} (open_ : b.len ≠ SIZE_MAX)
    (here : index = b.len) (room : data.length ≤ b.cap - b.len) :
    httpBodyAppend b data index =
      ({ b with len := b.len + data.length, data := b.data.take b.len ++ data }, true) := by
  rw [httpBodyAppend, if_neg open_, if_neg]
  rintro (other | past)
  · exact other here
  · exact Nat.not_le.mpr past room

theorem httpBodyAppend_poisoned {data : List Nat} {index : Nat} (open_ : b.len ≠ SIZE_MAX)
    (bad : ¬(index = b.len ∧ data.length ≤ b.cap - b.len)) :
    httpBodyAppend b data index = ({ b with len := SIZE_MAX }, false) := by
  rw [httpBodyAppend, if_neg open_, if_pos]
  by_contra fine
  obtain ⟨here, room⟩ := not_or.mp fine
  exact bad ⟨not_not.mp here, Nat.not_lt.mp room⟩

/-- Chunks that are taken are stored, and others are not made up for. -/
theorem bodyAfter_spec (r : PostRequest) (cs : List Chunk) :
    (Accepts r.total cs → (bodyAfter r cs).len = arrived cs ∧
      (bodyAfter r cs).data = bodyBytes cs) ∧
    (¬ Accepts r.total cs → (bodyAfter r cs).len = SIZE_MAX) := by
  induction cs using List.reverseRecOn with
  | nil => exact ⟨fun _ => ⟨rfl, rfl⟩, fun no => absurd ⟨inOrder_nil, Nat.zero_le _⟩ no⟩
  | append_singleton cs c ih =>
      have bound := r.total_le
      obtain ⟨taken, refused⟩ := ih
      rw [bodyAfter_concat, accepts_concat]
      by_cases accepts : Accepts r.total cs
      · obtain ⟨len, data⟩ := taken accepts
        have le := accepts.2
        have cap := bodyAfter_cap r cs
        by_cases full : arrived cs = SIZE_MAX
        · -- a length that means a refused buffer takes no more
          rw [httpBodyAppend_refused (len.trans full)]
          refine ⟨fun ⟨_, _, more⟩ => ?_, fun _ => len.trans full⟩
          have nothing : c.data = [] := List.eq_nil_of_length_eq_zero (by omega)
          simp [len, data, nothing, bodyBytes]
        · have open_ : (bodyAfter r cs).len ≠ SIZE_MAX := fun same => full (len.symm.trans same)
          by_cases fits : c.index = arrived cs ∧ arrived cs + c.data.length ≤ r.total
          · rw [httpBodyAppend_taken open_ (fits.1.trans len.symm) (by omega)]
            refine ⟨fun _ => ⟨by simp [len], ?_⟩, fun no => absurd ⟨accepts, fits⟩ no⟩
            dsimp only
            rw [len, data, ← length_bodyBytes, List.take_length, bodyBytes, bodyBytes,
              List.flatMap_append]
            simp
          · rw [httpBodyAppend_poisoned open_ fun ⟨here, room⟩ => fits ⟨here.trans len, by omega⟩]
            exact ⟨fun ⟨_, all⟩ => absurd all fits, fun _ => rfl⟩
      · have len := refused accepts
        rw [httpBodyAppend_refused len]
        exact ⟨fun ⟨all, _⟩ => absurd all accepts, fun _ => len⟩

theorem bodyAfter_complete (r : PostRequest) (cs : List Chunk) :
    httpBodyComplete (bodyAfter r cs) = true ↔
      Whole r.total cs ∨ (r.total = SIZE_MAX ∧ ¬ Accepts r.total cs) := by
  obtain ⟨taken, refused⟩ := bodyAfter_spec r cs
  rw [httpBodyComplete, decide_eq_true_eq, bodyAfter_cap]
  by_cases accepts : Accepts r.total cs
  · rw [(taken accepts).1]
    constructor
    · intro all
      exact .inl ⟨accepts.1, all⟩
    · rintro (whole | ⟨-, no⟩)
      · exact whole.2
      · exact absurd accepts no
  · rw [refused accepts]
    constructor
    · intro same
      exact .inr ⟨same.symm, accepts⟩
    · rintro (whole | ⟨same, -⟩)
      · exact absurd whole.accepts accepts
      · exact same.symm

/-! ## The buffer of a request -/

theorem LastBegun.concat (l : LastBegun r cs before c rest) {d : Chunk}
    (plain : d.begins = false) : LastBegun r (cs ++ [d]) before c (rest ++ [d]) where
  split := by rw [l.split, List.append_assoc, List.cons_append]
  begun := l.begun
  last := by
    intro e mem
    rcases List.mem_append.mp mem with old | new
    · exact l.last e old
    · rw [List.mem_singleton.mp new]
      exact plain

/-- The last chunk is the one that begins, or it comes behind it. -/
theorem LastBegun.of_concat {d : Chunk} (l : LastBegun r (cs ++ [d]) before c rest) :
    (cs = before ∧ d = c ∧ rest = []) ∨
      ∃ rest', rest = rest' ++ [d] ∧ d.begins = false ∧ LastBegun r cs before c rest' := by
  obtain ⟨split, begun, last⟩ := l
  rcases List.eq_nil_or_concat rest with rfl | ⟨rest', e, rfl⟩
  · obtain ⟨fronts, same⟩ := List.append_inj' split rfl
    injection same with eq
    exact .inl ⟨fronts, eq, rfl⟩
  · rw [List.concat_eq_append] at split last ⊢
    rw [← List.cons_append, ← List.append_assoc] at split
    obtain ⟨fronts, same⟩ := List.append_inj' split rfl
    injection same with eq
    subst eq
    refine .inr ⟨rest', rfl, last d (by simp), fronts, begun, fun f mem => last f ?_⟩
    exact List.mem_append_left [d] mem

/-- A chunk that begins a buffer is the first of the last one. -/
theorem LastBegun.of_begins {d : Chunk} (l : LastBegun r (cs ++ [d]) before c rest)
    (begins : d.begins = true) : c = d ∧ rest = [] := by
  obtain ⟨-, rfl, rfl⟩ | ⟨-, -, plain, -⟩ := l.of_concat
  · exact ⟨rfl, rfl⟩
  · exact absurd (begins.symm.trans plain) (by decide)

/-- A chunk that begins none belongs to the one before. -/
theorem LastBegun.of_plain {d : Chunk} (l : LastBegun r (cs ++ [d]) before c rest)
    (plain : d.begins = false) : ∃ rest', rest = rest' ++ [d] ∧ LastBegun r cs before c rest' := by
  obtain ⟨-, rfl, -⟩ | ⟨rest', same, -, old⟩ := l.of_concat
  · exact absurd (l.begun.1.symm.trans plain) (by decide)
  · exact ⟨rest', same, old⟩

theorem httpBodyBegin_begun (begun : Begun r c) :
    httpBodyBegin r c.mallocs = some (bodyAfter r []) := by
  obtain ⟨-, pos, le, mallocs⟩ := begun
  rw [httpBodyBegin, if_neg, mallocs]
  · rfl
  · rintro (zero | past)
    · omega
    · omega

theorem httpBodyBegin_none (begins : c.begins = true) (not : ¬ Begun r c) :
    httpBodyBegin r c.mallocs = none := by
  rw [httpBodyBegin]
  split
  · rfl
  · next fits =>
      obtain ⟨pos, le⟩ := not_or.mp fits
      split
      · rfl
      · next mallocs =>
          have given : c.mallocs = true := by simpa using mallocs
          exact absurd ⟨begins, Nat.pos_of_ne_zero pos, Nat.not_lt.mp le, given⟩ not

theorem bodyChunk_plain (plain : c.begins = false) : bodyChunk r s c = s.appended c := by
  rw [bodyChunk, if_neg (by rw [plain]; exact Bool.false_ne_true)]

theorem bodyChunk_begins (begins : c.begins = true) :
    bodyChunk r s c = (s.begun (httpBodyBegin r c.mallocs)).appended c := by
  rw [bodyChunk, if_pos begins]

@[simp] theorem appended_tempObject (s : BodyState) (c : Chunk) :
    (s.appended c).tempObject =
      s.tempObject.map fun b => (httpBodyAppend b c.data c.index).1 := by
  rw [BodyState.appended]
  cases held : s.tempObject with
  | none => exact held
  | some b => rfl

/-- What a request holds is the buffer of the chunks since it began. -/
theorem tempObject_iff (r : PostRequest) (cs : List Chunk) (b : HttpBody) :
    (run (bodyChunk r) BodyState.empty cs).tempObject = some b ↔
      ∃ before c rest, LastBegun r cs before c rest ∧ b = bodyAfter r (c :: rest) := by
  induction cs using List.reverseRecOn generalizing b with
  | nil =>
      constructor
      · intro none
        cases none
      · rintro ⟨before, c, rest, l, -⟩
        exact absurd l.split.symm (by simp)
  | append_singleton cs d ih =>
      rw [run_append, run_cons, run_nil]
      by_cases begins : d.begins = true
      · rw [bodyChunk_begins begins, appended_tempObject, BodyState.begun]
        by_cases begun : Begun r d
        · rw [httpBodyBegin_begun begun]
          constructor
          · intro same
            injection same with same
            exact ⟨cs, d, [], ⟨rfl, begun, fun _ mem => nomatch mem⟩, same.symm⟩
          · rintro ⟨before, c, rest, l, rfl⟩
            obtain ⟨rfl, rfl⟩ := l.of_begins begins
            rfl
        · rw [httpBodyBegin_none begins begun]
          constructor
          · intro none
            cases none
          · rintro ⟨before, c, rest, l, -⟩
            obtain ⟨rfl, -⟩ := l.of_begins begins
            exact absurd l.begun begun
      · have plain : d.begins = false := Bool.eq_false_iff.mpr begins
        rw [bodyChunk_plain plain, appended_tempObject, Option.map_eq_some_iff]
        constructor
        · rintro ⟨old, held, rfl⟩
          obtain ⟨before, c, rest, l, rfl⟩ := (ih old).mp held
          refine ⟨before, c, rest ++ [d], l.concat plain, ?_⟩
          rw [← List.cons_append, bodyAfter_concat]
        · rintro ⟨before, c, rest, l, rfl⟩
          obtain ⟨rest', rfl, old⟩ := l.of_plain plain
          refine ⟨_, (ih _).mpr ⟨before, c, rest', old, rfl⟩, ?_⟩
          rw [← List.cons_append, bodyAfter_concat]

theorem LastBegun.unique {before' rest' : List Chunk} {c' : Chunk}
    (l : LastBegun r cs before c rest) (l' : LastBegun r cs before' c' rest') :
    before = before' ∧ c = c' ∧ rest = rest' := by
  induction cs using List.reverseRecOn generalizing rest rest' with
  | nil => exact absurd l.split.symm (by simp)
  | append_singleton cs d ih =>
      obtain ⟨rfl, rfl, rfl⟩ | ⟨_, rfl, plain, old⟩ := l.of_concat
      · obtain ⟨rfl, rfl, rfl⟩ | ⟨_, -, plain, -⟩ := l'.of_concat
        · exact ⟨rfl, rfl, rfl⟩
        · exact absurd (l.begun.1.symm.trans plain) (by decide)
      · obtain ⟨_, rfl, old'⟩ := l'.of_plain plain
        obtain ⟨befores, first, rests⟩ := ih old old'
        exact ⟨befores, first, by rw [rests]⟩

/-! ## Room -/

@[simp] theorem appended_outside (s : BodyState) (c : Chunk) :
    (s.appended c).outside = (s.outside || s.tempObject.any fun b =>
      (httpBodyAppend b c.data c.index).2 &&
        b.block < dataOffset + b.len + c.data.length + 1) := by
  rw [BodyState.appended]
  cases held : s.tempObject with
  | none => simp
  | some b => rfl

/-- The bytes of a chunk stay in the block when the block has room for what is taken. -/
theorem append_room {ds : List Chunk} (room : Room r ds) :
    ((httpBodyAppend (bodyAfter r ds) c.data c.index).2 &&
      (bodyAfter r ds).block < dataOffset + (bodyAfter r ds).len + c.data.length + 1) = false ↔
        Room r (ds ++ [c]) := by
  obtain ⟨taken, refused⟩ := bodyAfter_spec r ds
  obtain ⟨least, holds⟩ := room
  rw [Room, accepts_concat, bodyAfter_block, arrived_append, arrived_cons, arrived_nil,
    Nat.add_zero]
  by_cases accepts : Accepts r.total ds
  · have len := (taken accepts).1
    have le := accepts.2
    have bound := r.total_le
    have cap := bodyAfter_cap r ds
    have holds := holds accepts
    by_cases full : arrived ds = SIZE_MAX
    · rw [httpBodyAppend_refused (len.trans full), Bool.false_and]
      exact ⟨fun _ => ⟨least, fun ⟨_, _, more⟩ => by omega⟩, fun _ => rfl⟩
    · have open_ : (bodyAfter r ds).len ≠ SIZE_MAX := fun same => full (len.symm.trans same)
      by_cases fits : c.index = arrived ds ∧ arrived ds + c.data.length ≤ r.total
      · rw [httpBodyAppend_taken open_ (fits.1.trans len.symm) (by omega), Bool.true_and,
          decide_eq_false_iff_not, Nat.not_lt, len, Nat.add_assoc dataOffset]
        exact ⟨fun inside => ⟨least, fun _ => inside⟩, fun all => all.2 ⟨accepts, fits⟩⟩
      · rw [httpBodyAppend_poisoned open_ fun ⟨here, room⟩ => fits ⟨here.trans len, by omega⟩,
          Bool.false_and]
        exact ⟨fun _ => ⟨least, fun all => absurd all.2 fits⟩, fun _ => rfl⟩
  · rw [httpBodyAppend_refused (refused accepts), Bool.false_and]
    exact ⟨fun _ => ⟨least, fun all => absurd all.1 accepts⟩, fun _ => rfl⟩

/-- What holds of the buffers of every front holds of those of all chunks but the last, and of the
one they end with. -/
theorem rooms_concat (cs : List Chunk) (d : Chunk) :
    (∀ front before c rest, front <+: cs ++ [d] → LastBegun r front before c rest →
      Room r (c :: rest)) ↔
      (∀ front before c rest, front <+: cs → LastBegun r front before c rest →
        Room r (c :: rest)) ∧
      ∀ before c rest, LastBegun r (cs ++ [d]) before c rest → Room r (c :: rest) := by
  constructor
  · intro all
    exact ⟨fun front before c rest first => all front before c rest
      (first.trans (List.prefix_append cs [d])),
      fun before c rest => all (cs ++ [d]) before c rest List.prefix_rfl⟩
  · rintro ⟨old, new⟩ front before c rest first
    rcases List.prefix_concat_iff.mp first with rfl | first
    · exact new before c rest
    · exact old front before c rest first

/-- A chunk that begins a buffer writes where the new block has the room. -/
theorem begins_outside {d : Chunk} (begins : d.begins = true) (s : BodyState) :
    (bodyChunk r s d).outside = false ↔
      s.outside = false ∧ ∀ before c rest, LastBegun r (cs ++ [d]) before c rest →
        Room r (c :: rest) := by
  rw [bodyChunk_begins begins, appended_outside, BodyState.begun]
  by_cases begun : Begun r d
  · have only : (∀ before c rest, LastBegun r (cs ++ [d]) before c rest → Room r (c :: rest)) ↔
        Room r ([] ++ [d]) := by
      constructor
      · exact fun all => all cs d [] ⟨rfl, begun, fun _ mem => nomatch mem⟩
      · rintro room before c rest l
        obtain ⟨rfl, rfl⟩ := l.of_begins begins
        exact room
    rw [only, httpBodyBegin_begun begun]
    simp only [Option.any_some, Bool.or_eq_false_iff, bodyAfter_block r [], and_assoc]
    constructor
    · rintro ⟨old, least, inside⟩
      have least := Nat.not_lt.mp (of_decide_eq_false least)
      have fresh : Room r [] := ⟨least, fun _ => least⟩
      exact ⟨old, (append_room fresh).mp inside⟩
    · rintro ⟨old, room⟩
      have fresh : Room r [] := ⟨room.1, fun _ => room.1⟩
      exact ⟨old, decide_eq_false (Nat.not_lt.mpr room.1), (append_room fresh).mpr room⟩
  · rw [httpBodyBegin_none begins begun]
    simp only [Option.any_none, Bool.or_false]
    refine ⟨fun old => ⟨old, fun before c rest l => ?_⟩, And.left⟩
    obtain ⟨rfl, -⟩ := l.of_begins begins
    exact absurd l.begun begun

/-- No write leaves its block exactly when each has the room. -/
theorem outside_iff (r : PostRequest) (cs : List Chunk) :
    (run (bodyChunk r) BodyState.empty cs).outside = false ↔
      ∀ front before c rest, front <+: cs → LastBegun r front before c rest →
        Room r (c :: rest) := by
  induction cs using List.reverseRecOn with
  | nil =>
      refine ⟨fun _ front before c rest first l => ?_, fun _ => rfl⟩
      rw [List.prefix_nil.mp first] at l
      exact absurd l.split.symm (by simp)
  | append_singleton cs d ih =>
      rw [rooms_concat, ← ih, run_append, run_cons, run_nil]
      cases plain : d.begins with
      | true => exact begins_outside plain _
      | false =>
          rw [bodyChunk_plain plain, appended_outside, Bool.or_eq_false_iff]
          refine and_congr_right fun old => ?_
          cases held : (run (bodyChunk r) BodyState.empty cs).tempObject with
          | none =>
              refine ⟨fun _ before c rest l => ?_, fun _ => rfl⟩
              obtain ⟨rest', -, l⟩ := l.of_plain plain
              rw [(tempObject_iff r cs _).mpr ⟨before, c, rest', l, rfl⟩] at held
              cases held
          | some b =>
              obtain ⟨before, c, rest, l, rfl⟩ := (tempObject_iff r cs b).mp held
              have room := ih.mp old cs before c rest List.prefix_rfl l
              rw [Option.any_some, append_room room]
              constructor
              · intro more before' c' rest' l'
                obtain ⟨front, rfl, held'⟩ := l'.of_plain plain
                obtain ⟨-, rfl, rfl⟩ := l.unique held'
                exact more
              · intro all
                exact all before c (rest ++ [d]) (l.concat plain)

/-! ## A request -/

theorem inOrder_cons_nothing {e : Chunk} (index : e.index = 0) (data : e.data = []) :
    InOrder (e :: cs) ↔ InOrder cs := by
  constructor
  · intro order front c first
    have here := order (e :: front) c ((List.prefix_cons_inj e).mpr first)
    rw [here, arrived_cons, data, List.length_nil, Nat.zero_add]
  · intro order front c first
    cases front with
    | nil =>
        obtain ⟨rfl, -⟩ := List.cons_prefix_cons.mp first
        exact index
    | cons f front =>
        obtain ⟨rfl, inside⟩ := List.cons_prefix_cons.mp first
        rw [order front c inside, arrived_cons, data, List.length_nil, Nat.zero_add]

/-- Chunks in front that carry nothing do not count. -/
theorem whole_append (nothing : ∀ e ∈ before, e.index = 0 ∧ e.data = []) :
    (Whole total (before ++ ds) ↔ Whole total ds) ∧ bodyBytes (before ++ ds) = bodyBytes ds := by
  induction before with
  | nil => exact ⟨Iff.rfl, rfl⟩
  | cons e before ih =>
      obtain ⟨index, data⟩ := nothing e List.mem_cons_self
      obtain ⟨same, bytes⟩ := ih fun f mem => nothing f (List.mem_cons_of_mem e mem)
      constructor
      · rw [← same, Whole, Whole, List.cons_append, inOrder_cons_nothing index data, arrived_cons,
          data, List.length_nil, Nat.zero_add]
      · rw [← bytes, List.cons_append, bodyBytes, List.flatMap_cons, data, List.nil_append]
        rfl

/-- Nothing comes before the last buffer of a whole body. -/
theorem LastBegun.nothing (l : LastBegun r cs before c rest) (whole : Whole total cs) :
    ∀ e ∈ before, e.index = 0 ∧ e.data = [] := by
  obtain ⟨order, -⟩ := whole
  rw [l.split] at order
  have here := order before c ⟨rest, by simp⟩
  have index : c.index = 0 := by
    have begins := l.begun.1
    rw [Chunk.begins, Bool.and_eq_true, decide_eq_true_eq] at begins
    exact begins.1
  intro e mem
  obtain ⟨front, back, rfl⟩ := List.append_of_mem mem
  have first := order front e ⟨back ++ c :: rest, by simp⟩
  rw [arrived_append, arrived_cons] at here
  exact ⟨by omega, List.eq_nil_of_length_eq_zero (by omega)⟩

theorem LastBegun.whole_iff (l : LastBegun r cs before c rest)
    (nothing : ∀ e ∈ before, e.index = 0 ∧ e.data = []) :
    (Whole total cs ↔ Whole total (c :: rest)) ∧ bodyBytes cs = bodyBytes (c :: rest) := by
  rw [l.split]
  exact whole_append nothing

/-- A request buffers its body right exactly when nothing came before the last buffer, each block
has the room, and the length of a refused buffer is not the total. -/
theorem post_body_correct_iff (r : PostRequest) (cs : List Chunk) :
    BodyCorrect r cs ↔ BufferedOnce r cs := by
  rw [BodyCorrect, BufferedOnce, outside_iff, and_comm]
  refine and_congr_right fun _ => ?_
  constructor
  · intro correct before c rest l
    obtain ⟨complete, -, -⟩ := correct _ ((tempObject_iff r cs _).mpr ⟨before, c, rest, l, rfl⟩)
    rw [bodyAfter_complete] at complete
    constructor
    · intro top
      by_contra refused
      have whole := complete.mp (.inr ⟨top, refused⟩)
      exact refused ((l.whole_iff (l.nothing whole)).1.mp whole).accepts
    · intro whole
      exact l.nothing (complete.mp (.inl whole))
  · intro once b held
    obtain ⟨before, c, rest, l, rfl⟩ := (tempObject_iff r cs b).mp held
    obtain ⟨top, nothing⟩ := once before c rest l
    have complete : httpBodyComplete (bodyAfter r (c :: rest)) = true ↔ Whole r.total cs := by
      rw [bodyAfter_complete]
      constructor
      · rintro (whole | ⟨same, refused⟩)
        · exact (l.whole_iff (nothing whole)).1.mpr whole
        · exact absurd (top same) refused
      · intro whole
        exact .inl ((l.whole_iff (l.nothing whole)).1.mp whole)
    refine ⟨complete, fun done => ?_, fun front first refused => ?_⟩
    · have whole := complete.mp done
      obtain ⟨same, bytes⟩ := @LastBegun.whole_iff r cs before rest c r.total l (l.nothing whole)
      obtain ⟨len, data⟩ := (bodyAfter_spec r (c :: rest)).1 (same.mp whole).accepts
      rw [len, data, bytes, ← length_bodyBytes, List.take_length]
    · rw [Bool.eq_false_iff]
      intro done
      exact refused ((complete.mp done).accepts.front first)

/-- A total that leaves the size of its block in a `size_t` has the room. -/
theorem room_of_fits (fits : r.total + sizeofHttpBody ≤ SIZE_MAX) : Room r ds := by
  have size : r.blockSize = sizeofHttpBody + r.total := by
    rw [PostRequest.blockSize, Word32.add_of_lt]
    rw [Nat.add_comm]
    exact Nat.lt_of_le_of_lt fits (by decide)
  rw [Room, size, sizeofHttpBody, dataOffset]
  exact ⟨by omega, fun accepts => by have := accepts.2; omega⟩

/-- Below the top of a `size_t` only a second buffer goes wrong. -/
theorem bufferedOnce_of_fits (fits : r.total + sizeofHttpBody ≤ SIZE_MAX) :
    BufferedOnce r cs ↔ ∀ before c rest, LastBegun r cs before c rest →
      Whole r.total (c :: rest) → ∀ e ∈ before, e.index = 0 ∧ e.data = [] := by
  rw [sizeofHttpBody] at fits
  constructor
  · intro once before c rest l
    exact (once.2 before c rest l).2
  · intro nothing
    exact ⟨fun _ _ _ _ _ _ => room_of_fits fits, fun before c rest l =>
      ⟨fun top => absurd top (by omega), nothing before c rest l⟩⟩

end

def smallPost : PostRequest where
  total := 3
  maxBytes := 2048
  total_le := by decide

/-- A gap, and then a chunk that begins again. -/
def gapThenWhole : List Chunk :=
  [⟨[97, 98], 0, true, true⟩, ⟨[120], 5, true, true⟩, ⟨[97, 98, 99], 0, true, true⟩]

theorem gap_then_whole : ¬ BodyCorrect smallPost gapThenWhole := by
  rintro ⟨correct, -⟩
  obtain ⟨complete, -, -⟩ := correct ⟨3, 3, [97, 98, 99], smallPost.blockSize⟩ rfl
  have whole : arrived gapThenWhole = 3 := (complete.mp rfl).2
  exact absurd whole (by decide)

end Thesada.Http
