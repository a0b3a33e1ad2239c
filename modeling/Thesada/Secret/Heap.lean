import Mathlib.Logic.Function.Basic
import Thesada.Library.Machine

/-!
# A heap for key material

`secret_heap.h`: a block carries its capacity in a header, which a grow, a shrink and a free read
back. A byte that the caller wrote is marked until it is wiped, and its copy is marked with it.

Whether `malloc` succeeds, and what it leaves in a block, is part of the call. The sizes that the
caller asked for and the blocks that went back are kept beside the heap.
-/

namespace Thesada.Secret

open Machine

/-! ## Sizes in memory -/

/-- A byte of a number, the lowest first. -/
def sizeByte (n : Nat) : Nat → Nat
  | 0 => n % 256
  | i + 1 => sizeByte (n / 256) i

/-- The number of some bytes. -/
def sizeOf : Nat → (Nat → Nat) → Nat
  | 0, _ => 0
  | k + 1, byte => byte 0 + 256 * sizeOf k fun i => byte (i + 1)

/-- `sizeof(size_t)`, and `SECRET_BLOCK_HDR`, which holds one. -/
structure Layout where
  sizeofSize : Nat
  hdr : Nat
  holds : sizeofSize ≤ hdr

def Layout.SIZE_MAX (l : Layout) : Nat := sizeOf l.sizeofSize fun _ => 255

/-! ## The heap -/

/-- A byte, and whether the caller wrote it since it was wiped last. -/
structure Cell where
  value : Nat
  secret : Bool
  deriving DecidableEq

def Cell.wiped : Cell := ⟨0, false⟩

structure Block where
  len : Nat
  cell : Nat → Cell

/-- The bytes from an offset on are replaced. -/
def Block.change (b : Block) (off n : Nat) (f : Nat → Cell) : Block :=
  { b with cell := fun i => if off ≤ i ∧ i < off + n then f (i - off) else b.cell i }

structure MallocIo where
  succeeds : Bool
  garbage : Nat → Nat

structure Heap where
  blocks : Nat → Option Block
  next : Nat
  /-- The blocks that went back. -/
  returned : List Block
  /-- What the caller asked for. -/
  size : Nat → Nat
  /-- Whether a call left its block. -/
  outside : Bool

namespace Heap

def empty : Heap where
  blocks := fun _ => none
  next := 0
  returned := []
  size := fun _ => 0
  outside := false

def put (h : Heap) (p : Nat) (b : Option Block) : Heap :=
  { h with blocks := Function.update h.blocks p b }

/-- A block is changed within its bounds. -/
def change (h : Heap) (p off n : Nat) (f : Nat → Cell) : Heap :=
  match h.blocks p with
  | none => { h with outside := true }
  | some b =>
      { h.put p (some (b.change off n f)) with
        outside := h.outside || !(off + n ≤ b.len : Bool) }

def malloc (h : Heap) (len : Nat) (io : MallocIo) : Heap × Option Nat :=
  if io.succeeds then
    ({ h.put h.next (some ⟨len, fun i => ⟨io.garbage i, false⟩⟩) with next := h.next + 1 },
      some h.next)
  else (h, none)

def free (h : Heap) (p : Nat) : Heap :=
  match h.blocks p with
  | none => { h with outside := true }
  | some b => { h.put p none with returned := b :: h.returned }

def secretWipe (h : Heap) (p off n : Nat) : Heap := h.change p off n fun _ => Cell.wiped

/-- `memcpy` from a block to another, from the same place on. -/
def memcpy (h : Heap) (q p off n : Nat) : Heap :=
  match h.blocks p with
  | none => { h with outside := true }
  | some b =>
      { h.change q off n fun i => b.cell (off + i) with
        outside := (h.change q off n fun i => b.cell (off + i)).outside ||
          !(off + n ≤ b.len : Bool) }

/-- A byte that the caller reads. -/
def data (l : Layout) (h : Heap) (p i : Nat) : Option Nat :=
  (h.blocks p).map fun b => (b.cell (l.hdr + i)).value

end Heap

/-! ## `secret_heap.h` -/

namespace Layout

variable (l : Layout)

def capacityOf (b : Block) : Nat := sizeOf l.sizeofSize fun i => (b.cell i).value

def secretCapacity (h : Heap) (p : Nat) : Nat := (h.blocks p).elim 0 l.capacityOf

def secretAlloc (h : Heap) (n : Nat) (io : MallocIo) : Heap × Option Nat :=
  if l.SIZE_MAX - l.hdr < n then (h, none)
  else
    match h.malloc (l.hdr + n) io with
    | (h, none) => (h, none)
    | (h, some b) => (h.change b 0 l.sizeofSize fun i => ⟨sizeByte n i, false⟩, some b)

def secretFree (h : Heap) : Option Nat → Heap
  | none => h
  | some p => (h.secretWipe p 0 (l.hdr + l.secretCapacity h p)).free p

def secretRealloc (h : Heap) (p : Option Nat) (n : Nat) (io : MallocIo) : Heap × Option Nat :=
  match p with
  | none => l.secretAlloc h n io
  | some p =>
      let cap := l.secretCapacity h p
      if n ≤ cap then (h.secretWipe p (l.hdr + n) (cap - n), some p)
      else
        match l.secretAlloc h n io with
        | (h, none) => (h, none)
        | (h, some q) => (l.secretFree (h.memcpy q p l.hdr cap) (some p), some q)

end Layout

/-! ## The caller -/

inductive Call where
  | alloc (n : Nat) (io : MallocIo)
  | realloc (p : Option Nat) (n : Nat) (io : MallocIo)
  | free (p : Option Nat)
  | write (p i byte : Nat)

/-- What was asked for is noted. -/
def Heap.sized (r : Heap × Option Nat) (n : Nat) : Heap :=
  match r.2 with
  | none => r.1
  | some p => { r.1 with size := Function.update r.1.size p n }

def callStep (l : Layout) (h : Heap) : Call → Heap
  | .alloc n io => Heap.sized (l.secretAlloc h n io) n
  | .realloc p n io => Heap.sized (l.secretRealloc h p n io) n
  | .free p => l.secretFree h p
  | .write p i byte => h.change p (l.hdr + i) 1 fun _ => ⟨byte, true⟩

/-- Blocks are in use, sizes are a `size_t`, and a write is inside the size asked for. -/
def Legal (l : Layout) (h : Heap) : Call → Prop
  | .alloc n _ => n ≤ l.SIZE_MAX
  | .realloc p n _ => n ≤ l.SIZE_MAX ∧ ∀ b ∈ p, (h.blocks b).isSome = true
  | .free p => ∀ b ∈ p, (h.blocks b).isSome = true
  | .write p i _ => (h.blocks p).isSome = true ∧ i < h.size p

instance (l : Layout) (h : Heap) : ∀ c, Decidable (Legal l h c)
  | .alloc n _ => inferInstanceAs (Decidable (n ≤ l.SIZE_MAX))
  | .realloc p n _ =>
      inferInstanceAs (Decidable (n ≤ l.SIZE_MAX ∧ ∀ b ∈ p, (h.blocks b).isSome = true))
  | .free p => inferInstanceAs (Decidable (∀ b ∈ p, (h.blocks b).isSome = true))
  | .write p i _ => inferInstanceAs (Decidable ((h.blocks p).isSome = true ∧ i < h.size p))

/-- A realloc keeps what both sizes have, and one that fails keeps the heap. -/
def ReallocKeeps (l : Layout) (h : Heap) : Call → Prop
  | .realloc (some p) n io =>
      (∀ q ∈ (l.secretRealloc h (some p) n io).2, ∀ i < min (h.size p) n,
        (l.secretRealloc h (some p) n io).1.data l q i = h.data l p i) ∧
      ((l.secretRealloc h (some p) n io).2 = none → (l.secretRealloc h (some p) n io).1 = h)
  | _ => True

/-! ## The header -/

theorem sizeOf_congr {k : Nat} {f g : Nat → Nat} (same : ∀ i < k, f i = g i) :
    sizeOf k f = sizeOf k g := by
  induction k generalizing f g with
  | zero => rfl
  | succ k ih =>
      rw [sizeOf, sizeOf, same 0 (Nat.succ_pos k),
        ih fun i lt => same (i + 1) (Nat.succ_lt_succ lt)]

/-- A size that was stored is read back. -/
theorem sizeOf_sizeByte {k n : Nat} (le : n ≤ sizeOf k fun _ => 255) :
    sizeOf k (sizeByte n) = n := by
  induction k generalizing n with
  | zero => exact (Nat.le_zero.mp le).symm
  | succ k ih =>
      rw [sizeOf] at le
      have rest : sizeOf k (sizeByte (n / 256)) = n / 256 := ih (by omega)
      change n % 256 + 256 * sizeOf k (sizeByte (n / 256)) = n
      rw [rest]
      exact Nat.mod_add_div n 256

/-! ## What each call leaves -/

section

variable {l : Layout} {h : Heap} {b : Block} {p q n off i : Nat} {f : Nat → Cell} {io : MallocIo}

theorem put_self (h : Heap) (p : Nat) (b : Option Block) : (h.put p b).blocks p = b := by
  simp [Heap.put]

theorem put_other (h : Heap) (b : Option Block) (other : q ≠ p) :
    (h.put p b).blocks q = h.blocks q := by
  simp [Heap.put, other]

theorem data_of_live (live : h.blocks p = some b) :
    h.data l p i = some (b.cell (l.hdr + i)).value := by
  rw [Heap.data, live]
  rfl

@[simp] theorem change_len : (b.change off n f).len = b.len := rfl

theorem change_inside (low : off ≤ i) (high : i < off + n) :
    (b.change off n f).cell i = f (i - off) := if_pos ⟨low, high⟩

theorem change_below (low : i < off) : (b.change off n f).cell i = b.cell i :=
  if_neg fun inside => Nat.not_le.mpr low inside.1

theorem change_above (high : off + n ≤ i) : (b.change off n f).cell i = b.cell i :=
  if_neg fun inside => Nat.not_lt.mpr high inside.2

/-- A change behind the header keeps the capacity. -/
theorem capacityOf_change (behind : l.hdr ≤ off) :
    l.capacityOf (b.change off n f) = l.capacityOf b := by
  refine sizeOf_congr fun i lt => ?_
  rw [change_below (Nat.lt_of_lt_of_le lt (Nat.le_trans l.holds behind))]

/-- A change inside a block leaves everything else. -/
theorem change_of_live (live : h.blocks p = some b) (inside : off + n ≤ b.len) :
    h.change p off n f = h.put p (some (b.change off n f)) := by
  simp only [Heap.change, live, inside, decide_true, Bool.not_true, Bool.or_false, Heap.put]

/-- Bytes are copied from one block to another, inside both. -/
theorem memcpy_of_live {c : Block} (live : h.blocks p = some b) (goal : h.blocks q = some c)
    (inside : off + n ≤ b.len) (room : off + n ≤ c.len) :
    h.memcpy q p off n = h.put q (some (c.change off n fun i => b.cell (off + i))) := by
  rw [Heap.memcpy, live]
  dsimp only
  rw [change_of_live goal room]
  simp only [Heap.put, inside, decide_true, Bool.not_true, Bool.or_false]

/-- A new block has its header and nothing of the caller. -/
theorem secretAlloc_spec (l : Layout) (h : Heap) (io : MallocIo) (fits : n ≤ l.SIZE_MAX) :
    l.secretAlloc h n io = (h, none) ∨
      ∃ b, l.secretAlloc h n io =
          ({ h.put h.next (some b) with next := h.next + 1 }, some h.next) ∧
        b.len = l.hdr + n ∧ l.capacityOf b = n ∧ ∀ i, (b.cell i).secret = false := by
  rw [Layout.secretAlloc]
  split
  · exact .inl rfl
  · cases succeeds : io.succeeds with
    | false =>
        left
        simp only [Heap.malloc, succeeds, Bool.false_eq_true, if_false]
    | true =>
        right
        let raw : Block := ⟨l.hdr + n, fun i => ⟨io.garbage i, false⟩⟩
        refine ⟨raw.change 0 l.sizeofSize fun i => ⟨sizeByte n i, false⟩, ?_, rfl, ?_, ?_⟩
        · have room : 0 + l.sizeofSize ≤ raw.len := by
            rw [Nat.zero_add]
            exact Nat.le_add_right_of_le l.holds
          have live : ({ h.put h.next (some raw) with next := h.next + 1 } : Heap).blocks h.next =
              some raw := put_self h h.next (some raw)
          simp only [Heap.malloc, succeeds, if_true]
          rw [change_of_live live room]
          simp only [Heap.put, Function.update_idem]
        · refine Eq.trans (sizeOf_congr fun i lt => ?_) (sizeOf_sizeByte fits)
          rw [change_inside (Nat.zero_le i) (by rw [Nat.zero_add]; exact lt)]
          rfl
        · intro i
          by_cases header : i < 0 + l.sizeofSize
          · rw [change_inside (Nat.zero_le i) header]
          · rw [change_above (Nat.not_lt.mp header)]

/-- A block that holds its header, with what the caller wrote inside its size. -/
structure Fits (l : Layout) (size : Nat) (b : Block) : Prop where
  len_eq : b.len = l.hdr + l.capacityOf b
  size_le : size ≤ l.capacityOf b
  secret : ∀ i, (b.cell i).secret = true → l.hdr ≤ i ∧ i < l.hdr + size

theorem secretCapacity_of_live (live : h.blocks p = some b) :
    l.secretCapacity h p = l.capacityOf b := by
  rw [Layout.secretCapacity, live]
  rfl

/-- A block goes back wiped. -/
theorem secretFree_spec (live : h.blocks p = some b) (len : b.len = l.hdr + l.capacityOf b) :
    ∃ w : Block, (∀ i < w.len, w.cell i = Cell.wiped) ∧
      l.secretFree h (some p) =
        { h.put p none with returned := w :: h.returned } := by
  refine ⟨b.change 0 (l.hdr + l.capacityOf b) fun _ => Cell.wiped, ?_, ?_⟩
  · intro i lt
    rw [change_inside (Nat.zero_le i) (by rw [Nat.zero_add, ← len]; exact lt)]
  · rw [Layout.secretFree, secretCapacity_of_live live, Heap.secretWipe,
      change_of_live live (Nat.le_of_eq (by rw [Nat.zero_add, len]))]
    simp only [Heap.free, Heap.put, Function.update_self, Function.update_idem]

/-- A smaller size wipes what is behind it, in place. -/
theorem secretRealloc_shrink (live : h.blocks p = some b)
    (len : b.len = l.hdr + l.capacityOf b) (le : n ≤ l.capacityOf b) :
    l.secretRealloc h (some p) n io =
      (h.put p (some (b.change (l.hdr + n) (l.capacityOf b - n) fun _ => Cell.wiped)),
        some p) := by
  rw [Layout.secretRealloc, secretCapacity_of_live live, if_pos le, Heap.secretWipe, change_of_live live (by omega)]

/-- A larger size moves the bytes to a new block, or leaves the heap as it is. -/
theorem secretRealloc_grow (live : h.blocks p = some b) (len : b.len = l.hdr + l.capacityOf b)
    (fresh : h.next ≠ p) (more : l.capacityOf b < n) (fits : n ≤ l.SIZE_MAX) :
    l.secretRealloc h (some p) n io = (h, none) ∨
      ∃ c w : Block, (∀ i < w.len, w.cell i = Cell.wiped) ∧
        l.secretRealloc h (some p) n io =
          ({ (h.put h.next
                (some (c.change l.hdr (l.capacityOf b) fun i => b.cell (l.hdr + i)))).put p none with
              next := h.next + 1
              returned := w :: h.returned }, some h.next) ∧
          c.len = l.hdr + n ∧ l.capacityOf c = n ∧ ∀ i, (c.cell i).secret = false := by
  rw [Layout.secretRealloc, secretCapacity_of_live live, if_neg (Nat.not_le.mpr more)]
  obtain none | ⟨c, got, clen, ccap, clean⟩ := secretAlloc_spec l h io fits
  · left
    rw [none]
  · right
    -- the new block takes the bytes of the old one, which then goes back
    have moved : ({ h.put h.next (some c) with next := h.next + 1 } : Heap).blocks h.next =
        some c := put_self h h.next (some c)
    have old : ({ h.put h.next (some c) with next := h.next + 1 } : Heap).blocks p = some b :=
      (put_other h (some c) fresh.symm).trans live
    have copied := memcpy_of_live old moved (Nat.le_of_eq len.symm)
      (by rw [clen]; exact Nat.add_le_add_left (Nat.le_of_lt more) l.hdr)
    have still := (put_other ({ h.put h.next (some c) with next := h.next + 1 } : Heap)
      (some (c.change l.hdr (l.capacityOf b) fun i => b.cell (l.hdr + i))) fresh.symm).trans old
    obtain ⟨w, wiped, freed⟩ := secretFree_spec still len
    refine ⟨c, w, wiped, ?_, clen, ccap, clean⟩
    rw [got]
    dsimp only
    rw [copied, freed]
    simp only [Heap.put, Function.update_idem]

/-- What every call keeps. -/
structure Kept (l : Layout) (h : Heap) : Prop where
  fresh : ∀ p, h.next ≤ p → h.blocks p = none
  fits : ∀ p b, h.blocks p = some b → Fits l (h.size p) b
  returned : ∀ b ∈ h.returned, ∀ i < b.len, b.cell i = Cell.wiped
  inside : h.outside = false

namespace Kept

theorem empty (l : Layout) : Kept l Heap.empty where
  fresh := fun _ _ => rfl
  fits := fun _ _ live => nomatch live
  returned := fun _ mem => nomatch mem
  inside := rfl

/-- A block in use is older than the next one. -/
theorem next_ne (kept : Kept l h) (live : h.blocks p = some b) : h.next ≠ p := by
  rintro rfl
  rw [kept.fresh h.next (Nat.le_refl _)] at live
  cases live

theorem lt_next (kept : Kept l h) (live : h.blocks p = some b) : p < h.next := by
  by_contra later
  rw [kept.fresh p (Nat.not_lt.mp later)] at live
  cases live

/-- A block that fits is put in the place of one, or in a new place. -/
theorem put {next size : Nat} (kept : Kept l h) (old : h.next ≤ next) (lt : p < next)
    (fits : Fits l size b) :
    Kept l { h.put p (some b) with next := next, size := Function.update h.size p size } where
  fresh := by
    intro q later
    rw [← kept.fresh q (Nat.le_trans old later)]
    exact put_other h (some b) (Nat.ne_of_gt (Nat.lt_of_lt_of_le lt later))
  fits := by
    intro q c (found : (h.put p (some b)).blocks q = some c)
    by_cases same : q = p
    · subst same
      rw [put_self] at found
      injection found with eq
      subst eq
      simpa using fits
    · rw [put_other h (some b) same] at found
      simpa [same] using kept.fits q c found
  returned := kept.returned
  inside := kept.inside

/-- A wiped block goes back. -/
theorem drop {w : Block} (kept : Kept l h) (p : Nat) (wiped : ∀ i < w.len, w.cell i = Cell.wiped) :
    Kept l { h.put p none with returned := w :: h.returned } where
  fresh := by
    intro q (later : h.next ≤ q)
    by_cases same : q = p
    · subst same
      exact put_self h q none
    · exact (put_other h none same).trans (kept.fresh q later)
  fits := by
    intro q c (found : (h.put p none).blocks q = some c)
    by_cases same : q = p
    · subst same
      rw [put_self] at found
      cases found
    · rw [put_other h none same] at found
      exact kept.fits q c found
  returned := by
    intro c mem
    rcases List.mem_cons.mp mem with rfl | mem
    · exact wiped
    · exact kept.returned c mem
  inside := kept.inside

theorem alloc (kept : Kept l h) (fits : n ≤ l.SIZE_MAX) :
    Kept l (Heap.sized (l.secretAlloc h n io) n) := by
  obtain none | ⟨c, got, clen, ccap, clean⟩ := secretAlloc_spec l h io fits
  · rw [none]
    exact kept
  · rw [got]
    refine kept.put (Nat.le_succ h.next) (Nat.lt_succ_self h.next) ⟨?_, ?_, ?_⟩
    · rw [clen, ccap]
    · exact Nat.le_of_eq ccap.symm
    · intro i secret
      rw [clean] at secret
      cases secret

theorem free (kept : Kept l h) {r : Option Nat}
    (live : ∀ p ∈ r, (h.blocks p).isSome = true) : Kept l (l.secretFree h r) := by
  cases r with
  | none => exact kept
  | some p =>
      obtain ⟨b, block⟩ := Option.isSome_iff_exists.mp (live p rfl)
      obtain ⟨w, wiped, freed⟩ := secretFree_spec block (kept.fits p b block).len_eq
      rw [freed]
      exact kept.drop p wiped

theorem write (kept : Kept l h) (live : h.blocks p = some b) (i : Nat) (lt : i < h.size p)
    (byte : Nat) : Kept l (h.change p (l.hdr + i) 1 fun _ => ⟨byte, true⟩) := by
  have old := kept.fits p b live
  have len := old.len_eq
  have size := old.size_le
  have cap := @capacityOf_change l b 1 (l.hdr + i) (fun _ => ⟨byte, true⟩) (Nat.le_add_right _ _)
  have fits : Fits l (h.size p) (b.change (l.hdr + i) 1 fun _ => ⟨byte, true⟩) := by
    refine ⟨?_, ?_, ?_⟩
    · rw [cap]
      exact len
    · rw [cap]
      exact size
    · intro j secret
      by_cases here : j = l.hdr + i
      · omega
      · have other : j < l.hdr + i ∨ l.hdr + i + 1 ≤ j := by omega
        rcases other with below | above
        · rw [change_below below] at secret
          exact old.secret j secret
        · rw [change_above above] at secret
          exact old.secret j secret
  rw [change_of_live live (by omega)]
  have kept := kept.put (Nat.le_refl h.next) (kept.lt_next live) fits
  rw [Function.update_eq_self] at kept
  exact kept

/-- A smaller size. -/
theorem shrink (kept : Kept l h) (live : h.blocks p = some b) (le : n ≤ l.capacityOf b) :
    Kept l (Heap.sized (l.secretRealloc h (some p) n io) n) := by
  have old := kept.fits p b live
  have cap := @capacityOf_change l b (l.capacityOf b - n) (l.hdr + n) (fun _ => Cell.wiped)
    (Nat.le_add_right _ _)
  rw [secretRealloc_shrink live old.len_eq le]
  refine kept.put (Nat.le_refl h.next) (kept.lt_next live) ⟨?_, ?_, ?_⟩
  · rw [cap]
    exact old.len_eq
  · rw [cap]
    exact le
  · intro i secret
    have size := old.size_le
    by_cases below : i < l.hdr + n
    · rw [change_below below] at secret
      exact ⟨(old.secret i secret).1, below⟩
    · by_cases inside : i < l.hdr + n + (l.capacityOf b - n)
      · rw [change_inside (Nat.not_lt.mp below) inside] at secret
        cases secret
      · rw [change_above (Nat.not_lt.mp inside)] at secret
        have := old.secret i secret
        omega

/-- A larger size. -/
theorem grow (kept : Kept l h) (live : h.blocks p = some b) (more : l.capacityOf b < n)
    (fits : n ≤ l.SIZE_MAX) : Kept l (Heap.sized (l.secretRealloc h (some p) n io) n) := by
  have old := kept.fits p b live
  obtain none | ⟨c, w, wiped, got, clen, ccap, clean⟩ :=
    @secretRealloc_grow l h b p n io live old.len_eq (kept.next_ne live) more fits
  · rw [none]
    exact kept
  · rw [got]
    have cap := @capacityOf_change l c (l.capacityOf b) l.hdr (fun i => b.cell (l.hdr + i))
      (Nat.le_refl _)
    have moved : Fits l n (c.change l.hdr (l.capacityOf b) fun i => b.cell (l.hdr + i)) := by
      refine ⟨?_, ?_, ?_⟩
      · rw [cap, ccap]
        exact clen
      · exact Nat.le_of_eq (cap.trans ccap).symm
      · intro i secret
        by_cases below : i < l.hdr
        · rw [change_below below, clean] at secret
          cases secret
        · by_cases inside : i < l.hdr + l.capacityOf b
          · omega
          · rw [change_above (Nat.not_lt.mp inside), clean] at secret
            cases secret
    exact (kept.put (Nat.le_succ h.next) (Nat.lt_succ_self h.next) moved).drop p wiped

theorem step (kept : Kept l h) (c : Call) (legal : Legal l h c) : Kept l (callStep l h c) := by
  cases c with
  | alloc n io => exact kept.alloc legal
  | realloc r n io =>
      obtain ⟨fits, live⟩ := legal
      cases r with
      | none => exact kept.alloc fits
      | some p =>
          obtain ⟨b, block⟩ := Option.isSome_iff_exists.mp (live p rfl)
          rcases Nat.lt_or_ge (l.capacityOf b) n with more | le
          · exact kept.grow block more fits
          · exact kept.shrink block le
  | free r => exact kept.free legal
  | write p i byte =>
      obtain ⟨b, block⟩ := Option.isSome_iff_exists.mp legal.1
      exact kept.write block i legal.2 byte

/-- What a realloc keeps of the bytes. -/
theorem realloc (kept : Kept l h) (c : Call) (legal : Legal l h c) : ReallocKeeps l h c := by
  cases c with
  | realloc r n io =>
      cases r with
      | none => trivial
      | some p =>
          obtain ⟨b, block⟩ := Option.isSome_iff_exists.mp (legal.2 p rfl)
          have old := kept.fits p b block
          have size := old.size_le
          rcases Nat.lt_or_ge (l.capacityOf b) n with more | le
          · obtain none | ⟨c, w, wiped, got, clen, ccap, clean⟩ :=
              @secretRealloc_grow l h b p n io block old.len_eq (kept.next_ne block) more legal.1
            · simp [ReallocKeeps, none]
            · refine ⟨?_, fun failed => ?_⟩
              · rw [got]
                rintro q ⟨⟩ i lt
                have moved := (put_other (h.put h.next
                  (some (c.change l.hdr (l.capacityOf b) fun i => b.cell (l.hdr + i)))) none
                    (kept.next_ne block)).trans (put_self h h.next _)
                have within : l.hdr + i < l.hdr + l.capacityOf b := by omega
                rw [data_of_live block]
                refine Eq.trans (data_of_live moved) ?_
                rw [change_inside (Nat.le_add_right _ _) within, Nat.add_sub_cancel_left]
              · rw [got] at failed
                cases failed
          · have got := @secretRealloc_shrink l h b p n io block old.len_eq le
            refine ⟨?_, fun failed => ?_⟩
            · rw [got]
              rintro q ⟨⟩ i lt
              have below : l.hdr + i < l.hdr + n := by omega
              rw [data_of_live block, data_of_live (put_self h p _), change_below below]
            · rw [got] at failed
              cases failed
  | alloc => trivial
  | free => trivial
  | write => trivial

end Kept

/-- Every block goes back wiped, what the caller wrote is inside the sizes, and a realloc keeps it,
in every run of calls. -/
theorem secret_heap_wipes (l : Layout) (cs : List Call)
    (legal : Meets (callStep l) (Legal l) Heap.empty cs) :
    (∀ b ∈ (run (callStep l) Heap.empty cs).returned, ∀ i < b.len, b.cell i = Cell.wiped) ∧
    (∀ p b, (run (callStep l) Heap.empty cs).blocks p = some b →
      ∀ i, (b.cell i).secret = true →
        l.hdr ≤ i ∧ i < l.hdr + (run (callStep l) Heap.empty cs).size p) ∧
    (run (callStep l) Heap.empty cs).outside = false ∧
    Meets (callStep l) (ReallocKeeps l) Heap.empty cs := by
  have kept : Kept l (run (callStep l) Heap.empty cs) :=
    legal.invariant (fun _ c kept legal => kept.step c legal) (Kept.empty l)
  refine ⟨kept.returned, fun p b live => (kept.fits p b live).secret, kept.inside, ?_⟩
  exact legal.yields (fun _ c kept legal => ⟨kept.step c legal, kept.realloc c legal⟩)
    (Kept.empty l)

end

def board : Layout where
  sizeofSize := 4
  hdr := 8
  holds := by decide

def given : MallocIo := ⟨true, fun _ => 170⟩

/-- A key is written, cut, grown past its block and freed. -/
def keyCalls : List Call :=
  [.alloc 3 given, .write 0 0 75, .write 0 1 69, .write 0 2 89, .realloc (some 0) 2 given,
    .realloc (some 0) 6 given, .free (some 1)]

theorem secret_heap_wipes_key :
    Meets (callStep board) (Legal board) Heap.empty keyCalls ∧
      (run (callStep board) Heap.empty keyCalls).outside = false ∧
      Meets (callStep board) (ReallocKeeps board) Heap.empty keyCalls := by
  have legal : Meets (callStep board) (Legal board) Heap.empty keyCalls := by
    decide
  obtain ⟨-, -, inside, keeps⟩ := secret_heap_wipes board keyCalls legal
  exact ⟨legal, inside, keeps⟩

end Thesada.Secret
