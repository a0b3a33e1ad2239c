import Mathlib.Data.List.Basic
import Mathlib.Data.List.Range
import Mathlib.Data.Nat.ModEq

/-!
# A ring of marked slots

A fixed array of `n` slots with a head, a tail and a count, in which each slot carries a
mark that says it is in use. The items of a ring are the `count` values from the head on.
A ring is laid out when the marked slots are exactly these and the tail is just past them.
-/

variable {α : Type*}

structure RingSlot (α : Type*) where
  value : α
  valid : Bool

/-- Slots are indexed below `n`; what lies above is never read. -/
structure RingBuffer (α : Type*) where
  slot : Nat → RingSlot α
  head : Nat
  tail : Nat
  count : Nat

namespace RingBuffer

variable (n : Nat)

/-- The slot `i` places after the head. -/
def place (r : RingBuffer α) (i : Nat) : Nat := (r.head + i) % n

def items (r : RingBuffer α) : List α :=
  (List.range r.count).map fun i => (r.slot (r.place n i)).value

structure Laid (r : RingBuffer α) : Prop where
  head_lt : r.head < n
  count_le : r.count ≤ n
  tail_eq : r.tail = r.place n r.count
  valid : ∀ i < n, (r.slot (r.place n i)).valid = decide (i < r.count)

def setSlot (r : RingBuffer α) (i : Nat) (s : RingSlot α) : RingBuffer α :=
  { r with slot := fun j => if j = i then s else r.slot j }

/-- Put a value in the tail slot. -/
def push (r : RingBuffer α) (value : α) : RingBuffer α :=
  { r.setSlot r.tail { value, valid := true } with tail := (r.tail + 1) % n, count := r.count + 1 }

/-- Step the head past its slot, which keeps its mark. -/
def skip (r : RingBuffer α) : RingBuffer α :=
  { r with head := (r.head + 1) % n, count := r.count - 1 }

/-- Unmark the head slot and step past it. -/
def pop (r : RingBuffer α) : RingBuffer α :=
  skip n (r.setSlot r.head { value := (r.slot r.head).value, valid := false })

variable {n}

theorem place_zero {r : RingBuffer α} (h : r.head < n) : r.place n 0 = r.head := Nat.mod_eq_of_lt h

theorem place_lt {r : RingBuffer α} (h : r.head < n) (i : Nat) : r.place n i < n :=
  Nat.mod_lt _ (Nat.zero_lt_of_lt h)

/-- Distinct places of one revolution are distinct slots. -/
theorem place_inj {r : RingBuffer α} {i j : Nat} (hi : i < n) (hj : j < n)
    (same : r.place n i = r.place n j) : i = j := by
  have congr : (r.head + i) ≡ (r.head + j) [MOD n] := same
  have cancelled : i ≡ j [MOD n] := Nat.ModEq.add_left_cancel' r.head congr
  rwa [Nat.ModEq, Nat.mod_eq_of_lt hi, Nat.mod_eq_of_lt hj] at cancelled

/-- Every slot has its place in a revolution. -/
theorem place_surj {r : RingBuffer α} (h : r.head < n) {j : Nat} (hj : j < n) :
    ∃ i < n, r.place n i = j := by
  refine ⟨(j + (n - r.head)) % n, Nat.mod_lt _ (Nat.zero_lt_of_lt h), ?_⟩
  have round : r.head + (j + (n - r.head)) = j + n := by omega
  rw [place, Nat.add_mod_mod, round, Nat.add_mod_right, Nat.mod_eq_of_lt hj]

/-- A full revolution leads back to the head. -/
theorem place_full {r : RingBuffer α} (h : r.head < n) : r.place n n = r.head := by
  rw [place, Nat.add_mod_right, Nat.mod_eq_of_lt h]

theorem place_skip (r : RingBuffer α) (i : Nat) : (r.skip n).place n i = r.place n (i + 1) := by
  simp only [place, skip, Nat.mod_add_mod]
  congr 1
  omega

/-- The items split at the head. -/
theorem items_skip {r : RingBuffer α} (h : r.head < n) (some : 0 < r.count) :
    r.items n = (r.slot r.head).value :: (r.skip n).items n := by
  obtain ⟨count, count_eq⟩ := Nat.exists_eq_succ_of_ne_zero (Nat.ne_of_gt some)
  have slot : (r.skip n).slot = r.slot := rfl
  have rest : (r.skip n).count = count := by simp [skip, count_eq]
  simp only [items, count_eq, rest, slot, place_skip]
  rw [List.range_succ_eq_map, List.map_cons, List.map_map, place_zero h]
  rfl

/-- Writing outside the items leaves them. -/
theorem items_setSlot (r : RingBuffer α) (j : Nat) (s : RingSlot α)
    (outside : ∀ i < r.count, r.place n i ≠ j) : (r.setSlot j s).items n = r.items n := by
  simp only [items]
  refine List.map_congr_left fun i hi => ?_
  have ne := outside i (List.mem_range.mp hi)
  change (if r.place n i = j then s else r.slot (r.place n i)).value = _
  rw [if_neg ne]

/-- A slot written with the mark it has keeps the layout, whatever its value. -/
theorem setSlot_laid {r : RingBuffer α} (laid : r.Laid n) {j : Nat} {s : RingSlot α}
    (mark : s.valid = (r.slot j).valid) : (r.setSlot j s).Laid n := by
  refine ⟨laid.head_lt, laid.count_le, laid.tail_eq, ?_⟩
  intro i hi
  have before := laid.valid i hi
  change (if r.place n i = j then s else r.slot (r.place n i)).valid = decide (i < r.count)
  by_cases same : r.place n i = j
  · rw [if_pos same, mark, ← same]
    exact before
  · rw [if_neg same]
    exact before

theorem push_items {r : RingBuffer α} (laid : r.Laid n) (room : r.count < n) (value : α) :
    (r.push n value).items n = r.items n ++ [value] := by
  have places (i : Nat) : (r.push n value).place n i = r.place n i := rfl
  have slots (j : Nat) : (r.push n value).slot j =
      if j = r.tail then { value, valid := true } else r.slot j := rfl
  have count : (r.push n value).count = r.count + 1 := rfl
  simp only [items, count, places, slots, laid.tail_eq]
  rw [List.range_succ, List.map_append]
  congr 1
  · refine List.map_congr_left fun i hi => ?_
    have lt := List.mem_range.mp hi
    rw [if_neg fun same => Nat.ne_of_lt lt (place_inj (lt.trans room) room same)]
  · simp

/-- A push into a free slot keeps the layout. -/
theorem push_laid {r : RingBuffer α} (laid : r.Laid n) (room : r.count < n) (value : α) :
    (r.push n value).Laid n := by
  refine ⟨laid.head_lt, room, ?_, ?_⟩
  · change (r.tail + 1) % n = (r.head + (r.count + 1)) % n
    rw [laid.tail_eq, place, Nat.mod_add_mod, Nat.add_assoc]
  · intro i hi
    change (if r.place n i = r.tail then { value, valid := true } else r.slot (r.place n i)).valid =
      decide (i < r.count + 1)
    rw [laid.tail_eq]
    by_cases same : r.place n i = r.place n r.count
    · rw [if_pos same, place_inj hi room same]
      simp
    · rw [if_neg same, laid.valid i hi]
      have ne : i ≠ r.count := fun eq => same (by rw [eq])
      have split : i < r.count ↔ i < r.count + 1 := by omega
      simp [split]

/-- A push into a full ring overwrites the oldest item. -/
theorem skip_push_items {r : RingBuffer α} (laid : r.Laid n) (full : r.count = n) (value : α) :
    ((r.skip n).push n value).items n = (r.skip n).items n ++ [value] ∧
      ((r.skip n).push n value).Laid n := by
  have pos : 0 < n := Nat.zero_lt_of_lt laid.head_lt
  have count : (r.skip n).count = n - 1 := by simp [skip, full]
  have tail : (r.skip n).tail = r.head := by
    change r.tail = r.head
    rw [laid.tail_eq, full, place_full laid.head_lt]
  have tail_place : (r.skip n).tail = (r.skip n).place n (n - 1) := by
    rw [tail, place_skip, Nat.sub_add_cancel pos, place_full laid.head_lt]
  have head_lt : (r.skip n).head < n := Nat.mod_lt _ pos
  have places (i : Nat) : ((r.skip n).push n value).place n i = (r.skip n).place n i := rfl
  have slots (j : Nat) : ((r.skip n).push n value).slot j =
      if j = (r.skip n).tail then { value, valid := true } else r.slot j := rfl
  refine ⟨?_, head_lt, ?_, ?_, ?_⟩
  · have all : ((r.skip n).push n value).count = n - 1 + 1 := by
      change (r.skip n).count + 1 = _
      rw [count]
    simp only [items, all, count, places, slots, tail_place]
    rw [List.range_succ, List.map_append]
    congr 1
    · refine List.map_congr_left fun i hi => ?_
      have lt := List.mem_range.mp hi
      rw [if_neg fun same =>
        Nat.ne_of_lt lt (place_inj (r := r.skip n) (by omega) (by omega) same)]
      rfl
    · simp
  · change (r.skip n).count + 1 ≤ n
    omega
  · change ((r.skip n).tail + 1) % n = ((r.skip n).head + ((r.skip n).count + 1)) % n
    rw [tail_place, count, place, Nat.mod_add_mod, Nat.add_assoc]
  · intro i hi
    rw [places, slots, tail_place]
    have marked : i < (r.skip n).count + 1 := by omega
    change _ = decide (i < (r.skip n).count + 1)
    rw [decide_eq_true marked]
    by_cases same : (r.skip n).place n i = (r.skip n).place n (n - 1)
    · rw [if_pos same]
    · rw [if_neg same, place_skip]
      have ne : i ≠ n - 1 := fun eq => same (by rw [eq])
      rw [laid.valid (i + 1) (by omega), full]
      simp only [decide_eq_true_eq]
      omega

/-- Taking the head item keeps the layout of the rest. -/
theorem pop_laid {r : RingBuffer α} (laid : r.Laid n) (some : 0 < r.count) :
    (r.pop n).Laid n ∧ r.items n = (r.slot r.head).value :: (r.pop n).items n := by
  have pos : 0 < n := Nat.zero_lt_of_lt laid.head_lt
  have places (i : Nat) : (r.pop n).place n i = r.place n (i + 1) := place_skip _ i
  have slots (j : Nat) : (r.pop n).slot j =
      if j = r.head then { value := (r.slot r.head).value, valid := false } else r.slot j := rfl
  have count : (r.pop n).count = r.count - 1 := rfl
  refine ⟨⟨Nat.mod_lt _ pos, ?_, ?_, ?_⟩, ?_⟩
  · rw [count]
    exact (Nat.sub_le _ _).trans laid.count_le
  · rw [places, count, Nat.sub_add_cancel some]
    exact laid.tail_eq
  · intro i hi
    rw [places, slots, count]
    by_cases wrapped : i + 1 = n
    · -- the slot just left
      rw [wrapped, place_full laid.head_lt, if_pos rfl]
      have count_le := laid.count_le
      symm
      simp only [decide_eq_false_iff_not]
      omega
    · have ne : r.place n (i + 1) ≠ r.head := by
        intro same
        rw [← place_zero laid.head_lt] at same
        exact absurd (place_inj (by omega) pos same) (Nat.succ_ne_zero i)
      rw [if_neg ne, laid.valid (i + 1) (by omega)]
      have shift : i + 1 < r.count ↔ i < r.count - 1 := by omega
      simp [shift]
  · have untouched : (r.pop n).items n = (r.skip n).items n := by
      refine items_setSlot (r.skip n) r.head _ ?_
      intro i hi same
      rw [place_skip, ← place_zero laid.head_lt] at same
      have hi' : i < r.count - 1 := hi
      have count_le := laid.count_le
      exact absurd (place_inj (by omega) pos same) (Nat.succ_ne_zero i)
    rw [untouched]
    exact items_skip laid.head_lt some

end RingBuffer
