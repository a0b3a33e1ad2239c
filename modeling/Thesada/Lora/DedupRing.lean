import Mathlib.Logic.Function.Basic
import Thesada.Library.Machine
import Thesada.Library.RingBuffer

/-!
# The ring of seen packets

`DedupRing` keeps the sender and the id of the last `N` packets in two arrays, which it fills from
the front and then overwrites in place. Its scan runs over the first `count` slots in the order of
the arrays, not of the packets. An id of zero is never recorded.

`DedupRun.recorded` only keeps the recorded pairs: no step reads it.
-/

namespace Thesada.Lora

/-- A sender and a packet id. -/
abbrev Packet := UInt32 × UInt32

structure DedupRing where
  src : Nat → UInt32
  id : Nat → UInt32
  next : Nat
  count : Nat

namespace DedupRing

def zero : DedupRing := ⟨fun _ => 0, fun _ => 0, 0, 0⟩

def seen (r : DedupRing) (p : Packet) : Bool :=
  (List.range r.count).any fun i => r.src i = p.1 && r.id i = p.2

def record (n : Nat) (r : DedupRing) (p : Packet) : DedupRing where
  src := Function.update r.src r.next p.1
  id := Function.update r.id r.next p.2
  next := (r.next + 1) % n
  count := if r.count < n then r.count + 1 else r.count

/-- Whether the packet is a duplicate, and the ring after it. -/
def seenAndRecord (n : Nat) (r : DedupRing) (p : Packet) : Bool × DedupRing :=
  if p.2 = 0 then (false, r)
  else if r.seen p then (true, r)
  else (false, r.record n p)

end DedupRing

structure DedupRun where
  ring : DedupRing
  /-- The pairs recorded, the newest first. -/
  recorded : List Packet

def DedupRun.start : DedupRun := ⟨.zero, []⟩

def DedupRun.call (n : Nat) (s : DedupRun) (p : Packet) : DedupRun where
  ring := (s.ring.seenAndRecord n p).2
  recorded := if p.2 = 0 ∨ s.ring.seen p then s.recorded else p :: s.recorded

/-! ## The ring as a queue -/

namespace DedupRing

variable {n : Nat} {r : DedupRing} {p : Packet}

/-- Until it is full the ring is filled from the front. -/
structure Fits (n : Nat) (r : DedupRing) : Prop where
  next_lt : r.next < n
  count_le : r.count ≤ n
  filling : r.count < n → r.next = r.count

/-- The first `count` slots, from the oldest on. -/
def queue (n : Nat) (r : DedupRing) : RingBuffer Packet where
  slot i := ⟨(r.src i, r.id i), decide (i < r.count)⟩
  head := if r.count < n then 0 else r.next
  tail := r.next
  count := r.count

theorem queue_laid (h : r.Fits n) : (r.queue n).Laid n := by
  by_cases room : r.count < n
  · have head : (r.queue n).head = 0 := if_pos room
    refine ⟨?_, h.count_le, ?_, ?_⟩
    · rw [head]
      exact Nat.zero_lt_of_lt room
    · show r.next = ((r.queue n).head + r.count) % n
      rw [head, Nat.zero_add, Nat.mod_eq_of_lt room, h.filling room]
    · intro i inside
      show decide ((r.queue n).place n i < r.count) = _
      rw [RingBuffer.place, head, Nat.zero_add, Nat.mod_eq_of_lt inside]
      rfl
  · have full : r.count = n := Nat.le_antisymm h.count_le (Nat.not_lt.mp room)
    have head : (r.queue n).head = r.next := if_neg room
    refine ⟨?_, h.count_le, ?_, ?_⟩
    · rw [head]
      exact h.next_lt
    · show r.next = ((r.queue n).head + r.count) % n
      rw [head, full, Nat.add_mod_right, Nat.mod_eq_of_lt h.next_lt]
    · intro i inside
      show decide ((r.queue n).place n i < r.count) = decide (i < r.count)
      rw [full, decide_eq_true inside]
      exact decide_eq_true (Nat.mod_lt _ (Nat.zero_lt_of_lt inside))

/-- A scan in the order of the arrays finds what the queue holds. -/
theorem seen_iff (h : r.Fits n) : r.seen p = true ↔ p ∈ (r.queue n).items n := by
  have laid := queue_laid h
  have held : ∀ i < n, (r.queue n).place n i < r.count ↔ i < r.count := by
    intro i inside
    have mark : decide ((r.queue n).place n i < r.count) = decide (i < r.count) :=
      laid.valid i inside
    exact decide_eq_decide.mp mark
  have slots : r.seen p = true ↔ ∃ i < r.count, (r.src i, r.id i) = p := by
    simp [seen, Prod.ext_iff]
  rw [slots]
  simp only [RingBuffer.items, List.mem_map, List.mem_range]
  constructor
  · rintro ⟨j, inside, same⟩
    obtain ⟨i, low, rfl⟩ :=
      RingBuffer.place_surj laid.head_lt (Nat.lt_of_lt_of_le inside h.count_le)
    exact ⟨i, (held i low).mp inside, same⟩
  · rintro ⟨i, inside, same⟩
    exact ⟨_, (held i (Nat.lt_of_lt_of_le inside h.count_le)).mpr inside, same⟩

/-- The queue after a record: the slot at `next` has the packet. -/
theorem record_slot (h : r.Fits n) (i : Nat) :
    ((r.record n p).queue n).slot i =
      if i = r.next then ⟨p, true⟩ else (r.queue n).slot i := by
  have count : (r.record n p).count = if r.count < n then r.count + 1 else r.count := rfl
  show RingSlot.mk (Function.update r.src r.next p.1 i, Function.update r.id r.next p.2 i)
    (decide (i < (r.record n p).count)) = _
  by_cases same : i = r.next
  · rw [if_pos same, same, Function.update_self, Function.update_self, count]
    congr 1
    rw [decide_eq_true_eq]
    split
    · next room => exact (h.filling room) ▸ Nat.lt_succ_self _
    · next full => exact Nat.lt_of_lt_of_le h.next_lt (Nat.not_lt.mp full)
  · rw [if_neg same, Function.update_of_ne same, Function.update_of_ne same, count]
    show _ = RingSlot.mk (r.src i, r.id i) (decide (i < r.count))
    congr 1
    rw [decide_eq_decide]
    split
    · next room =>
        have last := h.filling room
        omega
    · exact Iff.rfl

theorem Fits.record (h : r.Fits n) (p : Packet) : (r.record n p).Fits n := by
  have next_lt : (r.next + 1) % n < n := Nat.mod_lt _ (Nat.zero_lt_of_lt h.next_lt)
  by_cases room : r.count < n
  · have count : (r.record n p).count = r.count + 1 := if_pos room
    refine ⟨next_lt, ?_, ?_⟩
    · rw [count]
      exact room
    · intro more
      rw [count] at more ⊢
      show (r.next + 1) % n = _
      rw [h.filling room, Nat.mod_eq_of_lt more]
  · have count : (r.record n p).count = r.count := if_neg room
    refine ⟨next_lt, ?_, ?_⟩
    · rw [count]
      exact h.count_le
    · intro more
      exact absurd (count ▸ more) room

/-- Until the ring is full a record puts the packet behind the others. -/
theorem record_room (h : r.Fits n) (room : r.count < n) :
    (r.record n p).queue n = (r.queue n).push n p := by
  have count : (r.record n p).count = r.count + 1 := if_pos room
  have head : ((r.record n p).queue n).head = (r.queue n).head := by
    have first : (r.queue n).head = 0 := if_pos room
    show (if (r.record n p).count < n then 0 else (r.next + 1) % n) = _
    rw [first, count, h.filling room]
    split
    · rfl
    · next last =>
        have whole : r.count + 1 = n := Nat.le_antisymm room (Nat.not_lt.mp last)
        rw [whole, Nat.mod_self]
  have slots : ((r.record n p).queue n).slot = ((r.queue n).push n p).slot :=
    funext (record_slot h)
  show RingBuffer.mk _ _ _ _ = RingBuffer.mk _ _ _ _
  rw [RingBuffer.mk.injEq]
  exact ⟨slots, head, rfl, count⟩

/-- In a full ring it takes the slot of the oldest. -/
theorem record_full (h : r.Fits n) (full : r.count = n) :
    (r.record n p).queue n = ((r.queue n).skip n).push n p := by
  have none_left : ¬r.count < n := Nat.not_lt.mpr (Nat.le_of_eq full.symm)
  have count : (r.record n p).count = r.count := if_neg none_left
  have head : ((r.record n p).queue n).head = ((r.queue n).skip n).head := by
    have first : (r.queue n).head = r.next := if_neg none_left
    show (if (r.record n p).count < n then 0 else (r.next + 1) % n) = ((r.queue n).head + 1) % n
    rw [count, if_neg none_left, first]
  have slots : ((r.record n p).queue n).slot = (((r.queue n).skip n).push n p).slot :=
    funext (record_slot h)
  have pos : 0 < n := Nat.zero_lt_of_lt h.next_lt
  show RingBuffer.mk _ _ _ _ = RingBuffer.mk _ _ _ _
  rw [RingBuffer.mk.injEq]
  refine ⟨slots, head, rfl, ?_⟩
  show (r.record n p).count = r.count - 1 + 1
  rw [count]
  omega

end DedupRing

/-! ## Runs -/

/-- The queue has the last `n` packets recorded. -/
structure DedupRun.Holds (n : Nat) (s : DedupRun) : Prop where
  fits : s.ring.Fits n
  window : (s.ring.queue n).items n = (s.recorded.take n).reverse

namespace DedupRun

variable {n : Nat} {s : DedupRun}

theorem start_holds (pos : 0 < n) : start.Holds n where
  fits := ⟨pos, Nat.zero_le n, fun _ => rfl⟩
  window := by rw [start, List.take_nil]; rfl

theorem Holds.length (h : s.Holds n) : s.ring.count = min n s.recorded.length := by
  have length := congrArg List.length h.window
  rwa [RingBuffer.items, List.length_map, List.length_range, List.length_reverse,
    List.length_take] at length

theorem Holds.record (h : s.Holds n) (p : Packet) :
    Holds n ⟨s.ring.record n p, p :: s.recorded⟩ := by
  refine ⟨h.fits.record p, ?_⟩
  show ((s.ring.record n p).queue n).items n = ((p :: s.recorded).take n).reverse
  have laid := DedupRing.queue_laid h.fits
  have length := h.length
  by_cases room : s.ring.count < n
  · rw [DedupRing.record_room h.fits room, RingBuffer.push_items laid room, h.window]
    have short : s.recorded.length < n := by omega
    rw [List.take_of_length_le (Nat.le_of_lt short), List.take_of_length_le short,
      List.reverse_cons]
  · have full : s.ring.count = n := Nat.le_antisymm h.fits.count_le (Nat.not_lt.mp room)
    obtain ⟨m, rfl⟩ : ∃ m, n = m + 1 :=
      Nat.exists_eq_succ_of_ne_zero (Nat.ne_of_gt (Nat.zero_lt_of_lt h.fits.next_lt))
    have items := RingBuffer.items_skip laid.head_lt (by show 0 < s.ring.count; omega)
    rw [DedupRing.record_full h.fits full, (RingBuffer.skip_push_items laid full p).1,
      List.take_succ_cons, List.reverse_cons]
    congr 1
    have tail := congrArg List.tail (items.symm.trans h.window)
    have taken : min (min (m + 1) s.recorded.length - 1) (m + 1) = m := by omega
    rw [List.tail_cons, List.tail_reverse, List.dropLast_eq_take, List.length_take,
      List.take_take, taken] at tail
    exact tail

theorem Holds.call (h : s.Holds n) (p : Packet) : (s.call n p).Holds n := by
  unfold DedupRun.call DedupRing.seenAndRecord
  by_cases untracked : p.2 = 0
  · rw [if_pos untracked, if_pos (Or.inl untracked)]
    exact h
  · rw [if_neg untracked]
    by_cases seen : s.ring.seen p = true
    · rw [if_pos seen, if_pos (Or.inr seen)]
      exact h
    · rw [if_neg seen, if_neg (not_or.mpr ⟨untracked, seen⟩)]
      exact h.record p

theorem Holds.reports (h : s.Holds n) (p : Packet) :
    (s.ring.seenAndRecord n p).1 = true ↔ p.2 ≠ 0 ∧ p ∈ s.recorded.take n := by
  rw [← List.mem_reverse, ← h.window, ← DedupRing.seen_iff h.fits]
  unfold DedupRing.seenAndRecord
  by_cases untracked : p.2 = 0
  · simp [untracked]
  · by_cases seen : s.ring.seen p = true
    · simp [untracked, seen]
    · simp [untracked, seen]

end DedupRun

/-- In every run of calls: a call reports a duplicate when its id is not zero and the pair is among
the last `n` recorded, and only then. -/
theorem dedup_runs (n : Nat) (pos : 0 < n) (calls : List Packet) :
    Machine.Meets (DedupRun.call n)
      (fun s p => (s.ring.seenAndRecord n p).1 = true ↔ p.2 ≠ 0 ∧ p ∈ s.recorded.take n)
      .start calls :=
  Machine.meets_of_invariant (fun _ p h => h.call p) (fun _ p h => h.reports p)
    (DedupRun.start_holds pos) calls

/-- Four new packets drop the first, which passes again; the newest is still a duplicate. -/
theorem dedup_runs_evicts :
    Machine.Meets (DedupRun.call 4)
        (fun s p => (s.ring.seenAndRecord 4 p).1 = true ↔ p.2 ≠ 0 ∧ p ∈ s.recorded.take 4)
        .start [(0xA1, 1), (0xA1, 2), (0xA1, 3), (0xA1, 4), (0xA1, 5), (0xA1, 1), (0xA1, 5)] ∧
      (Machine.run (DedupRun.call 4) .start
        [(0xA1, 1), (0xA1, 2), (0xA1, 3), (0xA1, 4), (0xA1, 5), (0xA1, 1),
          (0xA1, 5)]).recorded.length = 6 :=
  ⟨dedup_runs 4 (by decide) _, by decide⟩

end Thesada.Lora
