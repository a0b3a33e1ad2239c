import Mathlib.Data.Finset.Card
import Mathlib.Data.Fintype.Card
import Mathlib.Data.List.Pairwise
import Mathlib.Logic.Function.Basic

/-!
# Slots that expire

A fixed number of slots, each holding an entry that is live until it expires. A new entry takes a
slot whose entry is not live, and when every one is live the slot that expires first. When each
entry expires later than those before it, the live entries are the live ones among the newest,
as many as there are slots.

An expiry of zero marks an empty slot. The log has the newest entry first.
-/

namespace ExpiringSlots

variable {ε : Type*} (expiry : ε → Nat) {n : Nat}

def Live (now : Nat) (e : ε) : Prop := expiry e ≠ 0 ∧ now < expiry e

/-- The slots a new entry may take. -/
def Reusable (now : Nat) (slots : Fin n → ε) (s : Fin n) : Prop :=
  ¬Live expiry now (slots s) ∨
    (∀ i, Live expiry now (slots i)) ∧ ∀ i, expiry (slots s) ≤ expiry (slots i)

/-- The slots hold the live ones of the newest entries, one slot each. -/
structure Holds (now : Nat) (slots : Fin n → ε) (log : List ε) : Prop where
  issued : ∀ i, Live expiry now (slots i) → slots i ∈ log.take n
  held : ∀ e ∈ log.take n, Live expiry now e → ∃ i, slots i = e
  apart : ∀ i j, Live expiry now (slots i) → Live expiry now (slots j) →
    expiry (slots i) = expiry (slots j) → i = j
  newest : log.Pairwise fun newer older => expiry older < expiry newer

variable {expiry}

theorem Live.earlier {now later : Nat} {e : ε} (live : Live expiry later e) (le : now ≤ later) :
    Live expiry now e :=
  ⟨live.1, Nat.lt_of_le_of_lt le live.2⟩

theorem Live.of_le {now : Nat} {e e' : ε} (live : Live expiry now e)
    (le : expiry e ≤ expiry e') : Live expiry now e' :=
  ⟨fun empty => live.1 (Nat.le_zero.mp (empty ▸ le)), Nat.lt_of_lt_of_le live.2 le⟩

/-- Nothing was issued and no slot is live. -/
theorem Holds.empty {now : Nat} {slots : Fin n → ε} (dead : ∀ i, ¬Live expiry now (slots i)) :
    Holds expiry now slots [] where
  issued := fun i live => absurd live (dead i)
  held := by simp
  apart := fun i _ live => absurd live (dead i)
  newest := List.Pairwise.nil

theorem Holds.later {now later : Nat} {slots : Fin n → ε} {log : List ε}
    (h : Holds expiry now slots log) (le : now ≤ later) : Holds expiry later slots log where
  issued := fun i live => h.issued i (live.earlier le)
  held := fun e mem live => h.held e mem (live.earlier le)
  apart := fun i j live live' => h.apart i j (live.earlier le) (live'.earlier le)
  newest := h.newest

/-- The oldest of `m + 1` entries expires first. -/
theorem expiry_last_lt {log : List ε} {m : Nat} {x y : ε}
    (newest : log.Pairwise fun newer older => expiry older < expiry newer)
    (last : log[m]? = some x) (mem : y ∈ log.take m) : expiry x < expiry y := by
  obtain ⟨bound, rfl⟩ := List.getElem?_eq_some_iff.mp last
  obtain ⟨i, inside, rfl⟩ := List.mem_iff_getElem.mp mem
  have small : i < m := by
    rw [List.length_take] at inside
    omega
  rw [List.getElem_take]
  exact List.pairwise_iff_getElem.mp newest i m (by omega) bound small

theorem mem_take_succ {log : List ε} {m : Nat} {y : ε} (mem : y ∈ log.take (m + 1)) :
    y ∈ log.take m ∨ log[m]? = some y := by
  rw [List.take_add_one, List.mem_append, Option.mem_toList] at mem
  exact mem

/-- Among `m + 1` slots with distinct entries one holds none of `m` entries. -/
theorem exists_slot_outside {m : Nat} {slots : Fin (m + 1) → ε} {log : List ε}
    (apart : ∀ i j, expiry (slots i) = expiry (slots j) → i = j) :
    ∃ i, slots i ∉ log.take m := by
  classical
  by_contra none
  simp only [not_exists, not_not] at none
  have inside : Finset.univ.image (fun i => expiry (slots i)) ⊆
      ((log.take m).map expiry).toFinset := by
    intro d mem
    obtain ⟨i, -, rfl⟩ := Finset.mem_image.mp mem
    exact List.mem_toFinset.mpr (List.mem_map_of_mem (none i))
  have distinct : (Finset.univ.image fun i => expiry (slots i)).card = m + 1 := by
    rw [Finset.card_image_of_injective _ (fun i j same => apart i j same), Finset.card_univ,
      Fintype.card_fin]
  have few := (Finset.card_le_card inside).trans (List.toFinset_card_le _)
  rw [distinct, List.length_map, List.length_take] at few
  omega

/-- The newest `m + 1` entries do not all fit beside one slot. -/
theorem exists_entry_outside {m : Nat} {slots : Fin (m + 1) → ε} {log : List ε} {x : ε}
    (newest : log.Pairwise fun newer older => expiry older < expiry newer)
    (last : log[m]? = some x) (s : Fin (m + 1)) :
    ∃ e ∈ log.take (m + 1), ∀ i, i ≠ s → slots i ≠ e := by
  classical
  by_contra all
  simp only [not_exists, not_and, not_forall, not_not] at all
  have bound : m < log.length := (List.getElem?_eq_some_iff.mp last).1
  have inside : ((log.take (m + 1)).map expiry).toFinset ⊆
      (Finset.univ.erase s).image fun i => expiry (slots i) := by
    intro d mem
    obtain ⟨e, taken, rfl⟩ := List.mem_map.mp (List.mem_toFinset.mp mem)
    obtain ⟨i, other, rfl⟩ := all e taken
    exact Finset.mem_image.mpr ⟨i, Finset.mem_erase.mpr ⟨other, Finset.mem_univ i⟩, rfl⟩
  have distinct : ((log.take (m + 1)).map expiry).Nodup := by
    rw [List.Nodup, List.pairwise_map]
    exact (newest.sublist (List.take_sublist _ _)).imp fun later => Nat.ne_of_gt later
  have many := (Finset.card_le_card inside).trans Finset.card_image_le
  rw [List.toFinset_card_of_nodup distinct, List.length_map, List.length_take,
    Finset.card_erase_of_mem (Finset.mem_univ s), Finset.card_univ, Fintype.card_fin] at many
  omega

section

variable {now m : Nat} {slots : Fin (m + 1) → ε} {log : List ε} {s i : Fin (m + 1)}

/-- The oldest of as many entries as there are slots is in the slot that is taken. -/
theorem Holds.oldest_taken (h : Holds expiry now slots log) (reuse : Reusable expiry now slots s)
    (live : Live expiry now (slots i)) (last : log[m]? = some (slots i)) : i = s := by
  have atLeast : ∀ y ∈ log.take (m + 1), expiry (slots i) ≤ expiry y := by
    intro y mem
    obtain early | same := mem_take_succ mem
    · exact (expiry_last_lt h.newest last early).le
    · rw [last] at same
      rw [Option.some.inj same]
  obtain dead | ⟨allLive, least⟩ := reuse
  · exfalso
    obtain ⟨y, mem, outside⟩ := exists_entry_outside h.newest last s
    obtain ⟨j, rfl⟩ := h.held y mem (live.of_le (atLeast y mem))
    refine outside j ?_ rfl
    rintro rfl
    exact dead (live.of_le (atLeast _ mem))
  · have same : expiry (slots s) = expiry (slots i) :=
      Nat.le_antisymm (least i) (atLeast _ (h.issued s (allLive s)))
    exact (h.apart s i (allLive s) live same).symm

/-- A live entry in the slot that is taken is the oldest. -/
theorem Holds.taken_oldest (h : Holds expiry now slots log) (reuse : Reusable expiry now slots s)
    (live : Live expiry now (slots s)) : slots s ∉ log.take m := by
  intro young
  obtain dead | ⟨allLive, least⟩ := reuse
  · exact dead live
  · obtain ⟨i, outside⟩ : ∃ i, slots i ∉ log.take m :=
      exists_slot_outside fun i k => h.apart i k (allLive i) (allLive k)
    obtain early | last := mem_take_succ (h.issued i (allLive i))
    · exact outside early
    · exact absurd (least i) (Nat.not_le.mpr (expiry_last_lt h.newest last young))

/-- An entry that expires after the others is told from them. -/
theorem Holds.put_apart (h : Holds expiry now slots log) {e : ε}
    (newer : ∀ x ∈ log, expiry x < expiry e) {j : Fin (m + 1)}
    (live : Live expiry now (Function.update slots s e i))
    (live' : Live expiry now (Function.update slots s e j))
    (same : expiry (Function.update slots s e i) = expiry (Function.update slots s e j)) :
    i = j := by
  have older : ∀ i, Live expiry now (slots i) → expiry (slots i) < expiry e :=
    fun i live => newer _ (List.mem_of_mem_take (h.issued i live))
  by_cases first : i = s
  · by_cases second : j = s
    · exact first.trans second.symm
    · subst first
      rw [Function.update_self, Function.update_of_ne second] at same
      rw [Function.update_of_ne second] at live'
      exact absurd same (Nat.ne_of_gt (older j live'))
  · by_cases second : j = s
    · subst second
      rw [Function.update_self, Function.update_of_ne first] at same
      rw [Function.update_of_ne first] at live
      exact absurd same (Nat.ne_of_lt (older i live))
    · rw [Function.update_of_ne first] at live
      rw [Function.update_of_ne second] at live'
      rw [Function.update_of_ne first, Function.update_of_ne second] at same
      exact h.apart i j live live' same

end

/-- A new entry in a slot it may take. -/
theorem Holds.put {now : Nat} {slots : Fin n → ε} {log : List ε} {s : Fin n} {e : ε}
    (h : Holds expiry now slots log) (reuse : Reusable expiry now slots s)
    (newer : ∀ x ∈ log, expiry x < expiry e) :
    Holds expiry now (Function.update slots s e) (e :: log) := by
  obtain ⟨m, rfl⟩ : ∃ m, n = m + 1 := ⟨n - 1, by have := s.isLt; omega⟩
  refine ⟨?_, ?_, fun i j => h.put_apart newer, List.pairwise_cons.mpr ⟨newer, h.newest⟩⟩
  · intro i live
    rw [List.take_succ_cons]
    by_cases other : i = s
    · subst other
      rw [Function.update_self]
      exact List.mem_cons_self
    · rw [Function.update_of_ne other] at live ⊢
      obtain old | last := mem_take_succ (h.issued i live)
      · exact List.mem_cons_of_mem _ old
      · exact absurd (h.oldest_taken reuse live last) other
  · intro y mem live
    rw [List.take_succ_cons] at mem
    obtain rfl | old := List.mem_cons.mp mem
    · exact ⟨s, Function.update_self ..⟩
    · obtain ⟨j, rfl⟩ := h.held y
        ((List.take_sublist_take_left (Nat.le_succ m)).subset old) live
      refine ⟨j, Function.update_of_ne ?_ ..⟩
      rintro rfl
      exact h.taken_oldest reuse live old

/-- What is live in a slot is what is live of the newest entries. -/
theorem Holds.live_iff {now : Nat} {slots : Fin n → ε} {log : List ε}
    (h : Holds expiry now slots log) (P : ε → Prop) :
    (∃ i, Live expiry now (slots i) ∧ P (slots i)) ↔
      ∃ e ∈ log.take n, Live expiry now e ∧ P e := by
  constructor
  · intro ⟨i, live, holds⟩
    exact ⟨slots i, h.issued i live, live, holds⟩
  · intro ⟨e, mem, live, holds⟩
    obtain ⟨i, rfl⟩ := h.held e mem live
    exact ⟨i, live, holds⟩

end ExpiringSlots
