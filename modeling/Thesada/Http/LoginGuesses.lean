import Mathlib.Algebra.BigOperators.Fin
import Mathlib.Algebra.Order.BigOperators.Group.Finset
import Thesada.Http.LoginRate

/-!
# How many guesses the lockout lets through

A wrong guess that is served counts on exactly one entry, a slot or the shared one, so what one
entry can still let through until the end of a window is a budget: five tries at most, one more
for each lockout that ends in the window, five more for each quiet time that fits in it. Which
address a slot is for does not matter, so more addresses than slots buy nothing.
-/

namespace Thesada.Http

open CString Machine

/-- A wrong guess from an address. -/
structure Attempt where
  ip : Str
  now : Nat
  deriving DecidableEq

namespace LoginRateTable

variable {N : Nat}

/-- `allow` and, when it serves the attempt, `fail` at the same uptime. -/
def attempt (t : LoginRateTable N) (a : Attempt) : LoginRateTable N × Bool :=
  let (t, served) := t.allow a.ip a.now
  if served then (t.fail a.ip a.now, true) else (t, false)

end LoginRateTable

def attemptStep {N : Nat} (t : LoginRateTable N) (a : Attempt) : LoginRateTable N :=
  (t.attempt a).1

/-- The attempt falls in the window and is served. -/
def servedIn {N : Nat} (first last : Nat) (t : LoginRateTable N) (a : Attempt) : Bool :=
  decide (first ≤ a.now ∧ a.now ≤ last) && (t.attempt a).2

/-! ## The budget of one entry -/

section Budget

variable (last : Nat)

/-- `tries` from time `x` on, one for each lockout and five for each quiet time that fits before
the end of the window. -/
def worth (tries x : Nat) : Nat :=
  if x ≤ last then
    tries + (last - x) / LOGIN_RATE_LOCKOUT_MS + 5 * ((last - x) / LOGIN_RATE_QUIET_MS)
  else 0

/-- What an entry can still let through from `now` to the end of the window: what it has left or
gets at the end of its lockout, or five tries once it is quiet. -/
def RateEntry.budget (e : RateEntry) (now : Nat) : Nat :=
  if e.fails = 0 then worth last LOGIN_RATE_MAX_FAILS now
  else
    max
      (if e.fails < LOGIN_RATE_MAX_FAILS then worth last (LOGIN_RATE_MAX_FAILS - e.fails) now
        else worth last 1 (max now e.untilMs))
      (worth last LOGIN_RATE_MAX_FAILS (max now (e.last + LOGIN_RATE_QUIET_MS)))

variable {last}

theorem worth_later {tries x y : Nat} (le : x ≤ y) : worth last tries y ≤ worth last tries x := by
  simp only [worth, LOGIN_RATE_LOCKOUT_MS, LOGIN_RATE_QUIET_MS]
  split_ifs <;> omega

theorem worth_mono {tries more x : Nat} (le : tries ≤ more) :
    worth last tries x ≤ worth last more x := by
  simp only [worth]
  split_ifs <;> omega

theorem worth_spend {tries x : Nat} (inside : x ≤ last) :
    worth last (tries + 1) x = worth last tries x + 1 := by
  simp only [worth, inside, if_true]
  omega

/-- The try after a lockout is paid for by the time it takes. -/
theorem worth_lockout (x : Nat) :
    worth last 1 (x + LOGIN_RATE_LOCKOUT_MS) ≤ worth last 0 x := by
  change worth last 1 (x + 30000) ≤ worth last 0 x
  simp only [worth, LOGIN_RATE_LOCKOUT_MS, LOGIN_RATE_QUIET_MS]
  split <;> split <;> omega

/-- So are the five tries after a quiet time. -/
theorem worth_quiet (x : Nat) :
    worth last LOGIN_RATE_MAX_FAILS (x + LOGIN_RATE_QUIET_MS) ≤ worth last 0 x := by
  change worth last 5 (x + 600000) ≤ worth last 0 x
  simp only [worth, LOGIN_RATE_LOCKOUT_MS, LOGIN_RATE_QUIET_MS]
  split <;> split <;> omega

namespace RateEntry

variable {e : RateEntry} {now : Nat}

theorem budget_le : e.budget last now ≤ worth last LOGIN_RATE_MAX_FAILS now := by
  simp only [budget]
  split
  · exact Nat.le_refl _
  · refine Nat.max_le.mpr ⟨?_, worth_later (Nat.le_max_left ..)⟩
    split
    · exact worth_mono (Nat.sub_le ..)
    · exact (worth_mono (by decide)).trans (worth_later (Nat.le_max_left ..))

theorem budget_later {later : Nat} (le : now ≤ later) :
    e.budget last later ≤ e.budget last now := by
  simp only [budget]
  split
  · exact worth_later le
  · refine max_le_max ?_ (worth_later (max_le_max_right _ le))
    split
    · exact worth_later le
    · exact worth_later (max_le_max_right _ le)

theorem budget_age : (e.age now).budget last now ≤ e.budget last now := by
  simp only [age]
  split_ifs with idle quiet past
  · exact Nat.le_refl _
  · simp only [budget, cleared, if_true, idle, if_false, Nat.max_eq_left quiet]
    exact Nat.le_max_right ..
  · obtain ⟨limit, ended⟩ := past
    have released : LOGIN_RATE_MAX_FAILS - 1 ≠ 0 ∧
        LOGIN_RATE_MAX_FAILS - 1 < LOGIN_RATE_MAX_FAILS ∧
        LOGIN_RATE_MAX_FAILS - (LOGIN_RATE_MAX_FAILS - 1) = 1 := by decide
    simp only [budget, idle, if_false, released, if_true, Nat.not_lt.mpr limit,
      Nat.max_eq_left ended]
    exact Nat.le_refl _
  · exact Nat.le_refl _

/-- A counted failure spends one try. -/
theorem budget_count (below : e.fails < LOGIN_RATE_MAX_FAILS) (inside : now ≤ last) :
    (e.count now).budget last now + 1 ≤ e.budget last now := by
  obtain ⟨left, tries⟩ : ∃ left, LOGIN_RATE_MAX_FAILS = e.fails + 1 + left :=
    ⟨LOGIN_RATE_MAX_FAILS - (e.fails + 1), by omega⟩
  have before : worth last left now + 1 ≤ e.budget last now := by
    simp only [budget, below, if_true]
    split
    · rename_i fresh
      rw [← worth_spend inside]
      exact worth_mono (by omega)
    · have room : LOGIN_RATE_MAX_FAILS - e.fails = left + 1 := by omega
      rw [room, worth_spend inside]
      exact Nat.le_max_left ..
  refine Nat.le_trans (Nat.add_le_add_right ?_ 1) before
  simp only [count, Nat.not_le.mpr below, if_false, budget, Nat.succ_ne_zero]
  refine Nat.max_le.mpr ⟨?_, ?_⟩
  · split
    · exact worth_mono (by omega)
    · rename_i limit
      rw [if_pos (Nat.not_lt.mp limit), Nat.max_eq_right (Nat.le_add_right ..)]
      exact (worth_lockout now).trans (worth_mono (Nat.zero_le _))
  · rw [Nat.max_eq_right (Nat.le_add_right ..)]
    exact (worth_quiet now).trans (worth_mono (Nat.zero_le _))

theorem budget_past (past : last < now) : e.budget last now = 0 := by
  have none : e.budget last now ≤ worth last LOGIN_RATE_MAX_FAILS now := budget_le
  rw [worth, if_neg (Nat.not_le.mpr past)] at none
  exact Nat.le_zero.mp none

end RateEntry

end Budget

/-! ## The budget of the table -/

namespace LoginRateTable

open RateEntry

variable {N last now : Nat} {t : LoginRateTable N} {a : Attempt}

def budget (last : Nat) (t : LoginRateTable N) (now : Nat) : Nat :=
  (∑ i, (t.slots i).budget last now) + t.overEntry.budget last now

theorem budget_le (t : LoginRateTable N) (now : Nat) :
    t.budget last now ≤ (N + 1) * worth last LOGIN_RATE_MAX_FAILS now := by
  have slots := Finset.sum_le_card_nsmul Finset.univ (fun i => (t.slots i).budget last now) _
    fun i _ => RateEntry.budget_le
  rw [Finset.card_univ, Fintype.card_fin, smul_eq_mul] at slots
  have overflow : t.overEntry.budget last now ≤ worth last LOGIN_RATE_MAX_FAILS now :=
    RateEntry.budget_le
  simp only [budget, Nat.add_mul, Nat.one_mul]
  omega

theorem budget_later {later : Nat} (le : now ≤ later) :
    t.budget last later ≤ t.budget last now :=
  Nat.add_le_add (Finset.sum_le_sum fun _ _ => RateEntry.budget_later le)
    (RateEntry.budget_later le)

theorem budget_aged {slots slots' : Fin N → RateEntry} (aged : Aged now slots slots') :
    (∑ i, (slots' i).budget last now) ≤ ∑ i, (slots i).budget last now := by
  refine Finset.sum_le_sum fun i _ => ?_
  obtain same | same := aged i
  · rw [same]
  · rw [same]
    exact RateEntry.budget_age

/-- A failure that counts on a slot spends one try of the table. -/
theorem budget_update {slots : Fin N → RateEntry} {i : Fin N} {e : RateEntry}
    (spent : e.budget last now + 1 ≤ (slots i).budget last now) :
    (∑ j, (Function.update slots i e j).budget last now) + 1 ≤
      ∑ j, (slots j).budget last now := by
  rw [← Finset.add_sum_erase _ _ (Finset.mem_univ i), ← Finset.add_sum_erase Finset.univ
    (fun j => (slots j).budget last now) (Finset.mem_univ i), Function.update_self]
  have others : ∑ j ∈ Finset.univ.erase i, (Function.update slots i e j).budget last now =
      ∑ j ∈ Finset.univ.erase i, (slots j).budget last now := by
    refine Finset.sum_congr rfl fun j mem => ?_
    rw [Function.update_of_ne (Finset.ne_of_mem_erase mem)]
  rw [others]
  omega

/-- The budget of a slot does not depend on whose it is. -/
theorem budget_claim (e : RateEntry) (ip : Str) :
    ((e.claim ip).count now).budget last now = (e.count now).budget last now := by
  by_cases limit : LOGIN_RATE_MAX_FAILS ≤ e.fails
  · simp only [RateEntry.count, RateEntry.claim, limit, if_true, RateEntry.budget]
  · simp only [RateEntry.count, RateEntry.claim, limit, if_false, RateEntry.budget]
    rfl

/-- A failure that counts on a slot below the limit spends one try of the table. -/
theorem slot_spends {slots slots' : Fin N → RateEntry} {i : Fin N} {e : RateEntry}
    (aged : Aged now slots slots') (below : (slots' i).fails < LOGIN_RATE_MAX_FAILS)
    (inside : now ≤ last) (same : e.budget last now = ((slots' i).count now).budget last now) :
    (∑ j, (Function.update slots' i e j).budget last now) + 1 ≤
      ∑ j, (slots j).budget last now := by
  refine Nat.le_trans (budget_update ?_) (budget_aged aged)
  rw [same]
  exact RateEntry.budget_count below inside

/-- A refused attempt ages the table, and a served one counts on an entry that `allow` has found
below the limit, or on a free slot. -/
theorem attempt_spends (h : SlotsInv t.slots) (address : a.ip ≠ []) (inside : a.now ≤ last) :
    (attemptStep t a).budget last a.now + (if (t.attempt a).2 then 1 else 0) ≤
      t.budget last a.now := by
  obtain ⟨slots, aged, asked⟩ := allow_cases h address a.now
  have inv : SlotsInv slots := h.aged aged
  have overAged : (t.overEntry.age a.now).budget last a.now ≤ t.overEntry.budget last a.now :=
    RateEntry.budget_age
  have slotsAged : (∑ i, (slots i).budget last a.now) ≤ ∑ i, (t.slots i).budget last a.now :=
    budget_aged aged
  obtain ⟨i, same, held, allowed⟩ | ⟨absent, ⟨⟨i, free⟩, allowed⟩ | ⟨live, allowed⟩⟩ := asked
  · by_cases below : (slots i).fails < LOGIN_RATE_MAX_FAILS
    · obtain ⟨slots', aged', counted⟩ := fail_cases (t := { t with slots }) inv address a.now
      have kept : slots' i = slots i := by
        obtain kept | kept := aged' i
        · exact kept
        · simpa only [same, age_age] using kept
      obtain ⟨j, -, mine, failed⟩ | ⟨other, -⟩ := counted
      · obtain rfl : j = i := (inv.aged aged').apart j i (mine ▸ clip_ne_nil address)
          (mine.trans (kept ▸ held).symm)
        have spent := slot_spends (aged.trans aged') (kept ▸ below) inside rfl
        simp only [attemptStep, attempt, allowed, below, decide_true, if_true, failed, budget]
        omega
      · exact absurd (kept ▸ held) (other i)
    · simp only [attemptStep, attempt, allowed, below, decide_false, Bool.false_eq_true, if_false,
        budget]
      omega
  · obtain ⟨slots', aged', counted⟩ := fail_cases (t := { t with slots }) inv address a.now
    obtain ⟨j, -, mine, -⟩ | ⟨-, ⟨j, -, empty, failed⟩ | ⟨live, -⟩⟩ := counted
    · exact absurd mine (not_held_of_aged aged' address absent j)
    · have below : (slots' j).fails < LOGIN_RATE_MAX_FAILS := by
        rw [(inv.aged aged').free j empty]
        decide
      have spent := slot_spends (aged.trans aged') below inside (budget_claim (slots' j) a.ip)
      simp only [attemptStep, attempt, allowed, if_true, failed, budget]
      omega
    · exact absurd (by rwa [age_of_free inv free]) (live i)
  · by_cases below : (t.overEntry.age a.now).fails < LOGIN_RATE_MAX_FAILS
    · obtain ⟨slots', aged', counted⟩ :=
        fail_cases (t := ⟨slots, t.overEntry.age a.now⟩) inv address a.now
      obtain ⟨j, -, mine, -⟩ | ⟨-, ⟨j, left, empty, -⟩ | ⟨-, failed⟩⟩ := counted
      · exact absurd mine (not_held_of_aged aged' address absent j)
      · exact absurd (by rwa [← aged.age j, ← left]) (live j)
      · have spent := RateEntry.budget_count below inside
        have slotsAged' : (∑ i, (slots' i).budget last a.now) ≤ _ :=
          budget_aged (aged.trans aged')
        simp only [attemptStep, attempt, allowed, below, decide_true, if_true, failed, age_age,
          budget]
        omega
    · simp only [attemptStep, attempt, allowed, below, decide_false, Bool.false_eq_true, if_false,
        budget]
      omega

theorem attempt_inv (h : SlotsInv t.slots) (a : Attempt) : SlotsInv (attemptStep t a).slots := by
  have asked : SlotsInv (t.allow a.ip a.now).1.slots := step_inv h (.allow a.ip a.now)
  simp only [attemptStep, attempt]
  split
  · exact step_inv asked (.fail a.ip a.now)
  · exact asked

/-! ## Runs of wrong guesses -/

/-- From any time on, what the table still serves until the end of the window is its budget. -/
theorem served_le_budget {first : Nat} {as : List Attempt} (h : SlotsInv t.slots)
    (addresses : ∀ a ∈ as, a.ip ≠ []) (ordered : as.Pairwise (·.now ≤ ·.now))
    (later : ∀ a ∈ as, now ≤ a.now) :
    tally attemptStep (servedIn first last) t as ≤ t.budget last now := by
  induction as generalizing t now with
  | nil => exact Nat.zero_le _
  | cons a as ih =>
      obtain ⟨address, addresses⟩ := List.forall_mem_cons.mp addresses
      obtain ⟨after, ordered⟩ := List.pairwise_cons.mp ordered
      have rest := ih (attempt_inv h a) addresses ordered after
      simp only [tally]
      by_cases inside : a.now ≤ last
      · have spent := attempt_spends h address inside
        have counted : (if servedIn first last t a then 1 else 0) ≤
            if (t.attempt a).2 then 1 else 0 := by
          cases served : (t.attempt a).2 with
          | false => simp [servedIn, served]
          | true =>
              simp only [if_true]
              split <;> omega
        have sooner : t.budget last a.now ≤ t.budget last now :=
          budget_later (later a List.mem_cons_self)
        omega
      · have overflow : (attemptStep t a).budget last a.now = 0 := by
          simp [budget, RateEntry.budget_past (Nat.not_le.mp inside)]
        simp only [servedIn, inside, and_false, decide_false, Bool.false_and, Bool.false_eq_true,
          if_false]
        omega

/-- What happens before the window does not count, and leaves each entry five tries at most. -/
theorem served_le {first : Nat} {as : List Attempt} (h : SlotsInv t.slots)
    (addresses : ∀ a ∈ as, a.ip ≠ []) (ordered : as.Pairwise (·.now ≤ ·.now)) :
    tally attemptStep (servedIn first last) t as ≤
      (N + 1) * worth last LOGIN_RATE_MAX_FAILS first := by
  induction as generalizing t with
  | nil => exact Nat.zero_le _
  | cons a as ih =>
      by_cases before : a.now < first
      · obtain ⟨-, addresses⟩ := List.forall_mem_cons.mp addresses
        have rest := ih (attempt_inv h a) addresses ordered.of_cons
        simpa only [tally, servedIn, Nat.not_le.mpr before, false_and, decide_false,
          Bool.false_and, Bool.false_eq_true, if_false, Nat.zero_add] using rest
      · have later : ∀ b ∈ a :: as, a.now ≤ b.now :=
          List.forall_mem_cons.mpr ⟨Nat.le_refl _, (List.pairwise_cons.mp ordered).1⟩
        calc tally attemptStep (servedIn first last) t (a :: as)
            ≤ t.budget last a.now := served_le_budget h addresses ordered later
          _ ≤ (N + 1) * worth last LOGIN_RATE_MAX_FAILS a.now := budget_le t a.now
          _ ≤ (N + 1) * worth last LOGIN_RATE_MAX_FAILS first :=
              Nat.mul_le_mul_left _ (worth_later (Nat.not_lt.mp before))

end LoginRateTable

/-- However many addresses guess and however their guesses interleave, a window lets five of them
through for each entry of the table, one more for each lockout and five more for each quiet time
that fits in the window. -/
theorem guesses_bounded {N : Nat} (as : List Attempt) (first W : Nat)
    (addresses : ∀ a ∈ as, a.ip ≠ []) (ordered : as.Pairwise (·.now ≤ ·.now)) :
    tally attemptStep (servedIn first (first + W)) (noLogins N) as ≤
      (N + 1) * (5 + W / LOGIN_RATE_LOCKOUT_MS + 5 * (W / LOGIN_RATE_QUIET_MS)) := by
  have bound : tally attemptStep (servedIn first (first + W)) (noLogins N) as ≤
      (N + 1) * worth (first + W) LOGIN_RATE_MAX_FAILS first :=
    LoginRateTable.served_le (SlotsInv.none N) addresses ordered
  rw [worth, if_pos (Nat.le_add_right ..), Nat.add_sub_cancel_left] at bound
  exact bound

/-- Seven guesses from two addresses on a table of one slot. -/
theorem guesses_bounded_two :
    tally attemptStep (servedIn 0 (0 + 60000)) (noLogins 1)
        [⟨['a'], 0⟩, ⟨['b'], 0⟩, ⟨['a'], 1⟩, ⟨['a'], 1⟩, ⟨['a'], 1⟩, ⟨['a'], 2⟩, ⟨['a'], 3⟩] ≤
      (1 + 1) * (5 + 60000 / LOGIN_RATE_LOCKOUT_MS + 5 * (60000 / LOGIN_RATE_QUIET_MS)) :=
  guesses_bounded _ 0 60000 (by decide) (by decide)

end Thesada.Http
