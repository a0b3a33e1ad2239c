import Mathlib.Algebra.Order.Ring.Rat
import Thesada.Library.Machine

/-!
# The temperature guard

`tempGuardJudge` lets a reading through when it is near the last one that it let through, and
holds it back when it is not; a reading near the one held back is let through as well. Readings
are exact here, and a NaN is no number.

`GuardRun.judged` only records the readings with their verdicts: no step reads it.
-/

namespace Thesada.Temperature

/-- `DEVICE_DISCONNECTED_C`; every fault code is at or below it. -/
def TEMP_NO_READING : ℚ := -127

structure TempGuard where
  accepted : ℚ
  held : ℚ
  deriving DecidableEq

/-- A guard that has judged nothing. -/
def TempGuard.fresh : TempGuard := ⟨TEMP_NO_READING, TEMP_NO_READING⟩

inductive TempVerdict where
  | accepted
  | rebaselined
  | noReading
  | implausibleReading
  deriving DecidableEq

/-- A reading; a NaN is none. -/
abbrev Reading := Option ℚ

/-- The verdict carries a value to publish. -/
def TempVerdict.accepts : TempVerdict → Bool
  | .accepted => true
  | .rebaselined => true
  | _ => false

/-- The value of a reading that has not failed. -/
def usable (r : Reading) : Option ℚ := r.filter fun c => TEMP_NO_READING < c

def tempGuardJudge (g : TempGuard) (r : Reading) (maxDelta : ℚ) : TempGuard × TempVerdict :=
  match usable r with
  | none => (g, .noReading)
  | some c =>
      if (0 < maxDelta ∧ TEMP_NO_READING < g.accepted) ∧ maxDelta < |c - g.accepted| then
        if g.held ≤ TEMP_NO_READING ∨ maxDelta < |c - g.held| then
          ({ g with held := c }, .implausibleReading)
        else (⟨c, TEMP_NO_READING⟩, .rebaselined)
      else (⟨c, TEMP_NO_READING⟩, .accepted)

/-! ## Runs -/

structure GuardRun where
  guard : TempGuard
  /-- The readings so far, the newest first. -/
  judged : List (Reading × TempVerdict)

namespace GuardRun

def boot : GuardRun := ⟨.fresh, []⟩

def judge (maxDelta : ℚ) (s : GuardRun) (r : Reading) : GuardRun :=
  let (guard, verdict) := tempGuardJudge s.guard r maxDelta
  ⟨guard, (r, verdict) :: s.judged⟩

/-- The last value that was let through. -/
def lastAccepted (s : GuardRun) : Option ℚ :=
  s.judged.findSome? fun j => if j.2.accepts then usable j.1 else none

/-- The last reading that did not fail, and whether it was let through. -/
def lastUsable (s : GuardRun) : Option (ℚ × Bool) :=
  s.judged.findSome? fun j => (usable j.1).map (·, j.2.accepts)

/-- The last reading that did not fail, if that was held back. -/
def heldBefore (s : GuardRun) : Option ℚ :=
  (s.lastUsable.filter fun last => !last.2).map Prod.fst

end GuardRun

/-- What is promised of a reading that comes next. -/
structure JudgedWell (maxDelta : ℚ) (s : GuardRun) (r : Reading) : Prop where
  /-- A value let through after the first is near the last one or the one held back before it. -/
  near : ∀ c a, usable r = some c → (tempGuardJudge s.guard r maxDelta).2.accepts = true →
    s.lastAccepted = some a →
      |c - a| ≤ maxDelta ∨ ∃ h, s.heldBefore = some h ∧ |c - h| ≤ maxDelta
  /-- A value near the last usable one is let through. -/
  passes : ∀ c last, usable r = some c → s.lastUsable = some last → |c - last.1| ≤ maxDelta →
    (tempGuardJudge s.guard r maxDelta).2.accepts = true
  /-- A failed reading changes nothing. -/
  untouched : usable r = none →
    tempGuardJudge s.guard r maxDelta = (s.guard, .noReading)

/-! ## What the guard holds -/

/-- The reading is judged by the readings before it. -/
def Doubts (g : TempGuard) (c maxDelta : ℚ) : Prop :=
  (0 < maxDelta ∧ TEMP_NO_READING < g.accepted) ∧ maxDelta < |c - g.accepted|

/-- A failed reading is left alone, one that is not in doubt is let through, and one in doubt is
let through near the one held back, and held back otherwise. -/
theorem tempGuardJudge_cases (g : TempGuard) (r : Reading) (maxDelta : ℚ) :
    usable r = none ∧ tempGuardJudge g r maxDelta = (g, .noReading) ∨
      ∃ c, usable r = some c ∧
        (¬Doubts g c maxDelta ∧ tempGuardJudge g r maxDelta = (⟨c, TEMP_NO_READING⟩, .accepted) ∨
          Doubts g c maxDelta ∧ TEMP_NO_READING < g.held ∧ |c - g.held| ≤ maxDelta ∧
            tempGuardJudge g r maxDelta = (⟨c, TEMP_NO_READING⟩, .rebaselined) ∨
          Doubts g c maxDelta ∧ (g.held ≤ TEMP_NO_READING ∨ maxDelta < |c - g.held|) ∧
            tempGuardJudge g r maxDelta = (⟨g.accepted, c⟩, .implausibleReading)) := by
  cases reading : usable r with
  | none => exact Or.inl ⟨rfl, by rw [tempGuardJudge, reading]⟩
  | some c =>
      refine Or.inr ⟨c, rfl, ?_⟩
      by_cases doubts : Doubts g c maxDelta
      · by_cases far : g.held ≤ TEMP_NO_READING ∨ maxDelta < |c - g.held|
        · refine Or.inr (Or.inr ⟨doubts, far, ?_⟩)
          simp only [tempGuardJudge, reading]
          exact (if_pos doubts).trans (if_pos far)
        · have near := not_or.mp far
          refine Or.inr (Or.inl ⟨doubts, not_le.mp near.1, not_lt.mp near.2, ?_⟩)
          simp only [tempGuardJudge, reading]
          exact (if_pos doubts).trans (if_neg far)
      · refine Or.inl ⟨doubts, ?_⟩
        simp only [tempGuardJudge, reading]
        exact if_neg doubts

namespace GuardRun

/-- The guard has the last value let through, and the last usable reading where that was held
back. -/
structure Holds (s : GuardRun) : Prop where
  accepted : s.guard.accepted = s.lastAccepted.getD TEMP_NO_READING
  held : s.guard.held = s.heldBefore.getD TEMP_NO_READING
  real : ∀ a, s.lastAccepted = some a → TEMP_NO_READING < a
  through : ∀ c, s.lastUsable = some (c, true) → s.lastAccepted = some c
  back : ∀ c, s.lastUsable = some (c, false) → TEMP_NO_READING < c

variable {s : GuardRun} {maxDelta : ℚ} {r : Reading}

theorem boot_holds : boot.Holds where
  accepted := rfl
  held := rfl
  real _ found := by cases found
  through _ found := by cases found
  back _ found := by cases found

theorem above_of_usable {c : ℚ} (reading : usable r = some c) : TEMP_NO_READING < c := by
  rw [usable, Option.filter_eq_some_iff] at reading
  exact of_decide_eq_true reading.2

/-- A value let through is the last one, and none is held back. -/
theorem Holds.of_accepts {c : ℚ} {v : TempVerdict} (reading : usable r = some c)
    (accepts : v.accepts = true)
    (result : tempGuardJudge s.guard r maxDelta = (⟨c, TEMP_NO_READING⟩, v)) :
    (s.judge maxDelta r).Holds := by
  have guard : (s.judge maxDelta r).guard = ⟨c, TEMP_NO_READING⟩ := by
    rw [GuardRun.judge, result]
  have accepted : (s.judge maxDelta r).lastAccepted = some c := by
    simp [GuardRun.judge, lastAccepted, result, accepts, reading]
  have last : (s.judge maxDelta r).lastUsable = some (c, true) := by
    simp [GuardRun.judge, lastUsable, result, accepts, reading]
  constructor
  · rw [guard, accepted]
    rfl
  · rw [guard, heldBefore, last]
    rfl
  · intro a found
    obtain rfl := Option.some.inj (accepted.symm.trans found)
    exact above_of_usable reading
  · intro u found
    obtain rfl : c = u := by simpa [last] using found
    exact accepted
  · intro u found
    simp [last] at found

theorem Holds.judge (h : s.Holds) (maxDelta : ℚ) (r : Reading) : (s.judge maxDelta r).Holds := by
  obtain ⟨failed, same⟩ | ⟨c, reading, ⟨-, result⟩ | ⟨-, -, -, result⟩ | ⟨-, -, result⟩⟩ :=
    tempGuardJudge_cases s.guard r maxDelta
  · have accepted : (s.judge maxDelta r).lastAccepted = s.lastAccepted := by
      simp [GuardRun.judge, lastAccepted, same, TempVerdict.accepts]
    have last : (s.judge maxDelta r).lastUsable = s.lastUsable := by
      simp [GuardRun.judge, lastUsable, failed]
    have guard : (s.judge maxDelta r).guard = s.guard := by rw [GuardRun.judge, same]
    refine ⟨?_, ?_, ?_, ?_, ?_⟩
    · rw [guard, accepted]
      exact h.accepted
    · rw [guard, heldBefore, last]
      exact h.held
    · rw [accepted]
      exact h.real
    · rw [accepted, last]
      exact h.through
    · rw [last]
      exact h.back
  · exact Holds.of_accepts reading rfl result
  · exact Holds.of_accepts reading rfl result
  · have accepted : (s.judge maxDelta r).lastAccepted = s.lastAccepted := by
      simp [GuardRun.judge, lastAccepted, result, TempVerdict.accepts]
    have last : (s.judge maxDelta r).lastUsable = some (c, false) := by
      simp [GuardRun.judge, lastUsable, result, TempVerdict.accepts, reading]
    have guard : (s.judge maxDelta r).guard = ⟨s.guard.accepted, c⟩ := by
      rw [GuardRun.judge, result]
    refine ⟨?_, ?_, ?_, ?_, ?_⟩
    · rw [guard, accepted]
      exact h.accepted
    · rw [guard, heldBefore, last]
      rfl
    · rw [accepted]
      exact h.real
    · intro u found
      simp [last] at found
    · intro u found
      obtain rfl : c = u := by simpa [last] using found
      exact above_of_usable reading

/-! ## What a verdict promises -/

theorem Holds.near (h : s.Holds) (on : 0 < maxDelta) {c a : ℚ} (reading : usable r = some c)
    (accepts : (tempGuardJudge s.guard r maxDelta).2.accepts = true)
    (last : s.lastAccepted = some a) :
    |c - a| ≤ maxDelta ∨ ∃ held, s.heldBefore = some held ∧ |c - held| ≤ maxDelta := by
  have accepted : s.guard.accepted = a := by
    rw [h.accepted, last]
    rfl
  obtain ⟨failed, -⟩ | ⟨c', same, cases⟩ := tempGuardJudge_cases s.guard r maxDelta
  · cases failed.symm.trans reading
  · obtain rfl := Option.some.inj (same.symm.trans reading)
    obtain ⟨trusts, -⟩ | ⟨-, real, near, -⟩ | ⟨-, -, result⟩ := cases
    · left
      by_contra far
      refine trusts ⟨⟨on, ?_⟩, ?_⟩
      · rw [accepted]
        exact h.real a last
      · rw [accepted]
        exact not_le.mp far
    · right
      cases held : s.heldBefore with
      | none =>
          rw [h.held, held] at real
          exact absurd real (lt_irrefl _)
      | some u =>
          rw [h.held, held] at near
          exact ⟨u, rfl, near⟩
    · rw [result] at accepts
      cases accepts

/-- The last usable reading is the one let through last or the one held back, so a value near it
is let through. -/
theorem Holds.passes (h : s.Holds) {c : ℚ} {last : ℚ × Bool} (reading : usable r = some c)
    (before : s.lastUsable = some last) (close : |c - last.1| ≤ maxDelta) :
    (tempGuardJudge s.guard r maxDelta).2.accepts = true := by
  obtain ⟨failed, -⟩ | ⟨c', same, cases⟩ := tempGuardJudge_cases s.guard r maxDelta
  · cases failed.symm.trans reading
  · obtain rfl := Option.some.inj (same.symm.trans reading)
    obtain ⟨-, result⟩ | ⟨-, -, -, result⟩ | ⟨⟨-, doubt⟩, far, -⟩ := cases
    · rw [result]
      rfl
    · rw [result]
      rfl
    · obtain ⟨u, accepted⟩ := last
      cases accepted with
      | true =>
          have trusted : s.guard.accepted = u := by
            rw [h.accepted, h.through u before]
            rfl
          rw [trusted] at doubt
          exact absurd doubt (not_lt.mpr close)
      | false =>
          have held : s.guard.held = u := by
            rw [h.held, heldBefore, before]
            rfl
          rw [held] at far
          obtain none | far := far
          · exact absurd none (not_le.mpr (h.back u before))
          · exact absurd far (not_lt.mpr close)

end GuardRun

/-- In every run of readings: a value let through after the first is near the one before it or
the one held back, a value near the last usable reading is let through, and a failed reading
changes nothing. -/
theorem guard_runs (maxDelta : ℚ) (on : 0 < maxDelta) (rs : List Reading) :
    Machine.Meets (GuardRun.judge maxDelta) (JudgedWell maxDelta) .boot rs := by
  apply Machine.meets_of_invariant (fun s r h => h.judge maxDelta r) _ GuardRun.boot_holds
  intro s r h
  constructor
  · exact fun c a reading accepts last => h.near on reading accepts last
  · exact fun c last reading before close => h.passes reading before close
  · intro failed
    rw [tempGuardJudge, failed]

/-- Boiler start: a probe at 5 drops out and comes back at 70, which its second reading
confirms. -/
theorem guard_runs_dropout :
    Machine.Meets (GuardRun.judge 40) (JudgedWell 40) .boot
        [some 5, some (-127), some 70, none, some (141 / 2)] ∧
      (Machine.run (GuardRun.judge 40) .boot
        [some 5, some (-127), some 70, none, some (141 / 2)]).judged.map Prod.snd =
        [.rebaselined, .noReading, .implausibleReading, .noReading, .accepted] := by
  refine ⟨guard_runs 40 (by decide) _, by decide +kernel⟩

end Thesada.Temperature
