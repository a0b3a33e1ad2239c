import Mathlib.Order.Basic
import Thesada.Ota.Fled

/-!
# The skip age against true time

A computed age is put together from the age a save left in NVS, the seconds an RTC pair
carried over a reset, the uptime since the last save, and a clock gap that only a boot's
first save adds. Nothing is counted twice: an age never exceeds the true time since the
record by more than the clock gaps its resets let in, and a clock that never gains on
true time lets in none.

Every second below is a whole second of the true clock, so the elapsed time between `a`
and `b` is `b / 1000 - a / 1000`.
-/

namespace Thesada.Ota

open CString

/-- A refusing check, a try or anything that is no check: the checks meet the version
the boot has loaded and are not forced. Noise that a reset leaves in RTC memory is not a
valid pair. -/
def Refuses (t : FledTrace) : FledEvent → Prop
  | .check env remote force _ => force = false ∧
      otaSameVersion remote (loadFled t.state env.readOk).fled.ver = true
  | .reset _ (some (value, check)) _ => check ≠ ~~~value
  | _ => True

/-- The clock an event reads, if it reads one. -/
def epochRead : FledEvent → Option UInt32
  | .turn env => some env.epoch
  | .check env _ _ _ => some env.epoch
  | _ => none

/-- A synced reading is the clock's reading at the true time of the event. -/
def Reads (clock : Nat → Nat) (t : FledTrace) (e : FledEvent) : Prop :=
  ∀ epoch, epochRead e = some epoch → epoch = 0 ∨ epoch.toNat = clock t.state.now

/-- The clock's reading minus true time never rises. -/
def NeverGains (clock : Nat → Nat) : Prop :=
  ∀ a b, a ≤ b → clock b + a / 1000 ≤ clock a + b / 1000

/-- The loop turns at least once in 49 days of uptime, before `millis` can wrap. -/
def TurnsInTime (t : FledTrace) : FledEvent → Prop
  | .wait ms => t.state.now + ms < t.state.turnAt + 49 * 86400 * 1000
  | _ => True

/-- What clock gaps may have added to the stored word: `base` before this boot, `after`
once it has saved. -/
def gapsAt (base after : Nat) (s : FledState) : Nat :=
  if s.fled.savedThisBoot then after else base

/-- When the RTC seconds were last put, at the latest. -/
def putAt (s : FledState) : Nat := if s.fled.loaded then s.now else s.bootAt

/-- The age invariant of a state: `saved` is when the stored word was written, `mark`
when the count since the last save of this boot began. -/
structure AgeAt (Seen : Nat → UInt32 → Prop) (t0 base after saved mark : Nat)
    (s : FledState) : Prop where
  order : base ≤ after
  saved_mark : saved ≤ mark
  boot_mark : s.bootAt ≤ mark
  mark_now : mark ≤ s.now
  markMs : s.fled.markMs = Word32.sub mark s.bootAt
  first : s.fled.savedThisBoot = false → mark = s.bootAt
  unloaded : s.fled.loaded = false → s.fled = .fresh
  stored : (storedAge s).ageS + t0 / 1000 ≤ saved / 1000 + gapsAt base after s
  seen : (storedAge s).seenEpoch = 0 ∨ Seen saved (storedAge s).seenEpoch
  kept : (storedAge s).ageS + otaFledCarry s.unsaved.1 s.unsaved.2 + t0 / 1000 ≤
    putAt s / 1000 + gapsAt base after s
  carried : s.fled.loaded = true → s.fled.savedThisBoot = false →
    (s.fled.saved = storedAge s ∨ s.fled.saved = .zero) ∧
      (storedAge s).ageS + s.fled.carry + t0 / 1000 ≤ s.bootAt / 1000 + base
  ram : s.fled.savedThisBoot = true →
    s.fled.carry = 0 ∧ s.fled.saved.ageS + t0 / 1000 ≤ mark / 1000 + after

def AgeInv (Seen : Nat → UInt32 → Prop) (t0 base after : Nat) (s : FledState) : Prop :=
  ∃ saved mark, AgeAt Seen t0 base after saved mark s

section

variable {Seen : Nat → UInt32 → Prop} {t0 base after : Nat} {s : FledState}

theorem gapsAt_of_saved (first : s.fled.savedThisBoot = true) : gapsAt base after s = after :=
  if_pos first

theorem gapsAt_of_unsaved (first : s.fled.savedThisBoot = false) : gapsAt base after s = base := by
  simp [gapsAt, first]

theorem putAt_of_loaded (loaded : s.fled.loaded = true) : putAt s = s.now := if_pos loaded

theorem putAt_of_unloaded (loaded : s.fled.loaded = false) : putAt s = s.bootAt := by
  simp [putAt, loaded]

theorem AgeAt.gaps_le {saved mark : Nat} (inv : AgeAt Seen t0 base after saved mark s) :
    gapsAt base after s ≤ after := by
  have := inv.order
  unfold gapsAt
  split <;> omega

theorem AgeAt.putAt_le {saved mark : Nat} (inv : AgeAt Seen t0 base after saved mark s) :
    putAt s ≤ s.now := by
  have := inv.boot_mark
  have := inv.mark_now
  unfold putAt
  split <;> omega

/-- The unsaved seconds are the carry and at most the true seconds since the mark. -/
theorem AgeAt.unsaved_le {saved mark : Nat} (inv : AgeAt Seen t0 base after saved mark s) :
    fledUnsavedS s ≤ s.fled.carry + (s.now - mark) / 1000 := by
  unfold fledUnsavedS millis
  rw [inv.markMs, Word32.sub_sub_sub inv.mark_now]
  have := Nat.mod_le (s.now - mark) Word32.size
  omega

theorem otaFledElapsed_first_le (upS : Nat) (seen now : UInt32) :
    otaFledElapsed upS true seen now ≤ upS + OTA_FLED_GAP_MAX_S ∧
      (seen = 0 → otaFledElapsed upS true seen now = upS) ∧
      (otaFledElapsed upS true seen now ≤ upS ∨ seen ≠ 0 ∧ now ≠ 0 ∧
        otaFledElapsed upS true seen now ≤ now.toNat - seen.toNat) := by
  unfold otaFledElapsed
  split
  · simp
  · rename_i counts
    have synced : seen ≠ 0 ∧ ¬ now ≤ seen := by
      simpa only [Bool.not_true, Bool.false_or, Bool.or_eq_true, beq_iff_eq, decide_eq_true_eq,
        not_or] using counts
    have positive : now ≠ 0 := by
      rintro rfl
      exact synced.2 (UInt32.le_iff_toNat_le.mpr (by simp)) |>.elim
    dsimp only
    split
    · exact ⟨by omega, fun _ => rfl, .inl le_rfl⟩
    · exact ⟨by omega, fun h => absurd h synced.1, .inr ⟨synced.1, positive, by omega⟩⟩

/-- What a first save of a boot may compute, given what its clock gap may add. -/
def GapOk (t0 after : Nat) (s : FledState) (epoch : UInt32) : Prop :=
  s.fled.savedThisBoot = false →
    s.fled.saved.ageS + otaFledElapsed (fledUnsavedS s) true s.fled.saved.seenEpoch epoch +
      t0 / 1000 ≤ s.now / 1000 + after

/-- A computed age is within the bound. -/
theorem AgeAt.age_le {saved mark : Nat} (inv : AgeAt Seen t0 base after saved mark s)
    {epoch : UInt32} (gap : GapOk t0 after s epoch) :
    fledAgeNow s epoch + t0 / 1000 ≤ s.now / 1000 + after := by
  rw [fledAgeNow, otaFledAdvance_eq]
  cases first : s.fled.savedThisBoot with
  | false =>
      have := gap first
      simp only [Bool.not_false]
      omega
  | true =>
      have unsaved := inv.unsaved_le
      obtain ⟨carry, ram⟩ := inv.ram first
      have mark := inv.mark_now
      have elapsed : otaFledElapsed (fledUnsavedS s) false s.fled.saved.seenEpoch epoch =
          fledUnsavedS s := by simp [otaFledElapsed]
      simp only [Bool.not_true, elapsed]
      omega

theorem AgeInv.load (inv : AgeInv Seen t0 base after s) (readOk : Bool) :
    AgeInv Seen t0 base after (loadFled s readOk) := by
  cases h : s.fled.loaded with
  | true => rwa [loadFled_of_loaded h]
  | false =>
      obtain ⟨saved, mark, inv⟩ := inv
      refine ⟨saved, mark, ?_⟩
      have fresh := inv.unloaded h
      have carried := inv.kept
      have first : s.fled.savedThisBoot = false := by rw [fresh]; rfl
      obtain ⟨age, -, now, bootAt, -, -⟩ := loadFled_frame s readOk
      have same : storedAge (loadFled s readOk) = storedAge s := by rw [storedAge, age, storedAge]
      have rest : (loadFled s readOk).fled.savedThisBoot = false ∧
          (loadFled s readOk).fled.markMs = s.fled.markMs ∧
          (loadFled s readOk).fled.carry = otaFledCarry s.unsaved.1 s.unsaved.2 ∧
          ((loadFled s readOk).fled.saved = storedAge s ∨
            (loadFled s readOk).fled.saved = .zero) ∧
          otaFledCarry (loadFled s readOk).unsaved.1 (loadFled s readOk).unsaved.2 = 0 := by
        simp only [loadFled, fresh, storedAge]
        cases readOk <;> cases s.fledAge <;> simp [Fled.fresh, putFledUnsaved, otaFledCarry]
      obtain ⟨unsaved, markMs, carry, loaded, empty⟩ := rest
      have stored := inv.stored
      rw [gapsAt_of_unsaved first] at carried stored
      rw [putAt_of_unloaded h] at carried
      have := inv.saved_mark
      have := inv.mark_now
      refine ⟨inv.order, inv.saved_mark, by rw [bootAt]; exact inv.boot_mark,
        by rw [now]; exact inv.mark_now, by rw [markMs, bootAt]; exact inv.markMs,
        fun _ => by rw [bootAt]; exact inv.first first, by simp, ?_, by rw [same]; exact inv.seen,
        ?_, ?_, by simp [unsaved]⟩
      · rwa [same, gapsAt_of_unsaved unsaved]
      · rw [same, empty, gapsAt_of_unsaved unsaved, putAt_of_loaded (by simp), now]
        omega
      · intro _ _
        rw [same, carry, bootAt]
        exact ⟨loaded, carried⟩

theorem AgeInv.putUnsaved (inv : AgeInv Seen t0 base after s)
    (loaded : s.fled.loaded = true) :
    AgeInv Seen t0 base after (putFledUnsaved s (fledUnsavedS s)) := by
  obtain ⟨saved, mark, inv⟩ := inv
  refine ⟨saved, mark, ⟨inv.order, inv.saved_mark, inv.boot_mark, inv.mark_now, inv.markMs,
    inv.first, inv.unloaded, inv.stored, inv.seen, ?_, inv.carried, inv.ram⟩⟩
  have put := otaFledCarry_put_le s (fledUnsavedS s)
  have unsaved := inv.unsaved_le
  have stored := inv.stored
  have := inv.saved_mark
  have := inv.mark_now
  change (storedAge s).ageS + _ + _ ≤ putAt s / 1000 + gapsAt base after s
  rw [putAt_of_loaded loaded]
  cases first : s.fled.savedThisBoot with
  | true =>
      obtain ⟨carry, _⟩ := inv.ram first
      omega
  | false =>
      obtain ⟨_, carried⟩ := inv.carried loaded first
      have := inv.first first
      rw [gapsAt_of_unsaved first]
      omega

theorem AgeInv.save (inv : AgeInv Seen t0 base after s) (loaded : s.fled.loaded = true)
    {env : FledEnv} (seen : env.epoch = 0 ∨ Seen s.now env.epoch) {ageS : Nat} (tries : UInt8)
    (bound : ageS + t0 / 1000 ≤ s.now / 1000 + after) :
    AgeInv Seen t0 base after (saveFled s env ageS tries) := by
  obtain ⟨saved, mark, inv⟩ := inv
  have stored := inv.stored
  have order := inv.order
  have := inv.saved_mark
  have mark_now := inv.mark_now
  have kept : (storedAge s).ageS + t0 / 1000 ≤ saved / 1000 + after := by
    have := inv.gaps_le
    omega
  have carry := otaFledCarry_put_le s 0
  -- The stored word is of now when the write landed, else as old as it was.
  have frame : (saveFled s env ageS tries).fled.savedThisBoot = true ∧
      (saveFled s env ageS tries).fled.loaded = true ∧
      (saveFled s env ageS tries).unsaved = (putFledUnsaved s 0).unsaved := ⟨rfl, loaded, rfl⟩
  obtain ⟨first, loaded', pair⟩ := frame
  refine ⟨if env.writeOk then s.now else saved, s.now, ⟨order, ?_, inv.boot_mark.trans mark_now,
    le_rfl, rfl, by simp [first], by simp [loaded'], ?_, ?_, ?_, by simp [first],
    fun _ => ⟨rfl, bound⟩⟩⟩
  · split <;> omega
  · rw [gapsAt_of_saved first, storedAge_saveFled]
    cases env.writeOk with
    | true => change min ageS OTA_FLED_SKIP_S + _ ≤ s.now / 1000 + after; omega
    | false => exact kept
  · rw [storedAge_saveFled]
    split
    · exact seen
    · exact inv.seen
  · rw [gapsAt_of_saved first, putAt_of_loaded loaded', storedAge_saveFled, pair]
    cases env.writeOk with
    | true => change min ageS OTA_FLED_SKIP_S + _ + _ ≤ s.now / 1000 + after; omega
    | false => change (storedAge s).ageS + _ + _ ≤ s.now / 1000 + after; omega

theorem AgeInv.wait (inv : AgeInv Seen t0 base after s) (ms : Nat) :
    AgeInv Seen t0 base after { s with now := s.now + ms } := by
  obtain ⟨saved, mark, inv⟩ := inv
  refine ⟨saved, mark, ⟨inv.order, inv.saved_mark, inv.boot_mark,
    inv.mark_now.trans (Nat.le_add_right _ _), inv.markMs, inv.first, inv.unloaded, inv.stored,
    inv.seen, inv.kept.trans (Nat.add_le_add_right (Nat.div_le_div_right ?_) _), inv.carried,
    inv.ram⟩⟩
  unfold putAt
  dsimp only
  split <;> omega

/-- A reset keeps at most what the boot had; what gaps had added becomes the new base. -/
theorem AgeInv.reset (inv : AgeInv Seen t0 base after s) (offMs : Nat)
    {rtc : Option (UInt32 × UInt32)} (noise : ∀ value check, rtc = some (value, check) →
      check ≠ ~~~value) (running : Str) {after' : Nat} (order : after ≤ after') :
    AgeInv Seen t0 after after' (fledStep s (.reset offMs rtc running)) := by
  obtain ⟨saved, mark, inv⟩ := inv
  have stored := inv.stored
  have kept := inv.kept
  have := inv.order
  have := inv.saved_mark
  have := inv.boot_mark
  have := inv.mark_now
  have same : storedAge (fledStep s (.reset offMs rtc running)) = storedAge s := rfl
  have := inv.gaps_le
  have := inv.putAt_le
  have start : (storedAge s).ageS + t0 / 1000 ≤ saved / 1000 + after := by omega
  refine ⟨saved, s.now + offMs, ⟨order, by omega, le_rfl, le_rfl,
    (Word32.sub_self _).symm, fun _ => rfl, fun _ => rfl, ?_, inv.seen, ?_,
    by simp [fledStep, Fled.fresh], by simp [fledStep, Fled.fresh]⟩⟩
  · rw [same]
    change _ ≤ saved / 1000 + after
    exact start
  · rw [same]
    change (storedAge s).ageS + otaFledCarry (rtc.getD s.unsaved).1 (rtc.getD s.unsaved).2 + _ ≤
      (s.now + offMs) / 1000 + after
    cases rtc with
    | none =>
        rw [Option.getD_none]
        omega
    | some pair =>
        have lost : otaFledCarry pair.1 pair.2 = 0 := by
          unfold otaFledCarry
          rw [if_pos (noise pair.1 pair.2 rfl)]
        rw [Option.getD_some, lost]
        omega

/-! ## One event -/

/-- What a turn or a refusing check does to the record: it loads it, then at most one
put of the RTC pair or one save, of the computed age or of a restarted one. -/
def Effect (s : FledState) (env : FledEnv) (next : FledState) : Prop :=
  let l := loadFled s env.readOk
  next = s ∨ next = l ∨ next = putFledUnsaved l (fledUnsavedS l) ∨
    ∃ ageS tries, (ageS = fledAgeNow l env.epoch ∨ ageS = 0) ∧ next = saveFled l env ageS tries

theorem turn_effect (s : FledState) (env : FledEnv) : Effect s env (ageFledRelease s env) := by
  unfold ageFledRelease Effect
  dsimp only
  split
  · exact .inr (.inl rfl)
  split
  · exact .inr (.inr (.inl rfl))
  · exact .inr (.inr (.inr ⟨_, _, .inl rfl, rfl⟩))

theorem check_effect {env : FledEnv} {remote : Str}
    (same : otaSameVersion remote (loadFled s env.readOk).fled.ver = true) (install : Install) :
    Effect s env (check s env remote false install) := by
  rw [check_offered same]
  rcases fledGate_offered same with ⟨_, gate⟩ | ⟨_, ⟨_, next, kept, gate⟩ | ⟨_, _, gate⟩ |
    ⟨_, _, gate⟩⟩
  · exact .inl (by rw [gate])
  · rw [gate]
    rcases kept with rfl | ⟨rfl, _⟩
    · exact .inr (.inr (.inr ⟨_, _, .inl rfl, rfl⟩))
    · exact .inr (.inl rfl)
  · rw [gate]
    rcases spendTry_cases _ env _ (.inl rfl) with ⟨_, spent⟩ | ⟨_, spent⟩ <;> rw [spent]
    · exact .inr (.inr (.inr ⟨_, _, .inl rfl, rfl⟩))
    · exact .inr (.inr (.inr ⟨_, _, .inl rfl, rfl⟩))
  · rw [gate]
    rcases spendTry_cases _ env _ (.inr rfl) with ⟨_, spent⟩ | ⟨_, spent⟩ <;> rw [spent]
    · exact .inr (.inr (.inr ⟨_, _, .inr rfl, rfl⟩))
    · exact .inr (.inr (.inr ⟨_, _, .inl rfl, rfl⟩))

theorem AgeInv.effect (inv : AgeInv Seen t0 base after s) {env : FledEnv} {next : FledState}
    (effect : Effect s env next) (seen : env.epoch = 0 ∨ Seen s.now env.epoch)
    (gap : GapOk t0 after (loadFled s env.readOk) env.epoch) :
    AgeInv Seen t0 base after next := by
  have loaded := inv.load env.readOk
  have now : (loadFled s env.readOk).now = s.now := (loadFled_frame s env.readOk).2.2.1
  rcases effect with rfl | rfl | rfl | ⟨ageS, tries, value, rfl⟩
  · exact inv
  · exact loaded
  · exact loaded.putUnsaved (loadFled_loaded _ _)
  · refine loaded.save (loadFled_loaded _ _) (now ▸ seen) tries ?_
    obtain ⟨saved, mark, at_mark⟩ := loaded
    have bound := at_mark.age_le gap
    rcases value with rfl | rfl
    · exact bound
    · omega

theorem AgeInv.turnAt (inv : AgeInv Seen t0 base after s) (turnAt : Nat) :
    AgeInv Seen t0 base after { s with turnAt } := by
  obtain ⟨saved, mark, inv⟩ := inv
  exact ⟨saved, mark, ⟨inv.order, inv.saved_mark, inv.boot_mark, inv.mark_now, inv.markMs,
    inv.first, inv.unloaded, inv.stored, inv.seen, inv.kept, inv.carried, inv.ram⟩⟩

/-- Every admissible event but a reset keeps the bounds. -/
theorem AgeInv.event {t : FledTrace} (inv : AgeInv Seen t0 base after t.state) {e : FledEvent}
    (refuses : Refuses t e) (boot : isReset e = false)
    (seen : ∀ epoch, epochRead e = some epoch → epoch = 0 ∨ Seen t.state.now epoch)
    (gap : ∀ readOk epoch, epochRead e = some epoch →
      GapOk t0 after (loadFled t.state readOk) epoch) :
    AgeInv Seen t0 base after (fledStep t.state e) := by
  cases e with
  | wait ms => exact inv.wait ms
  | turn env =>
      exact (inv.effect (turn_effect t.state env) (seen _ rfl) (gap _ _ rfl)).turnAt _
  | check env remote force install =>
      obtain ⟨rfl, same⟩ := refuses
      exact inv.effect (check_effect same install) (seen _ rfl) (gap _ _ rfl)
  | reset offMs rtc running => exact absurd boot (by simp [isReset])

/-- An age computed by any event is within the bound. -/
theorem AgeInv.computed {e : FledEvent} {a : Nat} (inv : AgeInv Seen t0 base after s)
    (computed : computedAge s e = some a)
    (gap : ∀ readOk epoch, epochRead e = some epoch → GapOk t0 after (loadFled s readOk) epoch) :
    a + t0 / 1000 ≤ s.now / 1000 + after := by
  have bound : ∀ readOk epoch, epochRead e = some epoch →
      fledAgeNow (loadFled s readOk) epoch + t0 / 1000 ≤ s.now / 1000 + after := by
    intro readOk epoch read
    obtain ⟨saved, mark, loaded⟩ := inv.load readOk
    have := loaded.age_le (gap readOk epoch read)
    rwa [(loadFled_frame s readOk).2.2.1] at this
  cases e with
  | wait ms => simp [computedAge] at computed
  | turn env =>
      simp only [computedAge] at computed
      split at computed
      · exact Option.some.inj computed ▸ bound env.readOk env.epoch rfl
      · simp at computed
  | check env remote force install =>
      simp only [computedAge] at computed
      split at computed
      · exact Option.some.inj computed ▸ bound env.readOk env.epoch rfl
      · simp at computed
  | reset offMs rtc running => simp [computedAge] at computed

/-! ## Where a clock gap comes from -/

/-- A clock that never gains on true time adds no more than the time that passed. -/
theorem gapOk_of_neverGains {clock : Nat → Nat} (never : NeverGains clock)
    (inv : AgeInv (fun time reading => reading.toNat = clock time) t0 0 0 s)
    (loaded : s.fled.loaded = true) {epoch : UInt32}
    (reads : epoch = 0 ∨ epoch.toNat = clock s.now) : GapOk t0 0 s epoch := by
  intro first
  obtain ⟨saved, mark, inv⟩ := inv
  obtain ⟨copy, carried⟩ := inv.carried loaded first
  have unsaved := inv.unsaved_le
  have stored := inv.stored
  rw [gapsAt_of_unsaved first] at stored
  have := inv.first first
  have := inv.mark_now
  have saved_now := inv.saved_mark.trans inv.mark_now
  have ram : s.fled.saved.ageS ≤ (storedAge s).ageS := by
    rcases copy with same | same <;> rw [same]
    exact Nat.zero_le _
  obtain ⟨-, -, elapsed⟩ :=
    otaFledElapsed_first_le (fledUnsavedS s) s.fled.saved.seenEpoch epoch
  rcases elapsed with uptime | ⟨synced, now, gap⟩
  · omega
  · -- The gap runs from the save the word tells of, and the clock gained nothing since.
    have same : s.fled.saved = storedAge s := by
      rcases copy with same | same
      · exact same
      · exact absurd (by rw [same]; rfl) synced
    have start : (storedAge s).seenEpoch.toNat = clock saved :=
      inv.seen.resolve_left (same ▸ synced)
    have stop : epoch.toNat = clock s.now := reads.resolve_left now
    have gains := never saved s.now saved_now
    rw [same, start, stop] at gap
    rw [same]
    omega

/-- Any clock adds at most the cap, and nothing while no synced save was stored. -/
theorem gapOk_of_cap {Seen : Nat → UInt32 → Prop} (inv : AgeInv Seen t0 base after s)
    (loaded : s.fled.loaded = true)
    (cap : base + OTA_FLED_GAP_MAX_S ≤ after ∨
      (s.fled.savedThisBoot = false → (storedAge s).seenEpoch = 0))
    (epoch : UInt32) : GapOk t0 after s epoch := by
  intro first
  obtain ⟨saved, mark, inv⟩ := inv
  obtain ⟨copy, carried⟩ := inv.carried loaded first
  have unsaved := inv.unsaved_le
  have := inv.order
  have := inv.first first
  have := inv.mark_now
  have ram : s.fled.saved.ageS ≤ (storedAge s).ageS := by
    rcases copy with same | same <;> rw [same]
    exact Nat.zero_le _
  obtain ⟨most, none, -⟩ := otaFledElapsed_first_le (fledUnsavedS s) s.fled.saved.seenEpoch epoch
  rcases cap with room | unsynced
  · omega
  · have zero : s.fled.saved.seenEpoch = 0 := by
      rcases copy with same | same
      · rw [same]; exact unsynced first
      · rw [same]; rfl
    have := none zero
    omega

end

end Thesada.Ota
