import Thesada.Ota.FledAge

/-!
# The skip age over whole runs

Runs of boots, turns and refusing checks from the moment a record was written. The
computed age stays within the true time since the record, within one hour more for each
reset when the clock is arbitrary, and never decreases within a boot unless a try
restarts it.
-/

namespace Thesada.Ota

open CString

/-! ## Bounds -/

section

variable {t0 : Nat} {t : FledTrace}

/-- Each reset may let in one capped gap, and none comes before the first synced save. -/
structure CappedInv (t0 : Nat) (t : FledTrace) : Prop where
  age : AgeInv (fun _ _ => True) t0 (OTA_FLED_GAP_MAX_S * (t.resets - 1))
    (OTA_FLED_GAP_MAX_S * t.resets) t.state
  unsynced : t.resets = 0 → t.state.fled.savedThisBoot = false →
    (storedAge t.state).seenEpoch = 0
  start : t0 ≤ t.state.now

theorem AgeInv.recorded {Seen : Nat → UInt32 → Prop} (ver running : Str)
    {unsaved : UInt32 × UInt32} (empty : otaFledCarry unsaved.1 unsaved.2 = 0) (t0 : Nat) :
    AgeInv Seen t0 0 0 (FledTrace.recorded ver running unsaved t0).state := by
  have zero := storedAge_recorded ver running unsaved t0
  refine ⟨t0, t0, ⟨le_rfl, le_rfl, le_rfl, le_rfl, (Word32.sub_self t0).symm, fun _ => rfl,
    fun _ => rfl, ?_, .inl (by rw [zero]; rfl), ?_, ?_, ?_⟩⟩
  · rw [zero, gapsAt_of_unsaved rfl]
    exact (Nat.zero_add _).le
  · rw [zero, gapsAt_of_unsaved rfl, putAt_of_unloaded rfl]
    exact (by simp [OtaFledAge.zero, empty] :
      OtaFledAge.zero.ageS + otaFledCarry unsaved.1 unsaved.2 + t0 / 1000 ≤ t0 / 1000 + 0)
  · simp [FledTrace.recorded, Fled.fresh]
  · simp [FledTrace.recorded, Fled.fresh]

theorem loadFled_savedThisBoot (s : FledState) (readOk : Bool) :
    (loadFled s readOk).fled.savedThisBoot = s.fled.savedThisBoot := by
  unfold loadFled
  dsimp only
  repeat' split
  all_goals rfl

theorem storedAge_loadFled (s : FledState) (readOk : Bool) :
    storedAge (loadFled s readOk) = storedAge s := by
  rw [storedAge, (loadFled_frame s readOk).1, storedAge]

/-- Only a save changes what a boot that has not saved yet finds in NVS. -/
theorem effect_unsynced {s next : FledState} {env : FledEnv} (effect : Effect s env next)
    (unsynced : s.fled.savedThisBoot = false → (storedAge s).seenEpoch = 0) :
    next.fled.savedThisBoot = false → (storedAge next).seenEpoch = 0 := by
  intro first
  rcases effect with rfl | rfl | rfl | ⟨ageS, tries, _, rfl⟩
  · exact unsynced first
  · rw [loadFled_savedThisBoot] at first
    rw [storedAge_loadFled]
    exact unsynced first
  · change (loadFled s env.readOk).fled.savedThisBoot = false at first
    change (storedAge (loadFled s env.readOk)).seenEpoch = 0
    rw [loadFled_savedThisBoot] at first
    rw [storedAge_loadFled]
    exact unsynced first
  · exact absurd first (by simp [saveFled])

theorem effect_now {s next : FledState} {env : FledEnv} (effect : Effect s env next) :
    next.now = s.now := by
  have now := (loadFled_frame s env.readOk).2.2.1
  rcases effect with rfl | rfl | rfl | ⟨_, _, _, rfl⟩
  · rfl
  · exact now
  · exact now
  · exact now

/-- No admissible event takes true time back. -/
theorem now_le_step {e : FledEvent} (refuses : Refuses t e) :
    t.state.now ≤ (fledTraceStep t e).state.now := by
  cases e with
  | wait ms => exact Nat.le_add_right _ _
  | turn env => exact (effect_now (turn_effect t.state env)).ge
  | check env remote force install =>
      obtain ⟨rfl, fled⟩ := refuses
      exact (effect_now (check_effect fled install)).ge
  | reset offMs rtc running => exact Nat.le_add_right _ _

theorem CappedInv.gap (inv : CappedInv t0 t) (readOk : Bool) (epoch : UInt32) :
    GapOk t0 (OTA_FLED_GAP_MAX_S * t.resets) (loadFled t.state readOk) epoch := by
  refine gapOk_of_cap (inv.age.load readOk) (loadFled_loaded _ _) ?_ epoch
  cases resets : t.resets with
  | zero =>
      refine .inr fun first => ?_
      rw [storedAge_loadFled]
      exact inv.unsynced resets (loadFled_savedThisBoot _ _ ▸ first)
  | succ n => exact .inl (by rw [Nat.add_sub_cancel, Nat.mul_succ])

theorem CappedInv.step (inv : CappedInv t0 t) {e : FledEvent} (refuses : Refuses t e) :
    CappedInv t0 (fledTraceStep t e) := by
  cases boot : isReset e with
  | false =>
      have same : (fledTraceStep t e).resets = t.resets := by simp [fledTraceStep, boot]
      refine ⟨?_, ?_, inv.start.trans (now_le_step refuses)⟩
      · rw [same]
        exact inv.age.event refuses boot (fun _ _ => .inr trivial) fun readOk epoch _ =>
          inv.gap readOk epoch
      · intro none
        rw [same] at none
        have unsynced := inv.unsynced none
        cases e with
        | wait ms => exact unsynced
        | turn env =>
            have unsaved := effect_unsynced (turn_effect t.state env) unsynced
            exact unsaved
        | check env remote force install =>
            obtain ⟨rfl, fled⟩ := refuses
            exact effect_unsynced (check_effect fled install) unsynced
        | reset => exact absurd boot (by simp [isReset])
  | true =>
      have more : (fledTraceStep t e).resets = t.resets + 1 := by simp [fledTraceStep, boot]
      refine ⟨?_, fun none => absurd none (by omega), inv.start.trans (now_le_step refuses)⟩
      rw [more, Nat.add_sub_cancel]
      cases e with
      | reset offMs rtc running =>
          refine inv.age.reset offMs (fun value check same => ?_) running
            (Nat.mul_le_mul_left _ (Nat.le_succ _))
          subst same
          exact refuses
      | _ => simp [isReset] at boot

/-- With a clock that never gains, no gap is let in at all. -/
theorem ageInv_step_of_neverGains {clock : Nat → Nat} (never : NeverGains clock)
    (inv : AgeInv (fun time reading => reading.toNat = clock time) t0 0 0 t.state)
    {e : FledEvent} (refuses : Refuses t e) (reads : Reads clock t e) :
    AgeInv (fun time reading => reading.toNat = clock time) t0 0 0 (fledTraceStep t e).state := by
  cases boot : isReset e with
  | false =>
      exact inv.event refuses boot reads fun readOk epoch read =>
        gapOk_of_neverGains never (inv.load readOk) (loadFled_loaded _ _)
          ((loadFled_frame t.state readOk).2.2.1 ▸ reads epoch read)
  | true =>
      cases e with
      | reset offMs rtc running =>
          refine inv.reset offMs (fun value check same => ?_) running le_rfl
          subst same
          exact refuses
      | _ => simp [isReset] at boot

end

/-! ## Order within a boot -/

/-- What a saved boot knows of its mark, and how long its loop has been idle. -/
structure Watch (s : FledState) : Prop where
  turn_now : s.turnAt ≤ s.now
  idle : s.now < s.turnAt + 49 * 86400 * 1000
  saved : s.fled.savedThisBoot = true → s.fled.loaded = true ∧ s.fled.carry = 0 ∧
    (otaParseVersion s.fled.ver).isSome = true ∧ otaSameVersion s.fled.ver s.running = false ∧
    ∃ mark, mark ≤ s.now ∧ s.fled.markMs = Word32.sub mark s.bootAt ∧
      (s.fled.saved.ageS < OTA_FLED_SKIP_S → s.turnAt < mark + OTA_FLED_SAVE_S * 1000)

/-- The last age computed in this boot is a floor for every later one. -/
structure WatchInv (t : FledTrace) : Prop extends Watch t.state where
  floor : ∀ a, t.age = some a → t.state.fled.savedThisBoot = true ∧
    ∀ epoch, a ≤ fledAgeNow t.state epoch

section

variable {s : FledState} {t : FledTrace}

/-- In a saved boot the age is the saved one plus the true seconds since the mark. -/
theorem Watch.age (inv : Watch s) (first : s.fled.savedThisBoot = true) {mark : Nat}
    (mark_now : mark ≤ s.now) (markMs : s.fled.markMs = Word32.sub mark s.bootAt)
    (recent : s.fled.saved.ageS < OTA_FLED_SKIP_S → s.turnAt < mark + OTA_FLED_SAVE_S * 1000)
    (epoch : UInt32) : fledAgeNow s epoch =
      min (s.fled.saved.ageS + (s.now - mark) / 1000) OTA_FLED_SKIP_S := by
  obtain ⟨_, carry, _⟩ := inv.saved first
  have elapsed : otaFledElapsed (fledUnsavedS s) false s.fled.saved.seenEpoch epoch =
      fledUnsavedS s := by simp [otaFledElapsed]
  rw [fledAgeNow, otaFledAdvance_eq, first, Bool.not_true, elapsed]
  by_cases expired : OTA_FLED_SKIP_S ≤ s.fled.saved.ageS
  · omega
  · -- Between turns less than a wrap of `millis` has passed since the mark.
    have := recent (Nat.not_le.mp expired)
    have := inv.idle
    have small : s.now - mark < Word32.size := by
      unfold OTA_FLED_SAVE_S Word32.size at *
      omega
    have unsaved : fledUnsavedS s = (s.now - mark) / 1000 := by
      rw [fledUnsavedS, millis, markMs, Word32.sub_sub_sub mark_now, carry, Nat.zero_add,
        Nat.mod_eq_of_lt small]
    rw [unsaved]

/-- In a saved boot the clock no longer matters. -/
theorem Watch.age_eq (inv : Watch s) (first : s.fled.savedThisBoot = true)
    (epoch epoch' : UInt32) : fledAgeNow s epoch = fledAgeNow s epoch' := by
  obtain ⟨_, _, _, _, mark, mark_now, markMs, recent⟩ := inv.saved first
  rw [inv.age first mark_now markMs recent, inv.age first mark_now markMs recent]

/-- Right after a save the computed age is the one that was saved. -/
theorem fledAgeNow_saveFled (s : FledState) (env : FledEnv) (ageS : Nat) (tries : UInt8)
    (epoch : UInt32) : fledAgeNow (saveFled s env ageS tries) epoch = min ageS OTA_FLED_SKIP_S := by
  have unsaved : fledUnsavedS (saveFled s env ageS tries) = 0 := by
    change 0 + Word32.sub (millis s) (millis s) / 1000 = 0
    rw [Word32.sub_self]
  rw [fledAgeNow, otaFledAdvance_eq, unsaved]
  simp [saveFled, otaFledElapsed]

theorem Watch.load (inv : Watch s) (readOk : Bool) : Watch (loadFled s readOk) := by
  cases h : s.fled.loaded with
  | true => rwa [loadFled_of_loaded h]
  | false =>
      obtain ⟨_, _, now, _, _, turnAt⟩ := loadFled_frame s readOk
      refine ⟨by rw [now, turnAt]; exact inv.turn_now, by rw [now, turnAt]; exact inv.idle, ?_⟩
      intro first
      rw [loadFled_savedThisBoot] at first
      exact absurd (h.symm.trans (inv.saved first).1) (by simp)

/-- A save marks now, so it is as recent as a mark can be. -/
theorem Watch.save (inv : Watch s) (loaded : s.fled.loaded = true)
    (parses : (otaParseVersion s.fled.ver).isSome = true)
    (other : otaSameVersion s.fled.ver s.running = false) (env : FledEnv) (ageS : Nat)
    (tries : UInt8) : Watch (saveFled s env ageS tries) := by
  refine ⟨inv.turn_now, inv.idle, fun _ => ⟨loaded, rfl, parses, other, s.now, le_rfl, rfl, ?_⟩⟩
  intro _
  have := inv.turn_now
  change s.turnAt < s.now + OTA_FLED_SAVE_S * 1000
  unfold OTA_FLED_SAVE_S
  omega

theorem Watch.turn (inv : Watch s)
    (recent : s.fled.savedThisBoot = true → s.fled.saved.ageS < OTA_FLED_SKIP_S →
      fledUnsavedS s < OTA_FLED_SAVE_S) : Watch { s with turnAt := s.now } := by
  refine ⟨le_rfl, by dsimp only; omega, fun first => ?_⟩
  obtain ⟨loaded, carry, parses, other, mark, mark_now, markMs, before⟩ := inv.saved first
  refine ⟨loaded, carry, parses, other, mark, mark_now, markMs, fun young => ?_⟩
  have counted := recent first young
  have := before young
  have := inv.idle
  have small : s.now - mark < Word32.size := by
    unfold OTA_FLED_SAVE_S Word32.size at *
    omega
  rw [fledUnsavedS, millis, markMs, Word32.sub_sub_sub mark_now, carry, Nat.zero_add,
    Nat.mod_eq_of_lt small] at counted
  change s.now < mark + OTA_FLED_SAVE_S * 1000
  unfold OTA_FLED_SAVE_S at counted ⊢
  omega

/-- An age that was computed by saving it is a floor for every later one. -/
theorem floor_of_save {l : FledState} {env : FledEnv} {ageS : Nat} {tries : UInt8}
    (capped : ageS ≤ OTA_FLED_SKIP_S) (epoch : UInt32) :
    ageS ≤ fledAgeNow (saveFled l env ageS tries) epoch := by
  rw [fledAgeNow_saveFled]
  omega

section

variable {env : FledEnv} {l : FledState} (load : loadFled t.state env.readOk = l)

include load

theorem turn_now_eq : t.state.now = l.now := by
  rw [← load]
  exact (loadFled_frame t.state env.readOk).2.2.1.symm

/-- A turn with nothing to age. -/
theorem turn_unaged (ages : otaFledAges l.fled.ver l.running l.fled.saved.ageS = false) :
    (fledTraceStep t (.turn env)).state = { l with turnAt := l.now } ∧
      (fledTraceStep t (.turn env)).age = t.age := by
  constructor
  · simp [fledTraceStep, fledStep, ageFledRelease, load, ages, turn_now_eq load]
  · simp [fledTraceStep, isReset, restarts, verdict, computedAge, load, ages]

/-- A turn that only notes the seconds since the last save. -/
theorem turn_waits (ages : otaFledAges l.fled.ver l.running l.fled.saved.ageS = true)
    (due : otaFledSaveDue (fledUnsavedS l) false = false) :
    (fledTraceStep t (.turn env)).state =
        { putFledUnsaved l (fledUnsavedS l) with turnAt := l.now } ∧
      (fledTraceStep t (.turn env)).age = t.age := by
  constructor
  · simp [fledTraceStep, fledStep, ageFledRelease, load, ages, due, turn_now_eq load]
  · simp [fledTraceStep, isReset, restarts, verdict, computedAge, load, due]

/-- A turn that computes the age and saves it. -/
theorem turn_saves (ages : otaFledAges l.fled.ver l.running l.fled.saved.ageS = true)
    (due : otaFledSaveDue (fledUnsavedS l) false = true) :
    (fledTraceStep t (.turn env)).state =
        { saveFled l env (fledAgeNow l env.epoch) l.fled.saved.tries with turnAt := l.now } ∧
      (fledTraceStep t (.turn env)).age = some (fledAgeNow l env.epoch) := by
  constructor
  · simp [fledTraceStep, fledStep, ageFledRelease, load, ages, due, turn_now_eq load]
  · simp [fledTraceStep, isReset, restarts, verdict, computedAge, load, ages, due]

end

theorem WatchInv.turn (inv : WatchInv t) (env : FledEnv) :
    WatchInv (fledTraceStep t (.turn env)) := by
  have loaded := inv.toWatch.load env.readOk
  -- Without a computation the trace keeps its floor, which is about a loaded state.
  have keep : ∀ a, t.age = some a →
      loadFled t.state env.readOk = t.state := fun a h =>
    loadFled_of_loaded (inv.saved (inv.floor a h).1).1 _
  generalize load : loadFled t.state env.readOk = l at *
  cases ages : otaFledAges l.fled.ver l.running l.fled.saved.ageS with
  | false =>
      obtain ⟨state, age⟩ := turn_unaged load ages
      refine ⟨?_, ?_⟩
      · rw [state]
        refine loaded.turn fun first young => ?_
        obtain ⟨_, _, parses, other, _⟩ := loaded.saved first
        simp [otaFledAges, parses, other, young] at ages
      · rw [state, age]
        intro a h
        rw [keep a h]
        exact inv.floor a h
  | true =>
      have parts : ((otaParseVersion l.fled.ver).isSome = true ∧
          l.fled.saved.ageS < OTA_FLED_SKIP_S) ∧ otaSameVersion l.fled.ver l.running = false := by
        simpa [otaFledAges, and_assoc] using ages
      obtain ⟨⟨parses, young⟩, other⟩ := parts
      cases due : otaFledSaveDue (fledUnsavedS l) false with
      | false =>
          obtain ⟨state, age⟩ := turn_waits load ages due
          have put : Watch (putFledUnsaved l (fledUnsavedS l)) :=
            ⟨loaded.turn_now, loaded.idle, loaded.saved⟩
          refine ⟨?_, ?_⟩
          · rw [state]
            have small : fledUnsavedS l < OTA_FLED_SAVE_S := by simpa [otaFledSaveDue] using due
            exact put.turn fun _ _ => small
          · rw [state, age]
            intro a h
            rw [keep a h]
            exact inv.floor a h
      | true =>
          obtain ⟨state, age⟩ := turn_saves load ages due
          have isLoaded : l.fled.loaded = true := load ▸ loadFled_loaded _ _
          have saved := loaded.save isLoaded parses other env (fledAgeNow l env.epoch)
            l.fled.saved.tries
          refine ⟨?_, ?_⟩
          · rw [state]
            refine saved.turn fun _ _ => ?_
            change 0 + Word32.sub (millis l) (millis l) / 1000 < OTA_FLED_SAVE_S
            rw [Word32.sub_self]
            decide
          · rw [state, age]
            rintro a ⟨⟩
            exact ⟨rfl, floor_of_save (fledAgeNow_le l env.epoch)⟩

theorem WatchInv.wait (inv : WatchInv t) {ms : Nat} (soon : TurnsInTime t (.wait ms)) :
    WatchInv (fledTraceStep t (.wait ms)) := by
  have later : Watch (fledStep t.state (.wait ms)) := by
    refine ⟨inv.turn_now.trans (Nat.le_add_right _ _), soon, fun first => ?_⟩
    obtain ⟨loaded, carry, parses, other, mark, mark_now, rest⟩ := inv.saved first
    exact ⟨loaded, carry, parses, other, mark, mark_now.trans (Nat.le_add_right _ _), rest⟩
  refine ⟨later, fun a h => ?_⟩
  obtain ⟨first, floor⟩ := inv.floor a (by simpa [fledTraceStep, isReset, restarts, verdict,
    computedAge] using h)
  refine ⟨first, fun epoch => (floor epoch).trans ?_⟩
  obtain ⟨_, _, _, _, mark, mark_now, markMs, recent⟩ := inv.saved first
  have before := inv.age first mark_now markMs recent epoch
  have after := later.age first (mark_now.trans (Nat.le_add_right _ _)) markMs recent epoch
  have : (t.state.now - mark) / 1000 ≤ (t.state.now + ms - mark) / 1000 :=
    Nat.div_le_div_right (by omega)
  change _ ≤ fledAgeNow (fledStep t.state (.wait ms)) epoch
  rw [before, after]
  change _ ≤ min (t.state.fled.saved.ageS + (t.state.now + ms - mark) / 1000) _
  omega

/-- A check of the recorded version that gets past the version compare means another
build is running than the recorded one. -/
theorem otherBuild_of_newer {remote ver running : Str}
    (same : otaSameVersion remote ver = true)
    (newer : otaShouldUpdate remote running false = true) :
    (otaParseVersion ver).isSome = true ∧ otaSameVersion ver running = false := by
  obtain ⟨v, _, parsed⟩ := otaSameVersion_iff.mp same
  refine ⟨by simp [parsed], ?_⟩
  by_contra equal
  rw [Bool.not_eq_false] at equal
  have := not_otaIsNewer_of_same (otaSameVersion_trans same equal)
  simp [otaShouldUpdate, this] at newer

theorem WatchInv.check (inv : WatchInv t) {env : FledEnv} {remote : Str}
    (same : otaSameVersion remote (loadFled t.state env.readOk).fled.ver = true)
    (install : Install) : WatchInv (fledTraceStep t (.check env remote false install)) := by
  have loaded := inv.toWatch.load env.readOk
  have isLoaded := loadFled_loaded t.state env.readOk
  have state : (fledTraceStep t (.check env remote false install)).state =
      (fledGate t.state env remote false).2 := check_offered same install
  have aged : otaShouldUpdate remote t.state.running false = true →
      computedAge t.state (.check env remote false install) =
        some (fledAgeNow (loadFled t.state env.readOk) env.epoch) := by
    intro newer
    simp [computedAge, newer]
  have running : (loadFled t.state env.readOk).running = t.state.running :=
    (loadFled_frame t.state env.readOk).2.2.2.2.1
  have cases := fledGate_offered same
  generalize loadFled t.state env.readOk = l at *
  -- Every save of the gate: its age is computed here, unless it restarts the age.
  have save : ∀ verdict ageS tries, otaShouldUpdate remote t.state.running false = true →
      fledGate t.state env remote false = (verdict, saveFled l env ageS tries) →
      (verdict = .download .last ∨ ageS = fledAgeNow l env.epoch) →
      WatchInv (fledTraceStep t (.check env remote false install)) := by
    intro verdict ageS tries newer gate value
    obtain ⟨parses, other⟩ := otherBuild_of_newer same newer
    refine ⟨?_, ?_⟩
    · rw [state, gate]
      exact loaded.save isLoaded parses (by rw [running]; exact other) env ageS tries
    · rw [state, gate]
      intro a h
      by_cases last : verdict = .download .last
      · simp [fledTraceStep, isReset, restarts, Ota.verdict, gate, last] at h
      · obtain rfl := value.resolve_left last
        have computed : fledAgeNow l env.epoch = a := by
          simpa [fledTraceStep, isReset, restarts, Ota.verdict, gate, last, aged newer] using h
        subst computed
        exact ⟨rfl, floor_of_save (fledAgeNow_le l env.epoch)⟩
  rcases cases with ⟨old, gate⟩ | ⟨newer, ⟨_, next, kept, gate⟩ | ⟨_, _, gate⟩ | ⟨_, _, gate⟩⟩
  · have age : (fledTraceStep t (.check env remote false install)).age = t.age := by
      simp [fledTraceStep, isReset, restarts, verdict, gate, computedAge, old]
    refine ⟨by rw [state, gate]; exact inv.toWatch, ?_⟩
    rw [state, age, gate]
    exact inv.floor
  · rcases kept with rfl | ⟨rfl, first⟩
    · exact save _ _ _ newer gate (.inr rfl)
    · refine ⟨by rw [state, gate]; exact loaded, ?_⟩
      rw [state, gate]
      intro a h
      have computed : fledAgeNow next env.epoch = a := by
        simpa [fledTraceStep, isReset, restarts, verdict, gate, aged newer] using h
      exact ⟨first, fun epoch => by rw [← computed, loaded.age_eq first env.epoch epoch]⟩
  · rcases spendTry_cases l env _ (.inl rfl) with ⟨_, spent⟩ | ⟨_, spent⟩
    · exact save _ _ _ newer (gate.trans spent) (.inr rfl)
    · exact save _ _ _ newer (gate.trans spent) (.inr rfl)
  · rcases spendTry_cases l env _ (.inr rfl) with ⟨_, spent⟩ | ⟨_, spent⟩
    · exact save _ _ _ newer (gate.trans spent) (.inl rfl)
    · exact save _ _ _ newer (gate.trans spent) (.inr rfl)

theorem WatchInv.step (inv : WatchInv t) {e : FledEvent} (refuses : Refuses t e)
    (soon : TurnsInTime t e) : WatchInv (fledTraceStep t e) := by
  cases e with
  | wait ms => exact inv.wait soon
  | turn env => exact inv.turn env
  | check env remote force install =>
      obtain ⟨rfl, same⟩ := refuses
      exact inv.check same install
  | reset offMs rtc running =>
      exact ⟨⟨le_rfl, by simp [fledTraceStep, fledStep], by simp [fledTraceStep, fledStep,
        Fled.fresh]⟩, by simp [fledTraceStep, isReset]⟩

/-- An age is never below the last one computed in the boot. -/
theorem WatchInv.order (inv : WatchInv t) {e : FledEvent} {a b : Nat} (last : t.age = some a)
    (computed : computedAge t.state e = some b) : a ≤ b := by
  obtain ⟨first, floor⟩ := inv.floor a last
  have loaded : ∀ readOk, loadFled t.state readOk = t.state :=
    loadFled_of_loaded (inv.saved first).1
  cases e with
  | turn env =>
      simp only [computedAge, loaded] at computed
      split at computed
      · exact Option.some.inj computed ▸ floor env.epoch
      · simp at computed
  | check env remote force install =>
      simp only [computedAge, loaded] at computed
      split at computed
      · exact Option.some.inj computed ▸ floor env.epoch
      · simp at computed
  | _ => simp [computedAge] at computed

end

/-- What an age computed by one event must satisfy, after a run from a record written at
`t0`. -/
structure AgeSound (start : FledTrace) (es : List FledEvent) (e : FledEvent) (b : Nat) :
    Prop where
  /-- With a clock that never gains on true time it is at most the true elapsed time. -/
  elapsed : ∀ clock, NeverGains clock →
    Machine.Meets fledTraceStep (Reads clock) start (es ++ [e]) →
      b ≤ (Machine.run fledTraceStep start es).state.now / 1000 - start.state.now / 1000
  /-- With any clock it exceeds that by at most an hour for each reset. -/
  capped : b ≤ (Machine.run fledTraceStep start es).state.now / 1000 - start.state.now / 1000 +
    OTA_FLED_GAP_MAX_S * (Machine.run fledTraceStep start es).resets
  /-- It is no less than the last one of this boot, unless a try restarted the age. -/
  order : Machine.Meets fledTraceStep TurnsInTime start (es ++ [e]) →
    ∀ a, (Machine.run fledTraceStep start es).age = some a → a ≤ b

theorem WatchInv.recorded (ver running : Str) (unsaved : UInt32 × UInt32) (t0 : Nat) :
    WatchInv (.recorded ver running unsaved t0) :=
  ⟨⟨le_rfl, by simp [FledTrace.recorded], by simp [FledTrace.recorded, Fled.fresh]⟩,
    by simp [FledTrace.recorded]⟩

/-- Every age computed in every run of boots, turns and refusing checks since a record. -/
theorem fled_age_sound {ver running : Str} {unsaved : UInt32 × UInt32}
    (empty : otaFledCarry unsaved.1 unsaved.2 = 0) {t0 : Nat} {es : List FledEvent}
    {e : FledEvent} (refuses : Machine.Meets fledTraceStep Refuses
      (.recorded ver running unsaved t0) (es ++ [e]))
    {b : Nat} (computed : computedAge
      (Machine.run fledTraceStep (.recorded ver running unsaved t0) es).state e = some b) :
    AgeSound (.recorded ver running unsaved t0) es e b := by
  have capped_step : ∀ t e, CappedInv t0 t → Refuses t e → CappedInv t0 (fledTraceStep t e) :=
    fun t e inv ok => inv.step ok
  obtain ⟨capped, -⟩ := refuses.last capped_step
    ⟨.recorded ver running empty t0, fun _ _ => by rw [storedAge_recorded]; rfl, le_rfl⟩
  have start : t0 / 1000 ≤ (Machine.run fledTraceStep (.recorded ver running unsaved t0)
      es).state.now / 1000 := Nat.div_le_div_right capped.start
  refine ⟨fun clock never reads => ?_, ?_, fun soon a last => ?_⟩
  · have exact_step : ∀ t e, AgeInv (fun time reading => reading.toNat = clock time) t0 0 0
        t.state → (Refuses t e ∧ Reads clock t e) →
        AgeInv (fun time reading => reading.toNat = clock time) t0 0 0
          (fledTraceStep t e).state :=
      fun t e inv ok => ageInv_step_of_neverGains never inv ok.1 ok.2
    obtain ⟨inv, _, read⟩ := (refuses.and reads).last exact_step (.recorded ver running empty t0)
    have bound := inv.computed computed fun readOk epoch h =>
      gapOk_of_neverGains never (inv.load readOk) (loadFled_loaded _ _)
        (by rw [(loadFled_frame _ readOk).2.2.1]; exact read epoch h)
    change b ≤ _ - t0 / 1000
    omega
  · have bound := capped.age.computed computed fun readOk epoch _ => capped.gap readOk epoch
    change b ≤ _ - t0 / 1000 + _
    omega
  · have watch_step : ∀ t e, WatchInv t → (Refuses t e ∧ TurnsInTime t e) →
        WatchInv (fledTraceStep t e) := fun t e inv ok => inv.step ok.1 ok.2
    obtain ⟨inv, -⟩ := (refuses.and soon).last watch_step (.recorded ver running unsaved t0)
    exact inv.order last computed

/-- Ten minutes after the record a check computes its age, which is ten minutes. -/
theorem fled_age_sound_after_ten_minutes :
    let start := FledTrace.recorded "1.1.0".toList "1.0.0".toList (0, ~~~0) 0
    let e := FledEvent.check ⟨true, true, 0⟩ "1.1.0".toList false .failed
    AgeSound start [.wait 600000] e 600 := by
  intro start e
  have refuses : Machine.Meets fledTraceStep Refuses start ([.wait 600000] ++ [e]) :=
    ⟨trivial, ⟨rfl, by decide +kernel⟩, trivial⟩
  exact fled_age_sound (by decide) refuses (by decide +kernel)

/-- A clock that is 3000 s behind at the first save and right one second later is never
ahead, yet adds 3001 s to the age in that second. And without a turn for a whole wrap of
`millis` an age within one boot falls from 500 s to 100 s. -/
theorem late_clock_ages_early :
    let start := FledTrace.recorded "1.1.0".toList "1.0.0".toList (0, ~~~0) 1000000000
    let clock := fun t => if t < 1000001000 then t / 1000 - 3000 else t / 1000
    let check := fun epoch => FledEvent.check ⟨true, true, epoch⟩ "1.1.0".toList false .failed
    let late := [check 997000, .reset 0 none "1.0.0".toList, .wait 1000]
    let idle := [check 0, .wait 500000, check 0, .wait 4294567296]
    ((∀ t, clock t ≤ t / 1000) ∧
      Machine.Meets fledTraceStep Refuses start (late ++ [check 1000001]) ∧
      Machine.Meets fledTraceStep (Reads clock) start (late ++ [check 1000001]) ∧
      computedAge (Machine.run fledTraceStep start late).state (check 1000001) = some 3001 ∧
      (Machine.run fledTraceStep start late).state.now / 1000 - start.state.now / 1000 = 1) ∧
    Machine.Meets fledTraceStep Refuses start (idle ++ [check 0]) ∧
      (Machine.run fledTraceStep start idle).age = some 500 ∧
      computedAge (Machine.run fledTraceStep start idle).state (check 0) = some 100 := by
  intro start clock check late idle
  refine ⟨⟨fun t => ?_, ?_, ?_, by decide +kernel, by decide +kernel⟩, ?_, by decide +kernel,
    by decide +kernel⟩
  · simp only [clock]
    split <;> omega
  · exact ⟨⟨rfl, by decide +kernel⟩, trivial, trivial, ⟨rfl, by decide +kernel⟩, trivial⟩
  · refine ⟨?_, fun _ => by simp [epochRead], fun _ => by simp [epochRead], ?_, trivial⟩
    · rintro epoch ⟨⟩
      exact .inr (by decide +kernel)
    · rintro epoch ⟨⟩
      exact .inr (by decide +kernel)
  · exact ⟨⟨rfl, by decide +kernel⟩, trivial, ⟨rfl, by decide +kernel⟩, trivial,
      ⟨rfl, by decide +kernel⟩, trivial⟩

end Thesada.Ota
