import Thesada.Ota.Fled

/-!
# Downloads of a fled release

Runs in which the manifest keeps offering the recorded version, no check is forced and
NVS can be read. A download starts only on an expired skip, its try is in NVS before it
starts, and each expired skip pays for at most `OTA_FLED_TRIES` downloads. Saves may
fail at any point, and resets may come at any point and leave anything in RTC memory.
-/

namespace Thesada.Ota

open CString

/-- NVS answers reads, and a check meets the recorded version and is not forced. -/
def Offers (t : FledTrace) : FledEvent → Prop
  | .turn env => env.readOk = true
  | .check env remote force _ => env.readOk = true ∧ force = false ∧
      otaSameVersion remote (t.state.fledVer.getD []) = true
  | _ => True

/-- What one event of such a run must show. -/
structure TriesSound (t : FledTrace) (e : FledEvent) : Prop where
  /-- A download starts on an expired age only. -/
  expired : downloads t.state e = true → ∃ a, computedAge t.state e = some a ∧ OTA_FLED_SKIP_S ≤ a
  /-- Since the age last restarted at 0, this event's downloads included. -/
  count : (fledTraceStep t e).downloads ≤ OTA_FLED_TRIES
  /-- A try that was not saved starts no download and leaves age, tries and NVS alone. -/
  unsaved : verdict t.state e = some .unsaved → downloads t.state e = false ∧
    (fledStep t.state e).fledAge = t.state.fledAge ∧
    (fledStep t.state e).fled.saved.tries = (storedAge t.state).tries ∧
    ∃ a, computedAge t.state e = some a ∧ ∀ epoch, fledAgeNow (fledStep t.state e) epoch = a

/-- RAM has the recorded version and the stored count of tries. -/
structure Tracks (ver : Str) (s : FledState) : Prop where
  stored : s.fledVer = some ver
  fresh : s.fled.loaded = false → s.fled = .fresh
  loaded : s.fled.loaded = true → s.fled.ver = ver ∧ s.fled.saved.tries = (storedAge s).tries

/-- What holds between two events: a stored count of 0 leaves at least one download. -/
structure TriesInv (ver : Str) (t : FledTrace) : Prop extends Tracks ver t.state where
  count : t.downloads ≤ 2
  spare : (storedAge t.state).tries.toNat = 0 → t.downloads ≤ 1

section

variable {ver : Str} {s : FledState} {t : FledTrace}

theorem TriesInv.recorded (running : Str) (unsaved : UInt32 × UInt32) (now : Nat) :
    TriesInv ver (.recorded ver running unsaved now) :=
  ⟨⟨rfl, fun _ => rfl, by simp [FledTrace.recorded, Fled.fresh]⟩, by simp [FledTrace.recorded],
    by simp [FledTrace.recorded]⟩

theorem Tracks.load (inv : Tracks ver s) (fits : ver.length < 32) :
    Tracks ver (loadFled s true) ∧ storedAge (loadFled s true) = storedAge s := by
  obtain ⟨age, stored, _⟩ := loadFled_frame s true
  have same : storedAge (loadFled s true) = storedAge s := by rw [storedAge, age, storedAge]
  refine ⟨⟨stored.trans inv.stored, by simp, fun _ => ?_⟩, same⟩
  rw [same]
  cases h : s.fled.loaded with
  | true => rw [loadFled_of_loaded h]; exact inv.loaded h
  | false =>
      have fresh := inv.fresh h
      constructor
      · simp [loadFled, fresh, inv.stored, fledVerRead, fits, Fled.fresh]
      · simp only [loadFled, fresh, storedAge]
        cases s.fledAge <;> simp [Fled.fresh]

theorem Tracks.putUnsaved (inv : Tracks ver s) (seconds : Nat) :
    Tracks ver (putFledUnsaved s seconds) := ⟨inv.stored, inv.fresh, inv.loaded⟩

/-- A save keeps RAM and NVS alike when it lands or leaves the count as it is. -/
theorem Tracks.save (inv : Tracks ver s) (loaded : s.fled.loaded = true) (env : FledEnv)
    (ageS : Nat) {tries : UInt8} (kept : env.writeOk = false → tries = s.fled.saved.tries) :
    Tracks ver (saveFled s env ageS tries) ∧
      (storedAge (saveFled s env ageS tries)).tries = tries := by
  obtain ⟨same, count⟩ := inv.loaded loaded
  have after : (storedAge (saveFled s env ageS tries)).tries = tries := by
    rw [storedAge_saveFled]
    cases landed : env.writeOk with
    | true => rfl
    | false => simpa [kept landed] using count.symm
  exact ⟨⟨inv.stored, fun h => absurd (loaded.symm.trans h) (by simp),
    fun _ => ⟨same, after.symm⟩⟩, after⟩

/-- A turn keeps the stored count. -/
theorem Tracks.turn (inv : Tracks ver s) (fits : ver.length < 32) (env : FledEnv)
    (read : env.readOk = true) :
    Tracks ver (ageFledRelease s env) ∧
      (storedAge (ageFledRelease s env)).tries = (storedAge s).tries := by
  obtain ⟨tracks, same⟩ := inv.load fits
  unfold ageFledRelease
  rw [read]
  dsimp only
  split
  · exact ⟨tracks, by rw [same]⟩
  split
  · exact ⟨tracks.putUnsaved _, congrArg OtaFledAge.tries same⟩
  · obtain ⟨saved, count⟩ := tracks.save (loadFled_loaded s true) env
      (fledAgeNow (loadFled s true) env.epoch) (fun _ => rfl)
    refine ⟨saved, count.trans ?_⟩
    rw [(tracks.loaded (loadFled_loaded s true)).2, same]

/-- A check that starts no download keeps every count. -/
theorem TriesInv.of_quiet (inv : TriesInv ver t) {e : FledEvent}
    (tracks : Tracks ver (fledStep t.state e))
    (tries : (storedAge (fledStep t.state e)).tries = (storedAge t.state).tries)
    (quiet : downloads t.state e = false) (same : restarts t.state e = false) :
    TriesInv ver (fledTraceStep t e) := by
  refine ⟨tracks, ?_, ?_⟩
  · simpa [fledTraceStep, quiet, same] using inv.count
  · intro none
    have := inv.spare (by rw [← tries]; exact none)
    simpa [fledTraceStep, quiet, same] using this

theorem quiet_of_verdict {env : FledEnv} {remote : Str} {force : Bool} (install : Install)
    (h : ∀ action, (fledGate s env remote force).1 ≠ .download action) :
    downloads s (.check env remote force install) = false ∧
      restarts s (.check env remote force install) = false := by
  constructor
  · simp only [downloads]
  · simpa [restarts, verdict] using h .last

/-- A check that starts no download leaves the state of the gate. -/
theorem TriesInv.of_refusal (inv : TriesInv ver t) {env : FledEnv} {remote : Str}
    {install : Install} {verdict : FledVerdict} {next : FledState}
    (after : fledStep t.state (.check env remote false install) =
      (fledGate t.state env remote false).2)
    (gate : fledGate t.state env remote false = (verdict, next))
    (refused : ∀ action, verdict ≠ .download action) (tracks : Tracks ver next)
    (tries : (storedAge next).tries = (storedAge t.state).tries) :
    fledStep t.state (.check env remote false install) = next ∧
      downloads t.state (.check env remote false install) = false ∧
      TriesInv ver (fledTraceStep t (.check env remote false install)) := by
  rw [gate] at after
  have none : ∀ action, (fledGate t.state env remote false).1 ≠ .download action := by
    rw [gate]
    exact refused
  obtain ⟨quiet, once⟩ := quiet_of_verdict install none
  refine ⟨after, quiet, inv.of_quiet ?_ ?_ quiet once⟩
  · rw [after]
    exact tracks
  · rw [after]
    exact tries

/-- An event that starts no download and is no unsaved try shows nothing new. -/
theorem TriesSound.of_quiet {e : FledEvent} (after : TriesInv ver (fledTraceStep t e))
    (quiet : downloads t.state e = false) (other : verdict t.state e ≠ some .unsaved) :
    TriesSound t e :=
  ⟨fun h => absurd (quiet.symm.trans h) (by simp), after.count, fun h => absurd h other⟩

/-- A try that was saved starts at most one download, and a last one restarts the age. -/
theorem triesInv_of_download {env : FledEnv} {remote : Str} {install : Install}
    {action : OtaFledAction} {next : FledState} {a : Nat}
    (gate : fledGate t.state env remote false = (.download action, next))
    (after : fledStep t.state (.check env remote false install) =
      (fledGate t.state env remote false).2)
    (aged : computedAge t.state (.check env remote false install) = some a)
    (expired : OTA_FLED_SKIP_S ≤ a) (tracks : Tracks ver next)
    (room : (if action = .last then 0 else t.downloads) ≤ 1)
    (spare : (storedAge next).tries.toNat = 0 → action = .last) :
    TriesInv ver (fledTraceStep t (.check env remote false install)) ∧
      TriesSound t (.check env remote false install) := by
  rw [gate] at after
  have once : restarts t.state (.check env remote false install) = decide (action = .last) := by
    simp [restarts, verdict, gate]
  have count : (fledTraceStep t (.check env remote false install)).downloads ≤
      (if action = .last then 0 else t.downloads) + 1 := by
    simp only [fledTraceStep, once, decide_eq_true_eq]
    split <;> split <;> omega
  refine ⟨⟨by rw [fledTraceStep, after]; exact tracks, by omega, fun none => ?_⟩,
    ⟨fun _ => ⟨a, aged, expired⟩, by unfold OTA_FLED_TRIES; omega, by simp [verdict, gate]⟩⟩
  rw [fledTraceStep, after] at none
  rw [if_pos (spare none)] at count
  omega

/-- A try that NVS did not take, retry or last alike. -/
theorem TriesInv.unsaved (inv : TriesInv ver t) (fits : ver.length < 32) {env : FledEnv}
    {remote : Str} {install : Install} {l : FledState} (load : loadFled t.state true = l)
    (after : fledStep t.state (.check env remote false install) =
      (fledGate t.state env remote false).2)
    (aged : computedAge t.state (.check env remote false install) = some (fledAgeNow l env.epoch))
    (expired : OTA_FLED_SKIP_S ≤ fledAgeNow l env.epoch) (lost : env.writeOk = false)
    (gate : fledGate t.state env remote false =
      (.unsaved, saveFled l env (fledAgeNow l env.epoch) l.fled.saved.tries)) :
    TriesInv ver (fledTraceStep t (.check env remote false install)) ∧
      TriesSound t (.check env remote false install) := by
  obtain ⟨tracks, stored⟩ := inv.toTracks.load fits
  have loaded := loadFled_loaded t.state true
  rw [load] at tracks stored loaded
  obtain ⟨-, tries_eq⟩ := tracks.loaded loaded
  obtain ⟨saved, count⟩ := tracks.save loaded env (fledAgeNow l env.epoch) (fun _ => rfl)
  obtain ⟨after, quiet, next⟩ := inv.of_refusal after gate (by simp) saved
    (by rw [count, tries_eq, stored])
  refine ⟨next, ⟨fun h => absurd (quiet.symm.trans h) (by simp), next.count, fun _ =>
    ⟨quiet, ?_, ?_, _, aged, ?_⟩⟩⟩
  · rw [after]
    exact (by simp [saveFled, lost] : _ = l.fledAge).trans (load ▸ (loadFled_frame _ true).1)
  · rw [after]
    exact tries_eq.trans (by rw [stored])
  · intro epoch
    rw [after, fledAgeNow_of_expired expired]
    exact Nat.le_antisymm expired (fledAgeNow_le l env.epoch)

/-- What a check of the recorded version does to the counts, and what it shows. -/
theorem TriesInv.check (inv : TriesInv ver t) (fits : ver.length < 32) {env : FledEnv}
    {remote : Str} (read : env.readOk = true) (offered : otaSameVersion remote ver = true)
    (install : Install) :
    TriesInv ver (fledTraceStep t (.check env remote false install)) ∧
      TriesSound t (.check env remote false install) := by
  obtain ⟨tracks, stored⟩ := inv.toTracks.load fits
  have loaded := loadFled_loaded t.state true
  obtain ⟨ver_eq, tries_eq⟩ := tracks.loaded loaded
  have same : otaSameVersion remote (loadFled t.state env.readOk).fled.ver = true := by
    rw [read, ver_eq]
    exact offered
  have after : fledStep t.state (.check env remote false install) =
      (fledGate t.state env remote false).2 := check_offered same install
  have cases := fledGate_offered same
  rw [read] at cases
  generalize hl : loadFled t.state true = l at *
  have aged : otaShouldUpdate remote t.state.running false = true →
      computedAge t.state (.check env remote false install) = some (fledAgeNow l env.epoch) := by
    intro newer
    simp [computedAge, newer, read, hl]
  rcases cases with ⟨_, gate⟩ | ⟨newer, ⟨_, next, kept, gate⟩ | ⟨expired, untried, gate⟩ |
    ⟨expired, tried, gate⟩⟩
  · obtain ⟨-, quiet, next⟩ := inv.of_refusal after gate (by simp) inv.toTracks rfl
    exact ⟨next, .of_quiet next quiet (by simp [verdict, gate])⟩
  · have state : Tracks ver next ∧ (storedAge next).tries = (storedAge t.state).tries := by
      rcases kept with rfl | ⟨rfl, _⟩
      · obtain ⟨saved, count⟩ := tracks.save loaded env (fledAgeNow l env.epoch) (fun _ => rfl)
        exact ⟨saved, by rw [count, tries_eq, stored]⟩
      · exact ⟨tracks, by rw [stored]⟩
    obtain ⟨-, quiet, next⟩ := inv.of_refusal after gate (by simp) state.1 state.2
    exact ⟨next, .of_quiet next quiet (by simp [verdict, gate])⟩
  · rcases spendTry_cases l env (fledAgeNow l env.epoch) (.inl rfl) with ⟨landed, spent⟩ | ⟨lost, spent⟩
    · obtain ⟨saved, count⟩ := tracks.save loaded env (fledAgeNow l env.epoch)
        (show env.writeOk = false → l.fled.saved.tries + 1 = l.fled.saved.tries by simp [landed])
      refine triesInv_of_download (gate.trans spent) after (aged newer) expired saved ?_ ?_
      · rw [if_neg (by decide)]
        exact inv.spare (by rw [← stored, ← tries_eq]; exact untried)
      · intro none
        have : l.fled.saved.tries = 0 := UInt8.toNat_inj.mp untried
        change (storedAge (saveFled l env (fledAgeNow l env.epoch)
          (l.fled.saved.tries + 1))).tries.toNat = 0 at none
        rw [count, this] at none
        exact absurd none (by decide)
    · exact inv.unsaved fits hl after (aged newer) expired lost (gate.trans spent)
  · rcases spendTry_cases l env (fledAgeNow l env.epoch) (.inr rfl) with ⟨landed, spent⟩ | ⟨lost, spent⟩
    · obtain ⟨saved, _⟩ := tracks.save loaded env 0
        (show env.writeOk = false → 0 = l.fled.saved.tries by simp [landed])
      exact triesInv_of_download (gate.trans spent) after (aged newer) expired saved (by simp)
        (fun _ => rfl)
    · exact inv.unsaved fits hl after (aged newer) expired lost (gate.trans spent)

/-- What one event does to the counts, and what it shows. -/
theorem TriesInv.step (inv : TriesInv ver t) (fits : ver.length < 32) (e : FledEvent)
    (ok : Offers t e) : TriesInv ver (fledTraceStep t e) ∧ TriesSound t e := by
  cases e with
  | wait ms =>
      have next : TriesInv ver (fledTraceStep t (.wait ms)) :=
        inv.of_quiet ⟨inv.stored, inv.fresh, inv.loaded⟩ rfl rfl rfl
      exact ⟨next, .of_quiet next rfl (by simp [verdict])⟩
  | turn env =>
      obtain ⟨tracks, tries⟩ := inv.toTracks.turn fits env ok
      have next : TriesInv ver (fledTraceStep t (.turn env)) :=
        inv.of_quiet ⟨tracks.stored, tracks.fresh, tracks.loaded⟩ tries rfl rfl
      exact ⟨next, .of_quiet next rfl (by simp [verdict])⟩
  | check env remote force install =>
      obtain ⟨read, rfl, same⟩ := ok
      rw [inv.stored, Option.getD_some] at same
      exact inv.check fits read same install
  | reset offMs rtc running =>
      have next : TriesInv ver (fledTraceStep t (.reset offMs rtc running)) :=
        inv.of_quiet ⟨inv.stored, fun _ => rfl, by simp [fledStep, Fled.fresh]⟩ rfl rfl rfl
      exact ⟨next, .of_quiet next rfl (by simp [verdict])⟩

end

end Thesada.Ota
