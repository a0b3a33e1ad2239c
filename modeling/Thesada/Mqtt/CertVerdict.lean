import Thesada.Mqtt.ClientCert

/-!
# When a password session may wipe the certificate

The verdict is sound while it is broken only over rows that are no pair. Each step from a
sound verdict has an exact condition for keeping it sound: a load and check must not fail for
a reason of its own on a pair that is good, and a store that fails must not leave a good pair
under a standing verdict. So a run is sound throughout exactly when every step meets its
condition.
-/

namespace Thesada.Mqtt

open CString Machine Thesada.Cli

/-- Whenever the gate lets a password session through to `cert.clear`, the stored rows are not
a valid pair. -/
def Sound (tls : Mbedtls) (c : CertUnit) : Prop :=
  ∀ cmd payload, cliAuthzAllowed .password (some cmd) payload c.storedCertBroken = true →
    cliAuthzCmdEq (some cmd) (some "cert.clear".toList) = true → ¬ValidPair tls c.nvs

/-- Nothing fails that is not the pair's fault. -/
def ReadsLand (io : CheckIo) : Prop :=
  io.load.opens = true ∧ io.load.readCert = true ∧ io.load.readKey = true ∧ io.heap = true

/-- What each step needs to keep the verdict sound. -/
def Trustworthy (tls : Mbedtls) (c : CertUnit) : CertEvent → Prop
  | .connect has io =>
      ValidPair tls c.nvs → c.hasClientCert has = true → c.buffersHeld io = true → ReadsLand io
  | .certApply has io =>
      ValidPair tls c.nvs → c.hasClientCert has = true → (io.allocCert && io.allocKey) = true →
        ReadsLand io
  | .store certPEM keyPEM io =>
      c.storedCertBroken = true → (CertUnit.storeRows c.nvs certPEM keyPEM io).2 = true ∨
        ¬ValidPair tls (CertUnit.storeRows c.nvs certPEM keyPEM io).1
  | .boot | .clear _ => True

variable {tls : Mbedtls}

theorem sound_iff {c : CertUnit} :
    Sound tls c ↔ (c.storedCertBroken = true → ¬ValidPair tls c.nvs) := by
  constructor
  · intro sound broken
    have clear : cliAuthzCmdEq (some "cert.clear".toList) (some "cert.clear".toList) = true := by
      decide
    exact sound _ none ((certClear_allowed clear).trans broken) clear
  · intro sound cmd payload allowed clear
    exact sound ((certClear_allowed clear).symm.trans allowed)

/-! ## One step -/

/-- After a load and check the verdict is sound exactly when a valid pair was found valid. -/
theorem sound_judged {c c' : CertUnit} {io : CheckIo} (rows : c'.nvs = c.nvs)
    (verdict : c'.storedCertBroken = true ↔ ¬LoadsValid tls c io) :
    Sound tls c' ↔ (ValidPair tls c.nvs → ReadsLand io) := by
  rw [sound_iff, rows, verdict, loadsValid_iff]
  constructor
  · intro sound pair
    by_contra fails
    exact sound (fun found => fails found.2) pair
  · intro lands refused pair
    exact refused ⟨pair, lands pair⟩

theorem connectLoad_sound {c : CertUnit} {has : HasIo} {io : CheckIo} (sound : Sound tls c) :
    Sound tls (c.connectLoad tls has io).1 ↔ Trustworthy tls c (.connect has io) := by
  cases present : c.hasClientCert has with
  | false => simp [CertUnit.connectLoad, present, sound_iff, Trustworthy]
  | true =>
      cases held : c.buffersHeld io with
      | false =>
          have kept : Sound tls (c.connectLoad tls has io).1 := by
            rw [sound_iff] at sound ⊢
            simpa [CertUnit.connectLoad, present, held] using sound
          simp [kept, Trustworthy, held]
      | true =>
          simp only [Trustworthy, present, held, true_implies]
          apply sound_judged
          · simp only [CertUnit.connectLoad, present, held, if_true, Bool.not_true,
              Bool.false_eq_true, if_false]
            split
            · split_ifs <;> rfl
            · rfl
          · simp only [CertUnit.connectLoad, present, held, if_true, Bool.not_true,
              Bool.false_eq_true, if_false, LoadsValid]
            cases loaded : c.loadClientCert io.load with
            | none => simp
            | some pair =>
                obtain ⟨cert, key⟩ := pair
                cases checked : validateClientCertKey tls io.heap cert key <;> simp [checked]

theorem certApply_sound {c : CertUnit} {has : HasIo} {io : CheckIo} (sound : Sound tls c) :
    Sound tls (c.certApply tls has io).1 ↔ Trustworthy tls c (.certApply has io) := by
  cases present : c.hasClientCert has with
  | false => simp [CertUnit.certApply, present, sound, Trustworthy]
  | true =>
      cases held : io.allocCert && io.allocKey with
      | false =>
          have kept : Sound tls (c.certApply tls has io).1 := by
            rw [sound_iff] at sound ⊢
            simpa [CertUnit.certApply, present, CertUnit.checkStoredClientCert, held,
              storedCertBrokenAfter] using sound
          simp [kept, Trustworthy, held]
      | true =>
          simp only [Trustworthy, present, held, true_implies]
          apply sound_judged
          · simp only [CertUnit.certApply, present, if_true, CertUnit.checkStoredClientCert]
          · simp only [CertUnit.certApply, present, if_true, CertUnit.checkStoredClientCert, held,
              LoadsValid]
            cases loaded : c.loadClientCert io.load with
            | none => simp [storedCertBrokenAfter]
            | some pair =>
                obtain ⟨cert, key⟩ := pair
                cases checked : validateClientCertKey tls io.heap cert key <;>
                  simp [checked, storedCertBrokenAfter]

theorem storeClientCert_sound {c : CertUnit} {certPEM keyPEM : Option Str} {io : StoreIo} :
    Sound tls (c.storeClientCert certPEM keyPEM io).1 ↔
      Trustworthy tls c (.store certPEM keyPEM io) := by
  rw [sound_iff]
  simp only [CertUnit.storeClientCert, Trustworthy]
  cases (CertUnit.storeRows c.nvs certPEM keyPEM io).2 <;> simp

/-- Half of a clear leaves the row or takes it away. -/
theorem clearHalf_row (row : Option StoredPem) (sees : Bool) (remove : NvsWrite) :
    (CertUnit.clearHalf row sees remove).1 = row ∨
      (CertUnit.clearHalf row sees remove).1 = none := by
  simp only [CertUnit.clearHalf]
  split_ifs
  · exact Or.inl rfl
  · exact Or.inr rfl
  · exact Or.inl rfl

/-- A clear leaves a valid pair only when it leaves the rows. -/
theorem clearClientCert_sound {c : CertUnit} {io : ClearCertIo} (sound : Sound tls c) :
    Sound tls (c.clearClientCert io).1 := by
  rw [sound_iff] at sound ⊢
  intro broken pair
  cases opens : io.opens with
  | false =>
      simp only [CertUnit.clearClientCert, opens, Bool.not_false, if_true] at broken pair
      exact sound broken pair
  | true =>
      simp only [CertUnit.clearClientCert, opens, Bool.not_true, Bool.false_eq_true, if_false]
        at broken pair
      split_ifs at broken
      obtain ⟨cert, hasCert, key, hasKey, accepted⟩ := pair
      simp only [Option.mem_def] at hasCert hasKey
      rcases clearHalf_row c.nvs.cert io.seesCert io.removeCert with sameCert | noCert
      · rcases clearHalf_row c.nvs.key io.seesKey io.removeKey with sameKey | noKey
        · exact sound broken ⟨cert, sameCert ▸ hasCert, key, sameKey ▸ hasKey, accepted⟩
        · simp [noKey] at hasKey
      · simp [noCert] at hasCert

theorem certStep_sound (c : CertUnit) (e : CertEvent) (sound : Sound tls c) :
    Sound tls (certStep tls c e) ↔ Trustworthy tls c e := by
  cases e with
  | boot => simp [certStep, CertUnit.restarted, sound_iff, Trustworthy]
  | connect has io => exact connectLoad_sound sound
  | certApply has io => exact certApply_sound sound
  | store certPEM keyPEM io => exact storeClientCert_sound
  | clear io => simp [certStep, clearClientCert_sound sound, Trustworthy]

/-! ## Runs -/

/-- From a boot on, a password session is never let through to `cert.clear` over a valid pair,
in any state of the run, exactly when no load and check of a valid pair meets a failed NVS read
or allocation and no failed store leaves a valid pair under a standing verdict. -/
theorem cert_clear_sound_iff (tls : Mbedtls) (c : CertUnit) (es : List CertEvent) :
    Meets (certStep tls) (fun c e => Sound tls (certStep tls c e)) c.restarted es ↔
      Meets (certStep tls) (Trustworthy tls) c.restarted es := by
  have start : Sound tls c.restarted := sound_iff.mpr (by simp [CertUnit.restarted])
  exact meets_invariant_iff certStep_sound start es

/-! ## A good pair judged broken -/

/-- A unit with a good pair in NVS. -/
def provisioned : CertUnit where
  nvs := { cert := some sampleCert, key := some sampleKey }
  storedCertBroken := false
  clientCert := none
  clientKey := none

/-- A connect whose load buffers fit and whose parser runs out of heap. -/
def parserOutOfHeap : CertEvent :=
  .connect ⟨true, true, true⟩ ⟨true, true, ⟨true, true, true⟩, false⟩

/-- An allocation that fails inside the parser opens `cert.clear` over a good pair. -/
theorem heap_failure_opens_clear :
    let c := run (certStep sampleTls) provisioned.restarted [parserOutOfHeap]
    cliAuthzAllowed .password (some "cert.clear".toList) none c.storedCertBroken = true ∧
      ValidPair sampleTls c.nvs := by
  refine ⟨by decide, sampleCert, rfl, sampleKey, rfl, by decide⟩

end Thesada.Mqtt
