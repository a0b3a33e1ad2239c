import Thesada.Enroll.Client

/-!
# The stored pair and the app's answers

A loop turn changes the stored certificate pair in two ways: it stores the pair of an enrollment
reply, or it wipes on a revoked answer. The serial of a check is read when its request starts, so
the answer is about the stored certificate as long as nothing replaces that while the request
runs.
-/

namespace Thesada.Enroll

open CString Json Machine Thesada.Config Thesada.Mqtt

variable (deserializeJson : Reader) (tls : Mbedtls) (serialOf : Str → Option Str)

/-- The app answered 200 and revoked for the serial of the certificate that is stored, on a unit
whose boot found what it takes to enroll again. -/
def RevokedNow (u : EnrollUnit) : Prop :=
  u.bootFound = true ∧ ∃ job doc, u.job = some job ∧ job.isStatusCheck = true ∧ job.done = true ∧
    job.status = 200 ∧ deserializeJson job.reply = .ok doc ∧ strMember doc "status" = revoked ∧
    EnrollUnit.storedSerial serialOf u.stores.cert.nvs = some (strMember doc "serial")

/-- A cert reply that the poll step asked for has arrived. -/
def CertReplyArrived (u : EnrollUnit) : Prop :=
  u.step = .poll ∧ ∃ job, u.job = some job ∧ job.isStatusCheck = false ∧ job.done = true ∧
    job.status = 200

/-- Events of Enroll change the stored pair only on a revoked answer for it, and where a cert
reply stores the pair it brought. -/
def WipesRevoked (u : EnrollUnit) : EnrollEvent → Prop
  | .certSet .. => True
  | .certClear .. => True
  | e =>
      (enrollStep deserializeJson tls serialOf u e).stores.cert.nvs ≠ u.stores.cert.nvs →
        RevokedNow deserializeJson serialOf u ∨ CertReplyArrived u

/-- A command does not change the serial of the stored certificate while a check of it runs. -/
def KeepsChecked (u : EnrollUnit) (e : EnrollEvent) : Prop :=
  match e with
  | .certSet .. | .certClear .. =>
      u.job.any (·.isStatusCheck) = true →
        EnrollUnit.storedSerial serialOf
            (enrollStep deserializeJson tls serialOf u e).stores.cert.nvs =
          EnrollUnit.storedSerial serialOf u.stores.cert.nvs
  | _ => True

/-! ## What the steps of a turn leave alone -/

namespace EnrollUnit

variable {u : EnrollUnit}

@[simp] theorem advance_stores (status : Int) (now rnd : Nat) :
    (u.advance status now rnd).stores = u.stores := by
  simp only [advance, scheduleCheck]
  split <;> rfl

@[simp] theorem advance_job (status : Int) (now rnd : Nat) :
    (u.advance status now rnd).job = u.job := by
  simp only [advance, scheduleCheck]
  split <;> rfl

@[simp] theorem advance_bootFound (status : Int) (now rnd : Nat) :
    (u.advance status now rnd).bootFound = u.bootFound := by
  simp only [advance, scheduleCheck]
  split <;> rfl

@[simp] theorem checkUnanswered_stores (status : Int) (now rnd : Nat) :
    (u.checkUnanswered status now rnd).stores = u.stores := rfl

@[simp] theorem checkUnanswered_job (status : Int) (now rnd : Nat) :
    (u.checkUnanswered status now rnd).job = u.job := rfl

@[simp] theorem checkUnanswered_bootFound (status : Int) (now rnd : Nat) :
    (u.checkUnanswered status now rnd).bootFound = u.bootFound := rfl

@[simp] theorem onOk_job {deserializeJson : Reader} {tls : Mbedtls} (reply : Str) (io : TurnIo) :
    (u.onOk deserializeJson tls reply io).1.job = u.job := by
  cases at_step : u.step <;> simp [onOk, at_step]

@[simp] theorem onOk_bootFound {deserializeJson : Reader} {tls : Mbedtls} (reply : Str)
    (io : TurnIo) : (u.onOk deserializeJson tls reply io).1.bootFound = u.bootFound := by
  cases at_step : u.step <;> simp [onOk, at_step]

theorem finishEnroll_idle {deserializeJson : Reader} {tls : Mbedtls} {job : EnrollJob}
    {io : TurnIo} : (u.finishEnroll deserializeJson tls job io).job = u.job ∧
      (u.finishEnroll deserializeJson tls job io).bootFound = u.bootFound := by
  simp only [finishEnroll]
  split <;> simp

theorem applyAnswer_idle {doc : Json} {io : TurnIo} :
    (u.applyAnswer doc io).job = u.job ∧ (u.applyAnswer doc io).bootFound = u.bootFound := by
  simp only [applyAnswer]
  split
  · split <;> exact ⟨rfl, rfl⟩
  · exact ⟨rfl, rfl⟩

theorem finishCheck_idle {deserializeJson : Reader} {job : EnrollJob} {io : TurnIo} :
    (u.finishCheck deserializeJson job io).job = u.job ∧
      (u.finishCheck deserializeJson job io).bootFound = u.bootFound := by
  simp only [finishCheck]
  split
  · split
    · exact ⟨rfl, rfl⟩
    · exact applyAnswer_idle
  · exact ⟨rfl, rfl⟩

theorem finishJob_idle (deserializeJson : Reader) (tls : Mbedtls) (u : EnrollUnit)
    (job : EnrollJob) (io : TurnIo) :
    (u.finishJob deserializeJson tls job io).job = none ∧
      (u.finishJob deserializeJson tls job io).bootFound = u.bootFound := by
  simp only [finishJob]
  split
  · exact finishCheck_idle
  · exact finishEnroll_idle

/-- The pair changes with an enrollment answer only when the poll step got its 200. -/
theorem finishEnroll_rows {deserializeJson : Reader} {tls : Mbedtls} {job : EnrollJob}
    {io : TurnIo}
    (changed : (u.finishEnroll deserializeJson tls job io).stores.cert.nvs ≠ u.stores.cert.nvs) :
    u.step = .poll ∧ job.status = 200 := by
  simp only [finishEnroll] at changed
  split at changed
  · rename_i answered
    refine ⟨?_, answered⟩
    cases at_step : u.step with
    | poll => rfl
    | _ => simp [onOk, at_step] at changed
  · simp at changed

/-- An applied answer that changes the pair says revoked for the serial of the check. -/
theorem finishCheck_rows {deserializeJson : Reader} {job : EnrollJob} {io : TurnIo}
    (changed : (u.finishCheck deserializeJson job io).stores.cert.nvs ≠ u.stores.cert.nvs) :
    job.status = 200 ∧ ∃ doc, deserializeJson job.reply = .ok doc ∧
      strMember doc "status" = revoked ∧ strMember doc "serial" = u.check.serial := by
  simp only [finishCheck] at changed
  split at changed
  · rename_i answered
    split at changed
    · simp at changed
    · rename_i doc parsed
      refine ⟨answered, doc, parsed, ?_⟩
      simp only [applyAnswer] at changed
      split at changed
      · rename_i revokes
        simp only [enrollStatusRevoked] at revokes
        have told : enrollSerialValid u.check.serial = true ∧
            strMember doc "status" = revoked ∧ strMember doc "serial" = u.check.serial := by
          simpa using revokes
        exact told.2
      · simp [scheduleCheck] at changed
  · simp at changed

theorem reapStale_keeps (u : EnrollUnit) : ∃ stale, u.reapStale = { u with stale := stale } := by
  simp only [reapStale]
  split <;> exact ⟨_, rfl⟩

@[simp] theorem overran_stores (job : EnrollJob) (io : TurnIo) :
    (u.overran job io).stores = u.stores := by
  simp only [overran]
  split <;> simp

@[simp] theorem startJob_stores (io : TurnIo) : (u.startJob io).stores = u.stores := by
  simp only [startJob]
  repeat' split
  all_goals simp

@[simp] theorem startCheck_stores {serialOf : Str → Option Str} (io : TurnIo) :
    (u.startCheck serialOf io).stores = u.stores := by
  simp only [startCheck]
  repeat' split
  all_goals rfl

@[simp] theorem idleTurn_stores {serialOf : Str → Option Str} (io : TurnIo) :
    (u.idleTurn serialOf io).stores = u.stores := by
  simp only [idleTurn]
  repeat' split
  all_goals simp

theorem certApply_rows (c : CertUnit) (tls : Mbedtls) (has : HasIo) (io : CheckIo) :
    (c.certApply tls has io).1.nvs = c.nvs := by
  simp only [CertUnit.certApply]
  split <;> rfl

theorem boot_rows (s : EnrollStores) (io : BootIo) :
    ((poweredUp s io.load).begin io).stores.cert.nvs = s.cert.nvs := by
  simp only [begin]
  repeat' split
  all_goals rfl

end EnrollUnit

@[simp] theorem finished_isStatusCheck (job : EnrollJob) (status : Int) (reply : Str) :
    (job.finished status reply).isStatusCheck = job.isStatusCheck := by
  unfold EnrollJob.finished
  split <;> rfl

/-! ## The invariant -/

/-- A check that runs is about the stored certificate, and only a unit that can enroll again has
anything to run. -/
structure Guarded (u : EnrollUnit) : Prop where
  checked : ∀ job, u.job = some job → job.isStatusCheck = true →
    EnrollUnit.storedSerial serialOf u.stores.cert.nvs = some u.check.serial
  found : u.active = true ∨ u.check.due = true ∨ u.job.isSome = true → u.bootFound = true

namespace Guarded

variable {deserializeJson : Reader} {tls : Mbedtls} {serialOf : Str → Option Str}
variable {u : EnrollUnit}

/-- A unit that can enroll again and runs no request. -/
theorem of_idle (idle : u.job = none) (found : u.bootFound = true) : Guarded serialOf u :=
  ⟨by simp [idle], fun _ => found⟩

theorem reapStale (guarded : Guarded serialOf u) : Guarded serialOf u.reapStale := by
  simp only [EnrollUnit.reapStale]
  split
  · exact ⟨guarded.checked, guarded.found⟩
  · exact guarded

theorem overran {job : EnrollJob} {io : TurnIo} (found : u.bootFound = true) :
    Guarded serialOf (u.overran job io) := by
  simp only [EnrollUnit.overran]
  split
  · exact of_idle (by simp) (by simpa using found)
  · exact of_idle (by simp) (by simpa using found)

theorem startJob {io : TurnIo} (idle : u.job = none) (found : u.bootFound = true) :
    Guarded serialOf (u.startJob io) := by
  simp only [EnrollUnit.startJob]
  split
  · exact of_idle idle found
  · split
    · exact of_idle (by simpa using idle) (by simpa using found)
    · split
      · exact of_idle idle found
      · split
        · exact of_idle (by simpa using idle) (by simpa using found)
        · refine ⟨?_, fun _ => found⟩
          intro job started isCheck
          obtain rfl := Option.some.inj started
          simp at isCheck

/-- A check starts with the serial of the stored certificate. -/
theorem startCheck {io : TurnIo} (idle : u.job = none) (found : u.bootFound = true) :
    Guarded serialOf (u.startCheck serialOf io) := by
  simp only [EnrollUnit.startCheck]
  split
  · exact of_idle idle found
  · rename_i raw read
    split
    · exact of_idle idle found
    · rename_i serial canonical
      split
      · exact of_idle idle found
      · refine ⟨?_, fun _ => found⟩
        intro job _ _
        have stored : (u.stores.cert.nvs.cert.bind fun cert => serialOf cert.1) = some raw := by
          simp only [EnrollUnit.readSerial] at read
          split at read
          · exact read
          · simp at read
        simp only [EnrollUnit.storedSerial, stored, Option.bind_some]
        exact canonical

theorem idleTurn {io : TurnIo} (guarded : Guarded serialOf u) (idle : u.job = none) :
    Guarded serialOf (u.idleTurn serialOf io) := by
  simp only [EnrollUnit.idleTurn]
  split
  · split
    · rename_i starts
      simp only [Bool.and_eq_true] at starts
      exact startCheck idle (guarded.found (.inr (.inl starts.1.1.1.1)))
    · exact guarded
  · rename_i active
    have found : u.bootFound = true := guarded.found (.inl (by simpa using active))
    split
    · split
      · exact of_idle idle found
      · exact guarded
    · split
      · exact guarded
      · split
        · exact guarded
        · exact startJob idle found

theorem loop {io : TurnIo} (guarded : Guarded serialOf u) :
    Guarded serialOf (u.loop deserializeJson tls serialOf io) := by
  have reaped := guarded.reapStale
  simp only [EnrollUnit.loop]
  generalize u.reapStale = u at *
  split
  · exact reaped
  · cases running : u.job with
    | none => exact reaped.idleTurn running
    | some job =>
        have found : u.bootFound = true := reaped.found (.inr (.inr (by simp [running])))
        simp only
        split
        · obtain ⟨idle, same⟩ := EnrollUnit.finishJob_idle deserializeJson tls u job io
          exact of_idle idle (same.trans found)
        · split
          · exact overran found
          · exact reaped

theorem boot (s : EnrollStores) (io : BootIo) :
    Guarded serialOf ((EnrollUnit.poweredUp s io.load).begin io) := by
  refine ⟨?_, ?_⟩
  · intro job running
    have idle : ((EnrollUnit.poweredUp s io.load).begin io).job = none := by
      simp only [EnrollUnit.begin]
      repeat' split
      all_goals rfl
    simp [idle] at running
  · simp only [EnrollUnit.begin]
    split
    · simp [EnrollUnit.poweredUp]
    · split
      · split
        · rename_i haveCode
          exact fun _ => haveCode
        · simp [EnrollUnit.poweredUp]
      · split
        · simp [EnrollUnit.poweredUp]
        · rename_i haveCode
          exact fun _ => by simpa [EnrollUnit.scheduleCheck] using haveCode

/-- The events beside the loop turns: a request may end, and a command leaves the serial a
running check is about. -/
theorem step (guarded : Guarded serialOf u) (e : EnrollEvent)
    (keeps : KeepsChecked deserializeJson tls serialOf u e) :
    Guarded serialOf (enrollStep deserializeJson tls serialOf u e) := by
  cases e with
  | boot io => exact boot u.stores io
  | loop io => exact guarded.loop
  | answer status reply =>
      refine ⟨?_, fun busy => guarded.found (by simpa [enrollStep] using busy)⟩
      intro job running isCheck
      obtain ⟨asked, found, rfl⟩ := Option.map_eq_some_iff.mp running
      exact guarded.checked asked found (by simpa using isCheck)
  | lateAnswer status reply => exact ⟨guarded.checked, guarded.found⟩
  | certSet certPEM keyPEM io =>
      refine ⟨?_, guarded.found⟩
      intro job running isCheck
      have asked : u.job = some job := running
      have same := keeps (by simp [asked, isCheck])
      exact same.trans (guarded.checked job running isCheck)
  | certClear has io =>
      refine ⟨?_, guarded.found⟩
      intro job running isCheck
      have asked : u.job = some job := running
      have same := keeps (by simp [asked, isCheck])
      exact same.trans (guarded.checked job running isCheck)
  | certApply has io =>
      refine ⟨?_, guarded.found⟩
      intro job running isCheck
      simp only [enrollStep, EnrollUnit.certApply_rows]
      exact guarded.checked job running isCheck

/-- What a loop turn does to the pair. -/
theorem loop_wipes (guarded : Guarded serialOf u) (io : TurnIo)
    (changed : (u.loop deserializeJson tls serialOf io).stores.cert.nvs ≠ u.stores.cert.nvs) :
    RevokedNow deserializeJson serialOf u ∨ CertReplyArrived u := by
  obtain ⟨stale, reaped⟩ := EnrollUnit.reapStale_keeps u
  simp only [EnrollUnit.loop, reaped] at changed
  split at changed
  · exact absurd rfl changed
  · cases running : u.job with
    | none => simp [running] at changed
    | some job =>
        simp only [running] at changed
        split at changed
        · rename_i done
          simp only [EnrollUnit.finishJob] at changed
          split at changed
          · rename_i isCheck
            obtain ⟨answered, doc, parsed, status, serial⟩ := EnrollUnit.finishCheck_rows changed
            refine .inl ⟨guarded.found (.inr (.inr (by simp [running]))), job, doc, running,
              isCheck, done, answered, parsed, status, ?_⟩
            rw [serial]
            exact guarded.checked job running isCheck
          · rename_i isCheck
            obtain ⟨polls, answered⟩ := EnrollUnit.finishEnroll_rows changed
            exact .inr ⟨polls, job, running, by simpa using isCheck, done, answered⟩
        · split at changed
          · simp at changed
          · exact absurd rfl changed

end Guarded

/-! ## Every run -/

def otherCert : StoredPem :=
  ⟨PEM_CERT_BEGIN ++ "MQ==".toList ++ PEM_CERT_END, by decide +kernel⟩

/-- The serials of the two sample certificates as they are printed. -/
def sampleSerialOf (pem : Str) : Option Str :=
  if pem = sampleCert.1 then some "0a".toList
  else if pem = otherCert.1 then some "0b".toList
  else none

/-- The app's answer that the first certificate is revoked. -/
def revokedText : Str := "\x7b\"status\":\"revoked\",\"serial\":\"a\"\x7d".toList

def revokedDoc : Json :=
  .obj [("status".toList, .str revoked), ("serial".toList, .str "a".toList)]

def sampleReads : Reader := readsOnly revokedText revokedDoc

/-- A paired unit before its boot. -/
def pairedUnit : EnrollUnit :=
  .poweredUp { freshStores with cert := { freshStores.cert with
    nvs := ⟨some sampleCert, some sampleKey⟩ } } ⟨true, true, true⟩

def bootsEnrollable : BootIo where
  now := 0
  hasIdentity := true
  load := ⟨true, true, true⟩
  has := ⟨true, true, true⟩
  ackOpens := true
  ackClear := ⟨true, true, .lands⟩
  url := "https://a".toList
  claimCode := "12345678".toList

/-- A turn in which every call goes well. -/
def turnAt (now : Nat) : TurnIo where
  now
  rnd := 0
  deviceId := sampleId
  connected := true
  ntpSynced := true
  mtlsSessionUp := false
  signs := true
  cert := tmpDoesNotOpen
  ackClear := ⟨true, true, .lands⟩
  wipe := ⟨true, true, .lands, true, .lands⟩
  wipeAck := ⟨true, true, .lands⟩
  start := ⟨true, true, true⟩
  serial := ⟨true, true, true⟩

/-- A check is answered with revoked. -/
def revokedRun : List EnrollEvent :=
  [.loop (turnAt 300000), .answer 200 revokedText, .loop (turnAt 301000)]

/-- The certificate is replaced after the check went out. -/
def replacedRun : List EnrollEvent :=
  [.loop (turnAt 300000), .certSet (some otherCert.1) none ⟨true, .lands, .lands⟩,
    .answer 200 revokedText, .loop (turnAt 301000)]

end Thesada.Enroll
