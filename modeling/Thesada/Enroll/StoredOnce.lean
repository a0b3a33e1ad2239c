import Thesada.Enroll.RequestPace
import Thesada.Mqtt.SessionAuth

/-!
# An enrolled certificate is stored once

The enrollment client beside the broker link. Both read the stored pair, and the client acks only
once the link has a session that presents it. Power can go in any turn: the writes up to there
stay, and what follows is a boot.

`certSession` is a history variable: this boot had a session up that presented the pair that was
stored.
-/

namespace Thesada.Enroll

open CString Json Machine Thesada.Config Thesada.Mqtt

/-- The stored texts, when both rows are there. -/
def storedPair (n : CertNvs) : Option (Str × Str) :=
  n.cert.bind fun cert => n.key.map fun key => (cert.1, key.1)

def bothStored (n : CertNvs) : Bool := n.cert.isSome && n.key.isSome

/-- The live session attached the pair that is stored. -/
def presents (c : Link) : Bool :=
  c.session.any fun s => s.attached.isSome && s.attached = storedPair c.certs.nvs

/-- `MQTTClient::mtlsSessionUp`. -/
def mtlsSessionUp (c : Link) : Bool := c.session.isSome && c.mtlsActive

structure Device where
  unit : EnrollUnit
  link : Link
  certSession : Bool

inductive DeviceEvent where
  | boot (io : BootIo) (mqtt : BeginIo)
  | turn (io : TurnIo)
  /-- A turn in which the power goes. `io` refuses the writes after that point. -/
  | cut (io : TurnIo)
  | answer (status : Int) (reply : Str)
  | lateAnswer (status : Int) (reply : Str)
  | link (e : LinkEvent)

/-- What the link does beside boots and the commands that change the rows. -/
def runs : LinkEvent → Bool
  | .boot _ | .storeCert .. | .applyCert .. | .clearCert _ => false
  | _ => true

namespace Device

variable (deserializeJson : Reader) (tls : Mbedtls) (serialOf : Str → Option Str)

def rows (s : Device) : CertNvs := s.unit.stores.cert.nvs

/-- The client and the link see one certificate unit. -/
def withLink (s : Device) (link : Link) : Device where
  unit := { s.unit with stores := { s.unit.stores with cert := link.certs } }
  link
  certSession := s.certSession || presents link

def withUnit (s : Device) (unit : EnrollUnit) : Device :=
  { s with unit, link := { s.link with certs := unit.stores.cert } }

def loop (s : Device) (io : TurnIo) : EnrollUnit :=
  s.unit.loop deserializeJson tls serialOf { io with mtlsSessionUp := mtlsSessionUp s.link }

/-- RAM is lost. -/
def powerOff (s : Device) : Device where
  unit := .poweredUp s.unit.stores ⟨false, false, false⟩
  link := s.link.restarted
  certSession := false

def boot (s : Device) (io : BootIo) (mqtt : BeginIo) : Device :=
  let unit := (EnrollUnit.poweredUp s.unit.stores io.load).begin io
  let off := s.powerOff.withUnit unit
  off.withLink (linkStep tls off.link (.boot mqtt))

end Device

def deviceStep (deserializeJson : Reader) (tls : Mbedtls) (serialOf : Str → Option Str)
    (s : Device) : DeviceEvent → Device
  | .boot io mqtt => s.boot tls io mqtt
  | .turn io => s.withUnit (s.loop deserializeJson tls serialOf io)
  | .cut io => (s.withUnit (s.loop deserializeJson tls serialOf io)).powerOff
  | .answer status reply =>
      { s with unit := { s.unit with job := s.unit.job.map (·.finished status reply) } }
  | .lateAnswer status reply =>
      { s with unit := { s.unit with stale := s.unit.stale.map (·.finished status reply) } }
  | .link e => if runs e then s.withLink (linkStep tls s.link e) else s

/-! ## What is promised -/

section

variable (deserializeJson : Reader) (tls : Mbedtls) (serialOf : Str → Option Str)

/-- The step whose request an event sends. -/
def sends (s : Device) (e : DeviceEvent) : Option EnrollStep :=
  s.unit.requested (deviceStep deserializeJson tls serialOf s e).unit

/-- No cert request while both rows are there. -/
def NeverRefetches (s : Device) (e : DeviceEvent) : Prop :=
  sends deserializeJson tls serialOf s e = some .poll → bothStored s.rows = false

/-- An ack goes out only in a boot with a session that presented the stored pair. -/
def AcksPresented (s : Device) (e : DeviceEvent) : Prop :=
  sends deserializeJson tls serialOf s e = some .ack → s.certSession = true

/-- The reply names the unit, its broker fields are usable and its pair validates. -/
structure Usable (ourId : Str) (r : CertReply) : Prop where
  id : r.id = ourId
  port : 1 ≤ r.port ∧ r.port ≤ 65535
  host : enrollHostUsable r.host = true
  topicPrefix : enrollPrefixUsable r.topicPrefix TOPIC_PREFIX_CAP = true
  pair : tls.accepts r.cert r.key = true

/-- Nothing is stored: settings and flag stay, and rows only go. -/
structure GainsNothing (before after : EnrollStores) : Prop where
  config : after.config = before.config
  ack : after.ackPending = true → before.ackPending = true
  cert : after.cert.nvs.cert = before.cert.nvs.cert ∨ after.cert.nvs.cert = none
  key : after.cert.nvs.key = before.cert.nvs.key ∨ after.cert.nvs.key = none

/-- What is new in the rows are the halves of the reply. -/
structure HalvesOf (r : CertReply) (before after : CertNvs) : Prop where
  cert : after.cert = before.cert ∨ after.cert.map (·.1) = some r.cert
  key : after.key = before.key ∨ after.key.map (·.1) = some r.key

/-- The stores after a turn: nothing was stored, or the usable reply that the poll step got. -/
def StoresReply (u : EnrollUnit) (io : TurnIo) (after : EnrollStores) : Prop :=
  GainsNothing u.stores after ∨
    ∃ job doc, u.step = .poll ∧ u.job = some job ∧ job.isStatusCheck = false ∧ job.done = true ∧
      job.status = 200 ∧ deserializeJson job.reply = .ok doc ∧
      Usable tls io.deviceId (readReply doc) ∧
      HalvesOf (readReply doc) u.stores.cert.nvs after.cert.nvs

/-- A cert reply is stored only when it is usable, and only a turn stores one. -/
def StoresUsable (s : Device) (e : DeviceEvent) : Prop :=
  match e with
  | .turn io | .cut io =>
      StoresReply deserializeJson tls s.unit io (s.loop deserializeJson tls serialOf io).stores
  | _ => (deviceStep deserializeJson tls serialOf s e).rows = s.rows

/-! ## When it holds -/

/-- A store that fails with both rows there after it. -/
def leavesBoth (n : CertNvs) (io : StoreIo) : Bool :=
  io.opens && !(io.putCert.ok && io.putKey.ok) && (io.putCert.changes || n.cert.isSome) &&
    (io.putCert.ok && io.putKey.changes || n.key.isSome)

/-- A reply that gets as far as the certificate store. -/
def reachesStore (ourId : Str) (s : EnrollStores) (reply : Str) (io : CertIo) : Bool :=
  match deserializeJson reply with
  | .error _ => false
  | .ok doc =>
      replyStorable tls ourId io.heap s.config.held.isSome (readReply doc) && io.setAck.sets &&
        io.save.lands

/-- The turn takes a cert reply whose store fails and leaves both rows. -/
def failsHalfway (u : EnrollUnit) (io : TurnIo) : Bool :=
  u.step = .poll &&
    u.job.any (fun job => !job.isStatusCheck && job.done && job.status = 200 &&
      reachesStore deserializeJson tls io.deviceId u.stores job.reply io.cert) &&
    leavesBoth u.stores.cert.nvs io.cert.store

/-- A boot sees the rows that are there, and no failing store leaves both. -/
def SeesItsRows (s : Device) (e : DeviceEvent) : Prop :=
  match e with
  | .boot io _ => bothStored s.rows = true → s.unit.stores.cert.hasClientCert io.has = true
  | .turn io => failsHalfway deserializeJson tls s.unit io = false
  | _ => True

instance (s : Device) (e : DeviceEvent) :
    Decidable (NeverRefetches deserializeJson tls serialOf s e) :=
  inferInstanceAs (Decidable (_ → _))

instance (s : Device) (e : DeviceEvent) : Decidable (SeesItsRows deserializeJson tls s e) :=
  match e with
  | .boot _ _ => inferInstanceAs (Decidable (_ → _))
  | .turn io => inferInstanceAs (Decidable (failsHalfway deserializeJson tls s.unit io = false))
  | .cut _ | .answer _ _ | .lateAnswer _ _ | .link _ => isTrue trivial

end

/-! ## A reply and the stores -/

section

variable {deserializeJson : Reader} {tls : Mbedtls} {serialOf : Str → Option Str}

theorem GainsNothing.refl (s : EnrollStores) : GainsNothing s s :=
  ⟨rfl, id, .inl rfl, .inl rfl⟩

theorem replyStorable_usable {ourId : Str} {heap held : Bool} {r : CertReply}
    (storable : replyStorable tls ourId heap held r = true) : Usable tls ourId r := by
  simp only [replyStorable] at storable
  split at storable
  · cases storable
  rename_i usable
  split at storable
  · cases storable
  rename_i valid
  simp only [Bool.not_eq_true', Bool.not_eq_false, enrollReplyUsable] at usable
  split at usable
  · cases usable
  rename_i ours
  split at usable
  · cases usable
  rename_i port
  obtain ⟨host, topicPrefix⟩ := Bool.and_eq_true_iff.mp usable
  have pair : validateClientCertKey tls heap r.cert r.key = true := by
    simp only [not_or, Bool.not_eq_true', Bool.not_eq_false] at valid
    exact valid.2.2
  exact ⟨(not_not.mp ours).symm, by omega, host, topicPrefix, (validateClientCertKey_iff.mp pair).2⟩

/-- A failing store leaves both rows exactly in the cases of `leavesBoth`. -/
theorem storeRows_both {n : CertNvs} {cert key : Str} (someCert : cert ≠ []) (someKey : key ≠ [])
    (shortCert : cert.length < CERT_MAX_LEN) (shortKey : key.length < CERT_MAX_LEN)
    (io : StoreIo) (before : bothStored n = false)
    (fails : (CertUnit.storeRows n (some cert) (some key) io).2 = false) :
    bothStored (CertUnit.storeRows n (some cert) (some key) io).1 = leavesBoth n io := by
  rw [storeRows_pair someCert someKey shortCert shortKey] at fails ⊢
  cases opens : io.opens with
  | false => simpa [leavesBoth, opens] using before
  | true =>
      simp only [opens, if_true] at fails ⊢
      simp only [bothStored, leavesBoth, opens, fails, Bool.not_false, Bool.true_and]
      cases io.putCert.changes <;> cases io.putCert.ok && io.putKey.changes <;> simp

/-- The rows a storable reply leaves, and whether it was taken. -/
theorem onCert_storable {ourId : Str} {s : EnrollStores} {reply : Str} {io : CertIo} {doc : Json}
    (parsed : deserializeJson reply = .ok doc)
    (storable : replyStorable tls ourId io.heap s.config.held.isSome (readReply doc) = true) :
    (onCert deserializeJson tls ourId s reply io).1.cert.nvs =
        (if io.setAck.sets && io.save.lands then
          (CertUnit.storeRows s.cert.nvs (some (readReply doc).cert) (some (readReply doc).key)
            io.store).1 else s.cert.nvs) ∧
      (onCert deserializeJson tls ourId s reply io).2 =
        (io.setAck.sets && (io.save.lands && storeLands io.store)) := by
  obtain ⟨free, someCert, someKey, shortCert, shortKey⟩ := replyStorable_pair storable
  have notHeld : s.config.held = none := by simpa using free
  have stored (ack : Bool) := storeReply_eq (s := { s with ackPending := ack }) notHeld someCert
    someKey shortCert shortKey io
  simp only [onCert, parsed, storable, ackPendingSet_true, Bool.not_true, Bool.false_eq_true,
    if_false]
  cases sets : io.setAck.sets with
  | false => simp
  | true =>
      simp only [Bool.not_true, Bool.false_eq_true, if_false, stored, Bool.true_and]
      cases io.save.lands <;> cases storeLands io.store <;> simp [CertUnit.storeClientCert]

/-- A reply that is stored in any part is usable. -/
theorem onCert_gains (deserializeJson : Reader) (tls : Mbedtls) (ourId : Str) (s : EnrollStores)
    (reply : Str) (io : CertIo) :
    GainsNothing s (onCert deserializeJson tls ourId s reply io).1 ∨
      ∃ doc, deserializeJson reply = .ok doc ∧ Usable tls ourId (readReply doc) ∧
        HalvesOf (readReply doc) s.cert.nvs
          (onCert deserializeJson tls ourId s reply io).1.cert.nvs := by
  cases parsed : deserializeJson reply with
  | error left => exact .inl (by simpa [onCert, parsed] using GainsNothing.refl s)
  | ok doc =>
      cases storable : replyStorable tls ourId io.heap s.config.held.isSome (readReply doc) with
      | false => exact .inl (by simpa [onCert, parsed, storable] using GainsNothing.refl s)
      | true =>
          refine .inr ⟨doc, rfl, replyStorable_usable storable, ?_⟩
          obtain ⟨-, someCert, someKey, shortCert, shortKey⟩ := replyStorable_pair storable
          rw [(onCert_storable parsed storable).1,
            storeRows_pair someCert someKey shortCert shortKey]
          constructor
          · split_ifs <;> simp
          · split_ifs <;> simp

/-- After a reply that is not taken both rows are there only as `leavesBoth` says. -/
theorem onCert_refused {ourId : Str} {s : EnrollStores} {reply : Str} {io : CertIo}
    (before : bothStored s.cert.nvs = false)
    (refused : (onCert deserializeJson tls ourId s reply io).2 = false)
    (clean : (reachesStore deserializeJson tls ourId s reply io &&
      leavesBoth s.cert.nvs io.store) = false) :
    bothStored (onCert deserializeJson tls ourId s reply io).1.cert.nvs = false := by
  cases parsed : deserializeJson reply with
  | error left => simpa [onCert, parsed] using before
  | ok doc =>
      cases storable : replyStorable tls ourId io.heap s.config.held.isSome (readReply doc) with
      | false => simpa [onCert, parsed, storable] using before
      | true =>
          obtain ⟨-, someCert, someKey, shortCert, shortKey⟩ := replyStorable_pair storable
          obtain ⟨rows, taken⟩ := onCert_storable parsed storable
          rw [taken] at refused
          rw [rows]
          cases reaches : io.setAck.sets && io.save.lands with
          | false => exact before
          | true =>
              obtain ⟨sets, lands⟩ := Bool.and_eq_true_iff.mp reaches
              have fails : (CertUnit.storeRows s.cert.nvs (some (readReply doc).cert)
                  (some (readReply doc).key) io.store).2 = false := by
                rw [storeRows_pair someCert someKey shortCert shortKey]
                simp only [sets, lands, storeLands, Bool.true_and] at refused
                cases opens : io.store.opens <;> simp_all
              rw [if_pos rfl,
                storeRows_both someCert someKey shortCert shortKey io.store before fails]
              simpa [reachesStore, parsed, storable, sets, lands] using clean

/-! ## A turn and the stores -/

theorem clearHalf_goes (row : Option StoredPem) (sees : Bool) (remove : NvsWrite) :
    (CertUnit.clearHalf row sees remove).1 = row ∨
      (CertUnit.clearHalf row sees remove).1 = none := by
  simp only [CertUnit.clearHalf]
  split_ifs <;> simp

theorem clearClientCert_goes (c : CertUnit) (io : ClearCertIo) :
    ((c.clearClientCert io).1.nvs.cert = c.nvs.cert ∨ (c.clearClientCert io).1.nvs.cert = none) ∧
      ((c.clearClientCert io).1.nvs.key = c.nvs.key ∨ (c.clearClientCert io).1.nvs.key = none) := by
  simp only [CertUnit.clearClientCert]
  split
  · exact ⟨.inl rfl, .inl rfl⟩
  · exact ⟨clearHalf_goes _ _ _, clearHalf_goes _ _ _⟩

namespace EnrollUnit

variable {u : EnrollUnit} {io : TurnIo}

/-- What a turn does to the stores. A reply that was taken schedules the reboot. -/
inductive TurnStores (deserializeJson : Reader) (tls : Mbedtls) (u : EnrollUnit) (io : TurnIo)
    (u' : EnrollUnit) : Prop where
  | gains (nothing : GainsNothing u.stores u'.stores)
  | reply (job : EnrollJob) (poll : u.step = .poll) (running : u.job = some job)
      (kind : job.isStatusCheck = false) (done : job.done = true) (answered : job.status = 200)
      (stores : u'.stores =
        (onCert deserializeJson tls io.deviceId u.stores job.reply io.cert).1)
      (taken : (onCert deserializeJson tls io.deviceId u.stores job.reply io.cert).2 = true →
        u'.certRebootPending = true)

theorem gains_of_eq {u' : EnrollUnit} (same : u'.stores = u.stores) :
    TurnStores deserializeJson tls u io u' :=
  .gains (same ▸ .refl _)

theorem finishCheck_gains (job : EnrollJob) :
    GainsNothing u.stores (u.finishCheck deserializeJson job io).stores := by
  simp only [finishCheck]
  split
  · split
    · exact .refl _
    · simp only [applyAnswer]
      split
      · obtain ⟨cert, key⟩ := clearClientCert_goes u.stores.cert io.wipe
        split
        · refine ⟨rfl, fun ack => ?_, cert, key⟩
          simp only [ackPendingSet_false] at ack
          exact (Bool.and_eq_true_iff.mp ack).1
        · exact ⟨rfl, id, cert, key⟩
      · exact .refl _
  · exact .refl _

theorem finishEnroll_stores (deserializeJson : Reader) (tls : Mbedtls) (io : TurnIo)
    {job : EnrollJob} (kind : job.isStatusCheck = false) (done : job.done = true)
    (running : u.job = some job) :
    TurnStores deserializeJson tls u io
      ({ u with job := none }.finishEnroll deserializeJson tls job io) := by
  simp only [finishEnroll]
  split
  · rename_i answered
    cases at_step : u.step with
    | poll =>
        exact .reply job at_step running kind done answered (by simp [onOk])
          fun taken => by simp [onOk, taken]
    | ack =>
        refine .gains ⟨by simp [onOk], fun ack => ?_, .inl (by simp [onOk]), .inl (by simp [onOk])⟩
        simp only [onOk, advance_stores, ackPendingSet_false] at ack
        exact (Bool.and_eq_true_iff.mp ack).1
    | _ => exact gains_of_eq (by simp [onOk])
  · exact gains_of_eq (by simp)

theorem loop_stores (deserializeJson : Reader) (tls : Mbedtls) (serialOf : Str → Option Str)
    (u : EnrollUnit) (io : TurnIo) :
    TurnStores deserializeJson tls u io (u.loop deserializeJson tls serialOf io) := by
  obtain ⟨stale, reaped⟩ := reapStale_keeps u
  simp only [loop, reaped]
  split
  · exact gains_of_eq rfl
  cases running : u.job with
  | none => exact gains_of_eq (by simp)
  | some job =>
      simp only
      split
      · rename_i done
        simp only [finishJob]
        split
        · exact .gains (finishCheck_gains (u := { u with stale, job := none }) job)
        · rename_i enroll
          have kind : job.isStatusCheck = false := by simpa using enroll
          cases finishEnroll_stores (u := { u with stale, job := some job }) deserializeJson tls io
            kind done rfl with
          | gains nothing => exact .gains nothing
          | reply job' poll same kind' done' answered stores taken =>
              obtain rfl := Option.some.inj same
              exact .reply job poll running kind' done' answered stores taken
      · split
        · exact gains_of_eq (by simp)
        · exact gains_of_eq rfl

/-- The steps on the way to a certificate. -/
def fetches : EnrollStep → Bool
  | .announce | .verify | .poll => true
  | _ => false

/-- The client may still ask for a certificate. -/
structure Fetching (u : EnrollUnit) : Prop where
  active : u.active = true
  free : u.certRebootPending = false
  step : fetches u.step = true

theorem enrollOnResponse_steps (step : EnrollStep) (status : Int) (failures rnd : Nat) :
    (fetches (enrollOnResponse step status failures rnd).next = true → fetches step = true) ∧
      ((enrollOnResponse step status failures rnd).next = .ack → step = .ack) := by
  cases step <;> simp only [enrollOnResponse] <;> repeat' split
  all_goals simp [fetches]

theorem Advanced.steps {u u' : EnrollUnit} {status : Int} {now : Nat}
    (next : Advanced u status now u') :
    (fetches u'.step = true → fetches u.step = true) ∧ (u'.step = .ack → u.step = .ack) := by
  obtain ⟨failures, rnd, step, -⟩ := next.follows
  rw [step]
  exact enrollOnResponse_steps u.step status failures rnd

theorem Turn.fetching {u' : EnrollUnit} (turn : Turn u io u') (after : Fetching u') :
    Fetching u := by
  have kept (pending : u.certRebootPending = true → u'.certRebootPending = true) :
      u.certRebootPending = false := by
    by_contra open_
    exact absurd (pending (by simpa using open_)) (by simp [after.free])
  cases turn with
  | keeps same => exact ⟨same.active ▸ after.active, kept same.pending, same.step ▸ after.step⟩
  | answered _ _ _ _ next | unsent _ _ _ next =>
      exact ⟨(next.active after.active).1, kept next.pending, next.steps.1 after.step⟩
  | sent _ _ _ free on step => exact ⟨on, free, step ▸ after.step⟩
  | stops inactive => exact absurd after.active (by simp [inactive])
  | sessionUp _ _ step => exact absurd after.step (by simp [step, fetches])

theorem Turn.acks {u' : EnrollUnit} (turn : Turn u io u') (after : u'.step = .ack) :
    u.step = .ack ∨ io.mtlsSessionUp = true := by
  cases turn with
  | keeps same => exact .inl (same.step.symm.trans after)
  | answered _ _ _ _ next | unsent _ _ _ next => exact .inl (next.steps.2 after)
  | sent _ _ _ _ _ step => exact .inl (step.symm.trans after)
  | stops _ step => exact .inl (step.symm.trans after)
  | sessionUp _ up => exact .inr up

/-- A request goes out in the step it is for, while the client is active. -/
theorem Turn.requests {u' : EnrollUnit} {step : EnrollStep} (turn : Turn u io u')
    (sent : u.requested u' = some step) :
    u.step = step ∧ u.active = true ∧ u.certRebootPending = false := by
  cases turn with
  | keeps same => simp [requested_of_same same.requesting] at sent
  | answered _ _ running => simp [requested_of_running running] at sent
  | unsent _ _ _ next => simp [requested_of_idle next.idle] at sent
  | stops _ _ same | sessionUp _ _ _ _ _ _ same => simp [requested_of_same same] at sent
  | sent idle _ _ free on _ requests =>
      simp only [requested, idle, requests] at sent
      exact ⟨Option.some.inj sent, on, free⟩

end EnrollUnit

/-! ## The link and the stored pair -/

theorem connectLoad_rows (tls : Mbedtls) (c : CertUnit) (has : HasIo) (io : CheckIo) :
    (c.connectLoad tls has io).1.nvs = c.nvs := by
  simp only [CertUnit.connectLoad]
  repeat' split
  all_goals rfl

theorem connect_rows (tls : Mbedtls) (c : Link) (io : DialIo) :
    (c.connect tls io).certs.nvs = c.certs.nvs := by
  simp only [Link.connect]
  split
  · rfl
  · exact connectLoad_rows tls c.certs io.has io.check

/-- The rows stay, and a session that comes up attaches the stored pair if it attaches any. -/
structure Follows (c c' : Link) : Prop where
  rows : c'.certs.nvs = c.certs.nvs
  sessions : ∀ sess, c'.session = some sess → sess.attached.isSome = true →
    c.session = some sess ∨ sess.attached = storedPair c.certs.nvs

theorem Follows.trans {c c' c'' : Link} (first : Follows c c') (second : Follows c' c'') :
    Follows c c'' := by
  refine ⟨second.rows.trans first.rows, fun sess up attached => ?_⟩
  obtain before | fresh := second.sessions sess up attached
  · exact first.sessions sess before attached
  · exact .inr (first.rows ▸ fresh)

theorem Follows.keeps {c c' : Link} (rows : c'.certs.nvs = c.certs.nvs)
    (session : c'.session = c.session) : Follows c c' :=
  ⟨rows, fun _ up _ => .inl (session ▸ up)⟩

theorem Follows.drops {c c' : Link} (rows : c'.certs.nvs = c.certs.nvs)
    (session : c'.session = none) : Follows c c' :=
  ⟨rows, fun _ up _ => by simp [session] at up⟩

theorem connect_follows (tls : Mbedtls) (c : Link) (io : DialIo) :
    Follows c (c.connect tls io) := by
  refine ⟨connect_rows tls c io, fun sess up attached => ?_⟩
  simp only [Link.connect] at up
  split at up
  · exact .inl up
  · simp only [Link.dial] at up
    split at up
    · obtain rfl := Option.some.inj up
      obtain ⟨-, genuine⟩ := dialSession_genuine tls c.forgetMode io
      obtain ⟨-, cert, key, loaded, -, same⟩ := genuine attached
      refine .inr (same.trans ?_)
      simp only [Link.dialSession, Link.loadedAt] at loaded
      split at loaded
      · obtain ⟨rowCert, rowKey, hasCert, hasKey, pair⟩ := loadClientCert_eq_some loaded
        obtain ⟨rfl, rfl⟩ := Prod.mk.inj pair
        have rows : c.certs.nvs.cert = some rowCert ∧ c.certs.nvs.key = some rowKey :=
          ⟨hasCert, hasKey⟩
        simp [storedPair, rows]
      · cases loaded
    · cases up

theorem loop_follows (tls : Mbedtls) (c : Link) (io : LoopIo) : Follows c (c.loop tls io) := by
  have reinit : Follows c (c.serviceReinit tls io.reinit) := by
    simp only [Link.serviceReinit]
    split
    · have taken : Follows c c.takeReinit := .keeps rfl rfl
      exact taken.trans (connect_follows tls c.takeReinit io.reinit)
    · exact .keeps rfl rfl
  have switched (c : Link) : Follows c c.switchTransport := by
    simp only [Link.switchTransport]
    split
    · exact .drops rfl rfl
    · exact .keeps rfl rfl
  have pumped (c : Link) : Follows c (c.pumpOrRetry tls io) := by
    simp only [Link.pumpOrRetry]
    split
    · split
      · exact .drops rfl rfl
      · exact .keeps rfl rfl
    split
    · exact .keeps rfl rfl
    split
    · exact connect_follows tls c io.retry
    · exact .keeps rfl rfl
  exact (reinit.trans (switched _)).trans (pumped _)

theorem linkStep_follows (tls : Mbedtls) (c : Link) {e : LinkEvent} (goes : runs e = true) :
    Follows c (linkStep tls c e) := by
  cases e with
  | boot _ | storeCert _ _ _ | applyCert _ _ | clearCert _ => cases goes
  | loop io => exact loop_follows tls c io
  | message topic payload =>
      simp only [linkStep, Link.onMessage]
      split
      · exact .keeps rfl rfl
      · simp only [Link.cliInboundHandler]
        split
        · exact .keeps rfl rfl
        · split <;> exact .keeps rfl rfl
  | drain =>
      simp only [linkStep, Link.drain]
      split <;> exact .keeps rfl rfl
  | otherWork =>
      simp only [linkStep]
      split <;> exact .keeps rfl rfl
  | requestReinit | sessionEnds => exact .drops rfl rfl
  | setWifi _ | setCellular _ _ | writeConfig _ _ _ => exact .keeps rfl rfl

theorem boot_follows (tls : Mbedtls) (c : Link) (io : BeginIo) :
    Follows c.restarted (linkStep tls c (.boot io)) := by
  simp only [linkStep, Link.begin]
  split
  · exact .keeps rfl rfl
  split
  · exact .keeps rfl rfl
  · refine Follows.trans ?_ (connect_follows tls _ io.dial)
    exact .keeps rfl rfl

/-! ## The invariant -/

/-- Client and link agree on the rows, and an ack is due only where a session presented them. -/
structure DeviceInv (tls : Mbedtls) (s : Device) : Prop where
  link : LinkInv tls s.link
  synced : s.link.certs.nvs = s.rows
  presented : ∀ sess, s.link.session = some sess → sess.attached.isSome = true →
    s.certSession = true
  acks : s.unit.step = .ack → s.certSession = true

/-- A client that may still ask for a certificate has none. -/
def Unfetched (s : Device) : Prop :=
  EnrollUnit.Fetching s.unit → bothStored s.rows = false

theorem linkInv_withCerts {c : Link} (inv : LinkInv tls c) (certs : CertUnit) :
    LinkInv tls { c with certs } :=
  ⟨inv.live, inv.carried, inv.refused, inv.commands.queued, inv.commands.inbound,
    inv.commands.judged⟩

theorem presents_fresh {c : Link} {sess : Session} (up : c.session = some sess)
    (attached : sess.attached.isSome = true) (fresh : sess.attached = storedPair c.certs.nvs) :
    presents c = true := by
  rw [presents, up, Option.any_some, attached, fresh, decide_eq_true rfl]
  rfl

theorem DeviceInv.sessionUp {s : Device} (inv : DeviceInv tls s)
    (up : mtlsSessionUp s.link = true) : s.certSession = true := by
  obtain ⟨live, active⟩ := Bool.and_eq_true_iff.mp up
  obtain ⟨sess, session⟩ := Option.isSome_iff_exists.mp live
  obtain ⟨flag, -⟩ := inv.link.live sess session
  exact inv.presented sess session (flag ▸ active)

/-- A turn, before the power may go. -/
theorem DeviceInv.turn {s : Device} (inv : DeviceInv tls s) (io : TurnIo) :
    DeviceInv tls (s.withUnit (s.loop deserializeJson tls serialOf io)) := by
  refine ⟨linkInv_withCerts inv.link _, rfl, inv.presented, fun ack => ?_⟩
  obtain before | up := (EnrollUnit.loop_turn deserializeJson tls serialOf s.unit
    { io with mtlsSessionUp := mtlsSessionUp s.link }).acks ack
  · exact inv.acks before
  · exact inv.sessionUp up

theorem DeviceInv.powerOff {s : Device} (inv : DeviceInv tls s) : DeviceInv tls s.powerOff where
  link := LinkInv.withoutSession ⟨by simp [Device.powerOff, Link.restarted],
    by simp [Device.powerOff, Link.restarted], by simp [Device.powerOff, Link.restarted]⟩ rfl
  synced := inv.synced
  presented sess up := by simp [Device.powerOff, Link.restarted] at up
  acks ack := by cases ack

/-- The link moves on beside the client. -/
theorem DeviceInv.linked {s : Device} (inv : DeviceInv tls s) {link : Link}
    (moved : LinkInv tls link) (follows : Follows s.link link) :
    DeviceInv tls (s.withLink link) := by
  refine ⟨moved, rfl, fun sess up attached => ?_, fun ack => ?_⟩
  · apply (Bool.or_eq_true _ _).mpr
    obtain before | fresh := follows.sessions sess up attached
    · exact .inl (inv.presented sess before attached)
    · exact .inr (presents_fresh up attached (follows.rows ▸ fresh))
  · exact (Bool.or_eq_true _ _).mpr (.inl (inv.acks ack))

/-- A boot never starts at the ack, and at announce only without a pair it could see. -/
theorem begin_step (s : EnrollStores) (io : BootIo) :
    ((EnrollUnit.poweredUp s io.load).begin io).step ≠ .ack ∧
      (EnrollUnit.fetches ((EnrollUnit.poweredUp s io.load).begin io).step = true →
        s.cert.hasClientCert io.has = false) := by
  have start (hasCert ackPending : Bool) : enrollStartStep hasCert ackPending ≠ .ack ∧
      (EnrollUnit.fetches (enrollStartStep hasCert ackPending) = true → hasCert = false) := by
    cases hasCert <;> cases ackPending <;> decide
  have seen : (EnrollUnit.poweredUp s io.load).stores.cert.hasClientCert io.has =
      s.cert.hasClientCert io.has := rfl
  rw [← seen]
  simp only [EnrollUnit.begin]
  split
  · constructor
    · intro ack
      cases ack
    · intro fetching
      cases fetching
  · repeat' split
    all_goals exact start _ _

theorem DeviceInv.boot (tls : Mbedtls) (s : Device) (io : BootIo) (mqtt : BeginIo) :
    DeviceInv tls (s.boot tls io mqtt) := by
  refine ⟨boot_inv _ mqtt, rfl, fun sess up attached => ?_, fun ack => ?_⟩
  · have follows := boot_follows tls
      (s.powerOff.withUnit ((EnrollUnit.poweredUp s.unit.stores io.load).begin io)).link mqtt
    obtain before | fresh := follows.sessions sess up attached
    · cases before
    · exact presents_fresh up attached (follows.rows ▸ fresh)
  · exact absurd ack (begin_step s.unit.stores io).1

theorem DeviceInv.step {s : Device} (inv : DeviceInv tls s) (e : DeviceEvent) :
    DeviceInv tls (deviceStep deserializeJson tls serialOf s e) := by
  cases e with
  | boot io mqtt => exact .boot tls s io mqtt
  | turn io => exact inv.turn io
  | cut io => exact (inv.turn io).powerOff
  | answer _ _ | lateAnswer _ _ => exact ⟨inv.link, inv.synced, inv.presented, inv.acks⟩
  | link e =>
      simp only [deviceStep]
      split
      · rename_i goes
        exact inv.linked (linkStep_inv s.link e inv.link) (linkStep_follows tls s.link goes)
      · exact inv

theorem GainsNothing.both {before after : EnrollStores} (gains : GainsNothing before after)
    (half : bothStored before.cert.nvs = false) : bothStored after.cert.nvs = false := by
  obtain cert | cert := gains.cert <;> obtain key | key := gains.key <;>
    simp_all [bothStored]

/-- The reply a turn takes goes to the stores as `failsHalfway` sees it. -/
theorem failsHalfway_reply {u : EnrollUnit} {io : TurnIo} {job : EnrollJob}
    (clean : failsHalfway deserializeJson tls u io = false) (poll : u.step = .poll)
    (running : u.job = some job) (kind : job.isStatusCheck = false) (done : job.done = true)
    (answered : job.status = 200) :
    (reachesStore deserializeJson tls io.deviceId u.stores job.reply io.cert &&
      leavesBoth u.stores.cert.nvs io.cert.store) = false := by
  simpa [failsHalfway, poll, running, kind, done, answered] using clean

theorem Unfetched.turn {s : Device} (unfetched : Unfetched s) {io : TurnIo}
    (clean : failsHalfway deserializeJson tls s.unit io = false) :
    Unfetched (s.withUnit (s.loop deserializeJson tls serialOf io)) := by
  intro fetching
  have before : bothStored s.rows = false :=
    unfetched ((EnrollUnit.loop_turn deserializeJson tls serialOf s.unit
      { io with mtlsSessionUp := mtlsSessionUp s.link }).fetching fetching)
  have turn := EnrollUnit.loop_stores deserializeJson tls serialOf s.unit
    { io with mtlsSessionUp := mtlsSessionUp s.link }
  cases turn with
  | gains nothing => exact nothing.both before
  | reply job poll running kind done answered stores taken =>
      have refused : (onCert deserializeJson tls io.deviceId s.unit.stores job.reply
          io.cert).2 = false := by
        by_contra accepted
        exact Bool.noConfusion ((taken (by simpa using accepted)).symm.trans fetching.free)
      have rows : (s.withUnit (s.loop deserializeJson tls serialOf io)).rows =
          (onCert deserializeJson tls io.deviceId s.unit.stores job.reply io.cert).1.cert.nvs :=
        congrArg (·.cert.nvs) stores
      rw [rows]
      exact onCert_refused before refused
        (failsHalfway_reply clean poll running kind done answered)

theorem boot_rows (tls : Mbedtls) (s : Device) (io : BootIo) (mqtt : BeginIo) :
    (s.boot tls io mqtt).rows = s.rows :=
  (boot_follows tls _ mqtt).rows.trans (EnrollUnit.boot_rows s.unit.stores io)

theorem link_rows {s : Device} (inv : DeviceInv tls s) {e : LinkEvent} (goes : runs e = true) :
    (s.withLink (linkStep tls s.link e)).rows = s.rows :=
  (linkStep_follows tls s.link goes).rows.trans inv.synced

/-- A boot starts to ask for a certificate only when it sees none. -/
theorem Unfetched.boot {s : Device} {io : BootIo} (mqtt : BeginIo)
    (sees : bothStored s.rows = true → s.unit.stores.cert.hasClientCert io.has = true) :
    Unfetched (s.boot tls io mqtt) := by
  intro fetching
  have missing := (begin_step s.unit.stores io).2 fetching.step
  rw [boot_rows]
  by_contra both
  exact absurd (sees (by simpa using both)) (by simp [missing])

theorem Unfetched.step {s : Device} (inv : DeviceInv tls s) (unfetched : Unfetched s)
    (e : DeviceEvent) (sees : SeesItsRows deserializeJson tls s e) :
    Unfetched (deviceStep deserializeJson tls serialOf s e) := by
  cases e with
  | boot io mqtt => exact .boot mqtt sees
  | turn io => exact unfetched.turn sees
  | cut io => exact fun fetching => by cases fetching.active
  | answer _ _ | lateAnswer _ _ =>
      exact fun fetching => unfetched ⟨fetching.active, fetching.free, fetching.step⟩
  | link e =>
      simp only [deviceStep]
      split
      · rename_i goes
        intro fetching
        rw [link_rows inv goes]
        exact unfetched ⟨fetching.active, fetching.free, fetching.step⟩
      · exact unfetched


/-! ## What each step gives -/

theorem begin_job (s : EnrollStores) (io : BootIo) :
    ((EnrollUnit.poweredUp s io.load).begin io).job = none := by
  simp only [EnrollUnit.begin]
  repeat' split
  all_goals rfl

theorem requested_of_off (u : EnrollUnit) {u' : EnrollUnit} (off : u'.job = none)
    (step : EnrollStep) : u.requested u' ≠ some step := by
  simp [EnrollUnit.requested, EnrollUnit.requesting, off]

theorem boot_silent {s : Device} (io : BootIo) (mqtt : BeginIo) (step : EnrollStep) :
    sends deserializeJson tls serialOf s (.boot io mqtt) ≠ some step :=
  requested_of_off s.unit (begin_job s.unit.stores io) step

/-- Only a turn sends, and what it sends is its step's request. -/
theorem sends_turn {s : Device} {e : DeviceEvent} {step : EnrollStep}
    (sent : sends deserializeJson tls serialOf s e = some step) :
    s.unit.step = step ∧ s.unit.active = true ∧ s.unit.certRebootPending = false := by
  have still {u' : EnrollUnit} (same : u'.requesting = s.unit.requesting)
      (sent : s.unit.requested u' = some step) : False := by
    simp [EnrollUnit.requested_of_same same] at sent
  cases e with
  | turn io =>
      exact (EnrollUnit.loop_turn deserializeJson tls serialOf s.unit
        { io with mtlsSessionUp := mtlsSessionUp s.link }).requests sent
  | boot io mqtt => exact absurd sent (boot_silent io mqtt step)
  | cut io => exact absurd sent (requested_of_off s.unit rfl step)
  | answer _ _ =>
      refine (still ?_ sent).elim
      simp [deviceStep, EnrollUnit.requesting, Option.any_map]
  | lateAnswer _ _ => exact (still rfl sent).elim
  | link e =>
      refine (still ?_ sent).elim
      simp only [deviceStep]
      split <;> rfl

theorem DeviceInv.acksPresented {s : Device} (inv : DeviceInv tls s) (e : DeviceEvent) :
    AcksPresented deserializeJson tls serialOf s e :=
  fun sent => inv.acks (sends_turn sent).1

theorem Unfetched.neverRefetches {s : Device} (unfetched : Unfetched s) (e : DeviceEvent) :
    NeverRefetches deserializeJson tls serialOf s e := by
  intro sent
  obtain ⟨poll, active, free⟩ := sends_turn sent
  exact unfetched ⟨active, free, by rw [poll]; rfl⟩

theorem loop_storesReply (deserializeJson : Reader) (tls : Mbedtls) (serialOf : Str → Option Str)
    (s : Device) (io : TurnIo) :
    StoresReply deserializeJson tls s.unit io (s.loop deserializeJson tls serialOf io).stores := by
  have turn := EnrollUnit.loop_stores deserializeJson tls serialOf s.unit
    { io with mtlsSessionUp := mtlsSessionUp s.link }
  cases turn with
  | gains nothing => exact .inl nothing
  | reply job poll running kind done answered stores taken =>
      have same : (s.loop deserializeJson tls serialOf io).stores =
          (onCert deserializeJson tls io.deviceId s.unit.stores job.reply io.cert).1 := stores
      rw [same]
      obtain nothing | ⟨doc, parsed, usable, halves⟩ :=
        onCert_gains deserializeJson tls io.deviceId s.unit.stores job.reply io.cert
      · exact .inl nothing
      · exact .inr ⟨job, doc, poll, running, kind, done, answered, parsed, usable, halves⟩

theorem DeviceInv.storesUsable {s : Device} (inv : DeviceInv tls s) (e : DeviceEvent) :
    StoresUsable deserializeJson tls serialOf s e := by
  cases e with
  | turn io => exact loop_storesReply deserializeJson tls serialOf s io
  | cut io => exact loop_storesReply deserializeJson tls serialOf s io
  | boot io mqtt => exact boot_rows tls s io mqtt
  | answer _ _ => rfl
  | lateAnswer _ _ => rfl
  | link e =>
      simp only [StoresUsable, deviceStep]
      split
      · rename_i goes
        exact link_rows inv goes
      · rfl

end

/-! ## Every run -/

/-- From a boot on, a reply is stored only when usable and an ack follows a session that presented
the pair. No stored pair is asked for again when the boots see the rows and no store that fails
leaves both. -/
theorem certificate_stored_once (deserializeJson : Reader) (tls : Mbedtls)
    (serialOf : Str → Option Str) (s : Device) (io : BootIo) (mqtt : BeginIo)
    (es : List DeviceEvent) :
    Meets (deviceStep deserializeJson tls serialOf)
        (fun s e => StoresUsable deserializeJson tls serialOf s e ∧
          AcksPresented deserializeJson tls serialOf s e) s (.boot io mqtt :: es) ∧
      (Meets (deviceStep deserializeJson tls serialOf) (SeesItsRows deserializeJson tls) s
          (.boot io mqtt :: es) →
        Meets (deviceStep deserializeJson tls serialOf)
          (NeverRefetches deserializeJson tls serialOf) s (.boot io mqtt :: es)) := by
  have silent (step : EnrollStep) :
      sends deserializeJson tls serialOf s (.boot io mqtt) ≠ some step := boot_silent io mqtt step
  constructor
  · have kept (s : Device) (e : DeviceEvent) (inv : DeviceInv tls s) :
        DeviceInv tls (deviceStep deserializeJson tls serialOf s e) := inv.step e
    have has (s : Device) (e : DeviceEvent) (inv : DeviceInv tls s) :
        StoresUsable deserializeJson tls serialOf s e ∧
          AcksPresented deserializeJson tls serialOf s e :=
      ⟨inv.storesUsable e, inv.acksPresented e⟩
    refine ⟨⟨boot_rows tls s io mqtt, fun sent => absurd sent (silent _)⟩, ?_⟩
    exact meets_of_invariant kept has (.boot tls s io mqtt) es
  · rintro ⟨sees, run⟩
    have each (s : Device) (e : DeviceEvent) (inv : DeviceInv tls s ∧ Unfetched s)
        (sees : SeesItsRows deserializeJson tls s e) :
        (DeviceInv tls (deviceStep deserializeJson tls serialOf s e) ∧
          Unfetched (deviceStep deserializeJson tls serialOf s e)) ∧
          NeverRefetches deserializeJson tls serialOf s e :=
      ⟨⟨inv.1.step e, inv.2.step inv.1 e sees⟩, inv.2.neverRefetches e⟩
    refine ⟨fun sent => absurd sent (silent _), ?_⟩
    apply run.yields each
    exact ⟨.boot tls s io mqtt, .boot mqtt sees⟩

/-! ## One enrollment -/

/-- The reader of the three answers. -/
def storeReads : Reader := fun text =>
  if text = revokedText then .ok revokedDoc
  else if text = challengeText then .ok challengeDoc
  else readsOnly sampleReplyText sampleReplyDoc text

/-- A unit with these rows, before its boot. -/
def deviceWith (nvs : CertNvs) : Device where
  unit := .poweredUp { freshStores with cert := { freshStores.cert with nvs } } ⟨true, true, true⟩
  link :=
    { certs := { freshStores.cert with nvs }, live := none, topicPrefix := []
      shellServesMqtt := false, broker := noBroker, tlsRefused := false, mtlsActive := false
      transport := .none, wifiUp := true, cellularActive := false, cellularTcp := false
      session := none, reinitPending := false, ring := [], inbound := [], judged := [] }
  certSession := false

/-- The boot of a unit in which every call goes well. -/
def bootsConnected : DeviceEvent :=
  .boot bootsEnrollable
    { tlsRefused := false
      connects := true
      dial :=
        { has := ⟨true, true, true⟩, check := ⟨true, true, ⟨true, true, true⟩, true⟩
          resolved := true, dialed := true, accepted := true, reinitWhileDialing := false
          reinitWhileUp := false, wifiAfter := true } }

/-- From announce to the cert reply, whose certificate goes to the rows as `store` says. -/
def enrolls (store : StoreIo) : List DeviceEvent :=
  [.turn (turnAt 0), .answer 200 challengeText, .turn (turnAt 1000), .turn (turnAt 1100),
    .answer 200 [], .turn (turnAt 2000), .turn (turnAt 2100), .answer 200 sampleReplyText,
    .turn { turnAt 3000 with cert := { tmpDoesNotOpen with save := ⟨true, 1, 1, 1, true⟩, store } }]

/-- The settings of the reply. -/
def enrolledMqtt : MqttDoc :=
  some { broker := some "b.example".toList, port := some 8884, user := none, password := none
         maxExhaustReboots := none, rebootAfterFails := none }

/-- A fresh unit enrolls, boots again, gets its session up and acks. -/
def enrolledAndAcked : List DeviceEvent :=
  enrolls ⟨true, .lands, .lands⟩ ++
    [.link (.writeConfig enrolledMqtt "t/n".toList true), bootsConnected, .turn (turnAt 1000),
      .turn (turnAt 1100)]

theorem certificate_stored_once_and_acked :
    Meets (deviceStep storeReads sampleTls sampleSerialOf)
      (NeverRefetches storeReads sampleTls sampleSerialOf) (deviceWith ⟨none, none⟩)
      (bootsConnected :: enrolledAndAcked) :=
  (certificate_stored_once storeReads sampleTls sampleSerialOf _ _ _ enrolledAndAcked).2
    (by decide +kernel)

/-- Power goes between the two removals of a wipe. The new certificate lands beside the key that
was left, its own key does not, and the next request is for a certificate again. -/
def halfWiped : List DeviceEvent :=
  [.turn (turnAt 300000), .answer 200 revokedText,
    .cut { turnAt 301000 with wipe := ⟨true, true, .lands, true, .refused⟩ }, bootsConnected] ++
  enrolls ⟨true, .lands, .refused⟩ ++ [.turn (turnAt 400000)]

theorem stored_rows_polled_again :
    ¬ Meets (deviceStep storeReads sampleTls sampleSerialOf)
        (NeverRefetches storeReads sampleTls sampleSerialOf)
        (deviceWith ⟨some sampleCert, some sampleKey⟩) (bootsConnected :: halfWiped) := by
  decide +kernel

end Thesada.Enroll
