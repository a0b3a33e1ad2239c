import Thesada.Config.Store
import Thesada.Enroll.Policy
import Thesada.Mqtt.ClientCert

/-!
# The certificate reply

`onCert` takes a reply through three stores in a fixed order: the ack flag, the broker settings
in the config document, the certificate pair. A failure after the flag takes the flag back and
nothing else.

Each store says how each of its steps ends. The certificate library and the JSON reader are
parameters.
-/

namespace Thesada.Enroll

open CString Json Thesada.Config Thesada.Mqtt

def K_PORT : Str := "port".toList

/-- The members of a reply as the code reads them. -/
structure CertReply where
  cert : Str
  key : Str
  id : Str
  host : Str
  topicPrefix : Str
  port : Int
  deriving DecidableEq

/-- `doc[k] | ""`. -/
def strMember (doc : Json) (k : String) : Str := (doc.member k.toList).asStr.getD []

/-- `doc[k] | 0L` with a 32-bit `long`. -/
def longMember (doc : Json) (k : String) : Int :=
  match (doc.member k.toList).asInt with
  | some n => if -2147483648 ≤ n ∧ n ≤ 2147483647 then n else 0
  | none => 0

def readReply (doc : Json) : CertReply where
  cert := strMember doc "cert_pem"
  key := strMember doc "key_pem"
  id := strMember doc "device_id"
  host := strMember doc "mqtt_host"
  topicPrefix := strMember doc "topic_prefix"
  port := longMember doc "mqtt_port"

/-- The `thesada-enroll` namespace, the config and the certificate rows. -/
structure EnrollStores where
  ackPending : Bool
  config : ConfigUnit
  cert : CertUnit

structure AckIo where
  opens : Bool
  sees : Bool
  write : NvsWrite

structure CertIo where
  /-- No allocation fails while the pair is validated. -/
  heap : Bool
  setAck : AckIo
  save : WriteIo
  store : StoreIo
  clearAck : AckIo

/-- The flag after `ackPendingSet v`, and its result. -/
def ackPendingSet (ack v : Bool) (io : AckIo) : Bool × Bool :=
  if !io.opens then (ack, false)
  else if v then (if io.write.changes then true else ack, io.write.ok)
  else if !(io.sees && ack) then (ack, true)
  else (if io.write.changes then false else ack, io.write.ok)

/-- The broker settings in the `mqtt` object, which is made when there is none. -/
def setBroker (r : CertReply) (doc : Json) : Json :=
  doc.assignIn K_MQTT fun m =>
    (((if m.isObject then m else .obj []).assign K_BROKER fun _ => .str r.host).assign K_PORT
      fun _ => .int r.port).assign K_TOPIC_PREFIX fun _ => .str r.topicPrefix

/-- The checks before anything is stored. -/
def replyStorable (tls : Mbedtls) (ourId : Str) (heap : Bool) (held : Bool) (r : CertReply) : Bool :=
  if !enrollReplyUsable ourId r.id r.host r.port r.topicPrefix TOPIC_PREFIX_CAP then false
  else if CERT_MAX_LEN ≤ r.cert.length ∨ CERT_MAX_LEN ≤ r.key.length ∨
      !validateClientCertKey tls heap r.cert r.key then false
  else !held

/-- The config save and then the certificate store. -/
def storeReply (s : EnrollStores) (r : CertReply) (io : CertIo) : EnrollStores × Bool :=
  let edited := { s.config with live := setBroker r s.config.live }
  let (config, saved) := edited.save io.save
  if saved then
    let (cert, stored) := s.cert.storeClientCert (some r.cert) (some r.key) io.store
    ({ s with config, cert }, stored)
  else ({ s with config }, false)

def onCert (deserializeJson : Reader) (tls : Mbedtls) (ourId : Str) (s : EnrollStores)
    (reply : Str) (io : CertIo) : EnrollStores × Bool :=
  match deserializeJson reply with
  | .error _ => (s, false)
  | .ok doc =>
      let r := readReply doc
      if !replyStorable tls ourId io.heap s.config.held.isSome r then (s, false)
      else
        let (ackPending, flagged) := ackPendingSet s.ackPending true io.setAck
        let s := { s with ackPending }
        if !flagged then (s, false)
        else
          let (s, stored) := storeReply s r io
          if stored then (s, true)
          else
            ({ s with ackPending := (ackPendingSet s.ackPending false io.clearAck).1 }, false)

/-! ## What is promised -/

/-- The flag write of the reply goes through. -/
def AckIo.sets (io : AckIo) : Bool := io.opens && io.write.ok

/-- The `mqtt` block a boot reads from the file. -/
def fileMqtt (file : Option FileText) : Option Json :=
  (file.bind FileText.parse).map fun doc => doc.member K_MQTT

/-- The stores are as they were, but for a flag that is still set after it was to be removed. -/
structure Untouched (before after : EnrollStores) (removing : Bool) : Prop where
  live : after.config.live.member K_MQTT = before.config.live.member K_MQTT
  file : fileMqtt after.config.file = fileMqtt before.config.file
  rows : after.cert.nvs = before.cert.nvs
  ack : after.ackPending = before.ackPending ∨ removing = true ∧ after.ackPending = true

/-! ## When it holds -/

/-- A removal takes a flag that is set. -/
def AckIo.removes (io : AckIo) : Bool := io.opens && io.sees && io.write.changes

/-- The document already has the settings of the reply, or no place to put them. -/
def Names (r : CertReply) (doc : Json) : Prop :=
  doc.isObject = true →
    ∃ ms, doc.child (.key K_MQTT) = some (.obj ms) ∧ getMember K_BROKER ms = some (.str r.host) ∧
      getMember K_PORT ms = some (.int r.port) ∧
      getMember K_TOPIC_PREFIX ms = some (.str r.topicPrefix)

def storeLands (io : StoreIo) : Bool := io.opens && io.putCert.ok && io.putKey.ok

/-- A store that reaches a row finds the reply's own half there. -/
def StoreLeaves (n : CertNvs) (r : CertReply) (io : StoreIo) : Prop :=
  io.opens = true → (io.putCert.changes = true → n.cert.map (·.1) = some r.cert) ∧
    (io.putCert.ok = true → io.putKey.changes = true → n.key.map (·.1) = some r.key)

/-- What the stores and their failures must be for a reply that may be stored. -/
def FailsClean (s : EnrollStores) (r : CertReply) (io : CertIo) : Prop :=
  if io.setAck.sets then
    (io.save.lands = true ∧ storeLands io.store = true) ∨
      ((s.ackPending = true → io.clearAck.removes = false) ∧ Names r s.config.live ∧
        (io.save.lands = true →
          fileMqtt (some (.doc s.config.live)) = fileMqtt s.config.file ∧
            StoreLeaves s.cert.nvs r io.store))
  else io.setAck.opens = true → io.setAck.write.changes = true → s.ackPending = true

/-! ## The broker settings -/

theorem setBroker_of_names {r : CertReply} {doc : Json} (names : Names r doc) :
    setBroker r doc = doc := by
  cases doc with
  | obj ds =>
      obtain ⟨ms, found, host, port, topicPrefix⟩ := names rfl
      simp only [child] at found
      simp [setBroker, assignIn, isObject, assign, found, setMember_same host,
        setMember_same port, setMember_same topicPrefix, setMember_same found]
  | _ => rfl

/-- The block changes unless it has the reply's settings. -/
theorem setBroker_member_iff {r : CertReply} {doc : Json} :
    (setBroker r doc).member K_MQTT = doc.member K_MQTT ↔ Names r doc := by
  constructor
  · intro same isObj
    cases doc with
    | obj ds =>
        have apartHost : K_BROKER ≠ K_PORT := by decide
        have apartHost' : K_BROKER ≠ K_TOPIC_PREFIX := by decide
        have apartPort : K_PORT ≠ K_TOPIC_PREFIX := by decide
        simp only [setBroker, assignIn, isObject, if_true, assign, member,
          getMember_setMember, Option.getD_some] at same
        cases found : getMember K_MQTT ds with
        | none =>
            rw [found] at same
            simp at same
        | some m =>
            rw [found] at same
            simp only [Option.getD_some] at same
            cases m with
            | obj ms =>
                simp only [if_true, Json.obj.injEq] at same
                refine ⟨ms, found, ?_, ?_, ?_⟩
                · rw [← same, getMember_setMember_ne apartHost', getMember_setMember_ne apartHost,
                    getMember_setMember]
                · rw [← same, getMember_setMember_ne apartPort, getMember_setMember]
                · rw [← same, getMember_setMember]
            | _ => simp at same
    | _ => simp [isObject] at isObj
  · intro names
    rw [setBroker_of_names names]

/-! ## The certificate store -/

/-- A reply that may be stored carries a pair that fits. -/
theorem replyStorable_pair {tls : Mbedtls} {ourId : Str} {heap held : Bool} {r : CertReply}
    (storable : replyStorable tls ourId heap held r = true) :
    held = false ∧ r.cert ≠ [] ∧ r.key ≠ [] ∧ r.cert.length < CERT_MAX_LEN ∧
      r.key.length < CERT_MAX_LEN := by
  simp only [replyStorable] at storable
  split at storable
  · simp at storable
  · split at storable
    · simp at storable
    · rename_i fits
      simp only [not_or, Nat.not_le, Bool.not_eq_true', Bool.not_eq_false] at fits storable
      obtain ⟨shortCert, shortKey, valid⟩ := fits
      have framed := tls.framed r.cert r.key (validateClientCertKey_iff.mp valid).2
      simp only [certKeyInputsUsable, Bool.or_eq_true, List.isEmpty_iff] at framed
      split at framed
      · simp at framed
      · rename_i present
        simp only [not_or] at present
        exact ⟨storable, present.1, present.2, shortCert, shortKey⟩

theorem storeHalf_some {row : Option StoredPem} {pem : Str} (present : pem ≠ [])
    (short : pem.length < CERT_MAX_LEN) (put : NvsWrite) :
    CertUnit.storeHalf row (some pem) put =
      (if put.changes then some ⟨pem, short⟩ else row, put.ok) := by
  cases pem with
  | nil => exact absurd rfl present
  | cons c pem => exact dif_pos short

/-- The rows a store of a pair leaves, and its result. -/
theorem storeRows_pair {n : CertNvs} {cert key : Str} (someCert : cert ≠ []) (someKey : key ≠ [])
    (shortCert : cert.length < CERT_MAX_LEN) (shortKey : key.length < CERT_MAX_LEN)
    (io : StoreIo) :
    CertUnit.storeRows n (some cert) (some key) io =
      if io.opens then
        ({ cert := if io.putCert.changes then some ⟨cert, shortCert⟩ else n.cert
           key := if io.putCert.ok && io.putKey.changes then some ⟨key, shortKey⟩ else n.key },
          io.putCert.ok && io.putKey.ok)
      else (n, false) := by
  cases opens : io.opens with
  | false => simp [CertUnit.storeRows, opens]
  | true =>
      simp only [CertUnit.storeRows, opens, storeHalf_some someCert shortCert,
        storeHalf_some someKey shortKey]
      cases io.putCert.ok <;> simp

/-- A store that fails leaves the rows exactly when what it reached was there already. -/
theorem storeRows_same_iff {n : CertNvs} {r : CertReply} (someCert : r.cert ≠ [])
    (someKey : r.key ≠ []) (shortCert : r.cert.length < CERT_MAX_LEN)
    (shortKey : r.key.length < CERT_MAX_LEN) (io : StoreIo) :
    (CertUnit.storeRows n (some r.cert) (some r.key) io).1 = n ↔ StoreLeaves n r io := by
  obtain ⟨cert, key⟩ := n
  rw [storeRows_pair someCert someKey shortCert shortKey]
  simp only [StoreLeaves]
  cases io.opens with
  | false => simp
  | true =>
      have rowIs {row : Option StoredPem} {pem : Str} (short : pem.length < CERT_MAX_LEN) :
          some ⟨pem, short⟩ = row ↔ row.map (·.1) = some pem := by
        cases row with
        | none => simp
        | some stored => simp [Subtype.ext_iff, eq_comm]
      simp only [if_true, CertNvs.mk.injEq, forall_const]
      refine and_congr ?_ ?_
      · cases io.putCert.changes <;> simp [rowIs]
      · cases io.putCert.ok <;> cases io.putKey.changes <;> simp [rowIs]

/-! ## A failed reply -/

theorem ackPendingSet_true (ack : Bool) (io : AckIo) :
    ackPendingSet ack true io = (ack || (io.opens && io.write.changes), io.sets) := by
  simp only [ackPendingSet, AckIo.sets]
  cases io.opens <;> cases io.write.changes <;> simp

theorem ackPendingSet_false (ack : Bool) (io : AckIo) :
    (ackPendingSet ack false io).1 = (ack && !io.removes) := by
  simp only [ackPendingSet, AckIo.removes]
  cases io.opens <;> cases io.sees <;> cases ack <;> cases io.write.changes <;> simp

theorem sets_changes {io : AckIo} (sets : io.sets = true) :
    (io.opens && io.write.changes) = true := by
  simp only [AckIo.sets, NvsWrite.ok, NvsWrite.changes, Bool.and_eq_true, decide_eq_true_eq] at *
  simp [sets.1, sets.2]

/-- The config after the settings of the reply went in and the save did or did not land. -/
def savedConfig (c : ConfigUnit) (r : CertReply) (lands : Bool) : ConfigUnit :=
  { c with
    live := setBroker r c.live
    file := if lands then some (.doc (setBroker r c.live)) else c.file }

theorem storeReply_eq {s : EnrollStores} {r : CertReply} (free : s.config.held = none)
    (someCert : r.cert ≠ []) (someKey : r.key ≠ []) (shortCert : r.cert.length < CERT_MAX_LEN)
    (shortKey : r.key.length < CERT_MAX_LEN) (io : CertIo) :
    storeReply s r io =
      ({ s with
          config := savedConfig s.config r io.save.lands
          cert := if io.save.lands then
              (s.cert.storeClientCert (some r.cert) (some r.key) io.store).1 else s.cert },
        io.save.lands && storeLands io.store) := by
  have edited : ({ s.config with live := setBroker r s.config.live } : ConfigUnit).held = none :=
    free
  simp only [storeReply, save_of_not_held edited]
  cases lands : io.save.lands with
  | false => simp [savedConfig]
  | true =>
      have stored : (CertUnit.storeRows s.cert.nvs (some r.cert) (some r.key) io.store).2 =
          storeLands io.store := by
        rw [storeRows_pair someCert someKey shortCert shortKey]
        cases opens : io.store.opens <;> simp [storeLands, opens]
      simp [savedConfig, CertUnit.storeClientCert, stored]

/-- After the flag is set, a failure leaves the stores exactly under these conditions. -/
theorem failed_untouched_iff {s after : EnrollStores} {r : CertReply} {io : CertIo}
    (someCert : r.cert ≠ []) (someKey : r.key ≠ []) (shortCert : r.cert.length < CERT_MAX_LEN)
    (shortKey : r.key.length < CERT_MAX_LEN)
    (config : after.config = savedConfig s.config r io.save.lands)
    (rows : after.cert.nvs = if io.save.lands then
      (CertUnit.storeRows s.cert.nvs (some r.cert) (some r.key) io.store).1 else s.cert.nvs)
    (ack : after.ackPending = !io.clearAck.removes) :
    Untouched s after true ↔
      (s.ackPending = true → io.clearAck.removes = false) ∧ Names r s.config.live ∧
        (io.save.lands = true →
          fileMqtt (some (.doc s.config.live)) = fileMqtt s.config.file ∧
            StoreLeaves s.cert.nvs r io.store) := by
  constructor
  · intro same
    have names : Names r s.config.live := by
      have live := same.live
      rw [config] at live
      exact setBroker_member_iff.mp live
    refine ⟨?_, names, ?_⟩
    · intro pending
      have kept := same.ack
      rw [ack, pending] at kept
      simpa using kept
    · intro lands
      have file := same.file
      have left := same.rows
      simp only [config, savedConfig, lands, if_true, setBroker_of_names names] at file
      simp only [rows, lands, if_true] at left
      exact ⟨file, (storeRows_same_iff someCert someKey shortCert shortKey io.store).mp left⟩
  · intro ⟨pending, names, landed⟩
    constructor
    · rw [config]
      exact setBroker_member_iff.mpr names
    · rw [config]
      simp only [savedConfig]
      split
      · rename_i lands
        rw [setBroker_of_names names]
        exact (landed lands).1
      · rfl
    · rw [rows]
      split
      · rename_i lands
        exact (storeRows_same_iff someCert someKey shortCert shortKey io.store).mpr
          (landed lands).2
      · rfl
    · rw [ack]
      cases removed : io.clearAck.removes with
      | false => exact .inr ⟨rfl, rfl⟩
      | true =>
          left
          cases set : s.ackPending with
          | false => rfl
          | true => simp [pending set] at removed

/-- A reply that is not taken leaves the broker settings, the certificate and the flag as they
were exactly when it is refused before the flag, or fails as `FailsClean` says. -/
theorem onCert_untouched_iff (deserializeJson : Reader) (tls : Mbedtls) (ourId : Str)
    (s : EnrollStores) (reply : Str) (io : CertIo) :
    ((onCert deserializeJson tls ourId s reply io).2 = false →
        Untouched s (onCert deserializeJson tls ourId s reply io).1 io.setAck.sets) ↔
      ∀ doc, deserializeJson reply = .ok doc →
        replyStorable tls ourId io.heap s.config.held.isSome (readReply doc) = true →
          FailsClean s (readReply doc) io := by
  have unread : Untouched s s io.setAck.sets := ⟨rfl, rfl, rfl, .inl rfl⟩
  cases parsed : deserializeJson reply with
  | error left => simp [onCert, parsed, unread]
  | ok doc =>
      cases storable : replyStorable tls ourId io.heap s.config.held.isSome (readReply doc) with
      | false => simp [onCert, parsed, storable, unread]
      | true =>
          obtain ⟨free, someCert, someKey, shortCert, shortKey⟩ := replyStorable_pair storable
          have notHeld : s.config.held = none := by simpa using free
          simp only [Except.ok.injEq, forall_eq', storable, forall_const]
          simp only [onCert, parsed, storable, ackPendingSet_true, Bool.not_true,
            Bool.false_eq_true, if_false, FailsClean]
          cases sets : io.setAck.sets with
          | false =>
              simp only [Bool.not_false, if_true, Bool.false_eq_true, if_false, forall_const]
              constructor
              · intro same opens changes
                have ack := same.ack
                simpa [opens, changes] using ack
              · intro set
                refine ⟨rfl, rfl, rfl, .inl ?_⟩
                cases opens : io.setAck.opens with
                | false => simp
                | true =>
                    cases changes : io.setAck.write.changes with
                    | false => simp
                    | true => simp [set opens changes]
          | true =>
              have stored := storeReply_eq (s := { s with ackPending := true }) notHeld someCert
                someKey shortCert shortKey io
              simp only [Bool.not_true, Bool.false_eq_true, if_false, if_true,
                sets_changes sets, Bool.or_true, stored]
              cases taken : io.save.lands && storeLands io.store with
              | true => simp [Bool.and_eq_true_iff.mp taken]
              | false =>
                  have untaken : ¬ (io.save.lands = true ∧ storeLands io.store = true) := by
                    simpa using taken
                  simp only [untaken, false_or, Bool.false_eq_true, if_false, forall_const]
                  refine failed_untouched_iff someCert someKey shortCert shortKey rfl ?_ ?_
                  · cases io.save.lands <;> rfl
                  · simp [ackPendingSet_false]

/-! ## A save that fails -/

def sampleId : Str := "thesada-020000000007".toList

/-- A reply for the sample id: its text and the document it spells. -/
def sampleReplyText : Str :=
  "\x7b\"device_id\":\"".toList ++ sampleId ++ "\",\"mqtt_host\":\"b.example\"".toList ++
    ",\"mqtt_port\":8884,\"topic_prefix\":\"t/n\",\"cert_pem\":\"".toList ++ sampleCert.1 ++
    "\",\"key_pem\":\"".toList ++ sampleKey.1 ++ "\"\x7d".toList

def sampleReplyDoc : Json :=
  .obj [("device_id".toList, .str sampleId), ("mqtt_host".toList, .str "b.example".toList),
    ("mqtt_port".toList, .int 8884), ("topic_prefix".toList, .str "t/n".toList),
    ("cert_pem".toList, .str sampleCert.1), ("key_pem".toList, .str sampleKey.1)]

/-- The config of a unit that has not enrolled. -/
def freshConfig : Json := .obj [("enroll".toList, .obj [("url".toList, .str "https://a".toList)])]

def freshStores : EnrollStores where
  ackPending := false
  config := { live := freshConfig, file := some (.doc freshConfig), held := none }
  cert := { nvs := ⟨none, none⟩, storedCertBroken := false, clientCert := none, clientKey := none }

/-- Every step lands but the opening of the temporary file. -/
def tmpDoesNotOpen : CertIo where
  heap := true
  setAck := ⟨true, true, .lands⟩
  save := ⟨false, 0, 0, 1, true⟩
  store := ⟨true, .lands, .lands⟩
  clearAck := ⟨true, true, .lands⟩

/-- The live document keeps the broker of a reply that was not taken. -/
theorem failed_save_leaves_broker :
    ¬ ((onCert (readsOnly sampleReplyText sampleReplyDoc) sampleTls sampleId freshStores
          sampleReplyText tmpDoesNotOpen).2 = false →
        Untouched freshStores (onCert (readsOnly sampleReplyText sampleReplyDoc) sampleTls sampleId
          freshStores sampleReplyText tmpDoesNotOpen).1 tmpDoesNotOpen.setAck.sets) := by
  intro holds
  have live := (holds (by decide +kernel)).live
  have broker := congrArg (fun m => (m.member K_BROKER).asStr) live
  revert broker
  decide +kernel

end Thesada.Enroll
