import Thesada.Mqtt.Rollback

/-!
# What a restored snapshot dials

A session commits its settings only when the configured host and port are the ones it dialed.
The invariant is that the snapshot renders the settings of the session recorded behind it. A
rollback then puts the host, user and password of that session back, and its port when the
committed document gave it as an integer: a port left out is written into the snapshot as 0,
while `begin` reads it as 8883.
-/

namespace Thesada.Mqtt

open CString Machine

/-- What `begin` and `connect` use of a document. -/
structure Dial where
  host : Str
  port : Nat
  user : Str
  password : Str
  deriving DecidableEq

/-- The session on a target with the credentials of a document; `stored` is the secret in
NVS. -/
def dial (b : Broker) (stored : Option Str) (d : MqttDoc) : Dial where
  host := b.host
  port := b.port
  user := d.user
  password := resolvePassword stored d

/-- The session behind a snapshot was configured for the target it dialed. -/
def Committed.Proven (k : Committed) : Prop :=
  mqttSnapshotProven k.doc.broker (toUnsigned (k.doc.portOr 8883)) k.broker.host k.broker.port

/-- The snapshot in NVS renders the settings of the session behind it. -/
def SnapshotOf (codec : CriticalCodec) (c : Client) : Prop :=
  ∀ k, c.committed = some k → c.nvs.lg = codec.render (critical k.doc) ∧ k.Proven

/-! ## The snapshot over a run -/

variable {codec : CriticalCodec}

theorem SnapshotOf.keep {c c' : Client} (h : SnapshotOf codec c)
    (committed : c'.committed = c.committed) (lg : c'.nvs.lg = c.nvs.lg) :
    SnapshotOf codec c' := by
  intro k same
  rw [lg]
  exact h k (committed ▸ same)

theorem clear_lg (n : BootNvs) (io : ClearIo) (lands : Bool) :
    (mqttClearRbCfg (mqttRebootCountClear n io) lands).lg = n.lg := by
  simp only [mqttClearRbCfg, mqttRebootCountClear]
  split_ifs <;> rfl

theorem boot_snapshot (codec : CriticalCodec) (c : Client) (mounted : Bool) (io : RollbackIo) :
    (c.boot codec mounted io).committed = c.committed ∧
      (c.boot codec mounted io).nvs.lg = c.nvs.lg := by
  simp only [Client.boot, Client.begin, Client.rollbackIfUncommitted]
  cases (c.load mounted).rollbackTarget codec io with
  | none => exact ⟨rfl, rfl⟩
  | some lg =>
      cases io.saved with
      | false => exact ⟨rfl, rfl⟩
      | true => exact ⟨rfl, clear_lg _ _ _⟩

theorem giveUp_committed (c : Client) (f : Failure) :
    (c.giveUp codec f).committed = c.committed := by
  simp only [Client.giveUp, Client.budgetReboot, Client.recordFailing]
  cases mqttCriticalJson codec c.live <;> split_ifs <;> rfl

/-- A commit is of the live document and the target this session dialed. -/
theorem SnapshotOf.snapshotGoodConfig {c : Client} (h : SnapshotOf codec c) (io : CommitIo) :
    SnapshotOf codec (c.snapshotGoodConfig codec io) := by
  cases proven : c.snapshotProven with
  | false => simpa [Client.snapshotGoodConfig, proven] using h
  | true =>
      cases json : mqttCriticalJson codec c.live with
      | none => simpa [Client.snapshotGoodConfig, proven, json] using h
      | some cur =>
          obtain ⟨rendered, curNe, -⟩ := mqttCriticalJson_eq_some json
          cases opens : io.opens with
          | false => simpa [Client.snapshotGoodConfig, proven, json, opens] using h
          | true =>
              simp only [Client.snapshotGoodConfig, proven, json, opens, Bool.not_true,
                Bool.false_eq_true, if_false]
              by_cases same : cur = getString io.readLg c.nvs.lg
              · rw [if_pos same]
                intro k found
                obtain rfl := Option.some.inj found
                refine ⟨?_, proven⟩
                simp only [getString] at same
                split_ifs at same
                · exact same.symm.trans rendered
                · exact absurd same curNe
              · rw [if_neg same]
                intro k found
                cases put : io.putLg with
                | false =>
                    simp only [put, Bool.false_eq_true, if_false] at found ⊢
                    exact h k found
                | true =>
                    simp only [put, if_true] at found ⊢
                    obtain rfl := Option.some.inj found
                    exact ⟨rendered, proven⟩

theorem SnapshotOf.step (c : Client) (e : ClientEvent) (h : SnapshotOf codec c) :
    SnapshotOf codec (clientStep codec c e) := by
  cases e with
  | wait seconds => exact h.keep rfl rfl
  | boot mounted io =>
      obtain ⟨committed, lg⟩ := boot_snapshot codec c mounted io
      exact h.keep committed lg
  | connectFailed f =>
      simp only [clientStep]
      split_ifs
      · exact h.keep (giveUp_committed c.countFailure f)
          (Client.giveUp_keeps codec c.countFailure f).lg
      · exact h
  | connected io =>
      simp only [clientStep]
      split_ifs
      · have cleared : SnapshotOf codec { c with
            retryCount := 0
            rebootHalted := false
            nvs := mqttClearRbCfg (mqttRebootCountClear c.nvs io.clear) io.clearRbCfg } :=
          h.keep rfl (clear_lg _ _ _)
        exact cleared.snapshotGoodConfig io
      · exact h
  | reinit =>
      simp only [clientStep]
      split_ifs
      · exact h.keep rfl rfl
      · exact h
  | edit live file =>
      simp only [clientStep]
      split_ifs
      · exact h.keep rfl rfl
      · exact h

theorem SnapshotOf.run {c : Client} (h : SnapshotOf codec c) (es : List ClientEvent) :
    SnapshotOf codec (Machine.run (clientStep codec) c es) := by
  have preserved : ∀ s e, SnapshotOf codec s → SnapshotOf codec (clientStep codec s e) :=
    fun s e inv => inv.step s e
  exact run_invariant preserved h es

/-! ## The restored session -/

/-- The target `begin` takes from a restored document. -/
theorem begin_restore {lg : Critical} {m : MqttKeys} (nonempty : lg.broker ≠ [])
    (fits : lg.broker.length < MQTT_BROKER_HOST_CAP) :
    (noBroker.begin (restore lg (some m))).host = lg.broker ∧
      (noBroker.begin (restore lg (some m))).port = toUint16 lg.port := by
  have host : MqttDoc.broker (restore lg (some m)) = lg.broker := rfl
  have copied : mqttHostFits lg.broker MQTT_BROKER_HOST_CAP = true := decide_eq_true fits
  simp only [Broker.begin, host, if_neg nonempty, Broker.refresh]
  rw [dif_pos copied]
  exact ⟨rfl, rfl⟩

/-- A port that reads as the `uint16_t` it was dialed with is written back as it. -/
theorem toUint16_of_toUnsigned {p : Int} {port : Nat} (isPort : port < 65536)
    (same : toUnsigned p = port) : toUint16 p = port := by
  simp only [toUnsigned] at same
  simp only [toUint16]
  omega

/-- The target, user and password of a restored document are those of the committed session
exactly when the committed document gave its port as an integer. -/
theorem dial_restore {k : Committed} {m : MqttKeys} (proven : k.Proven) :
    (∀ stored, dial (noBroker.begin (restore (critical k.doc) (some m))) stored
        (restore (critical k.doc) (some m)) = dial k.broker stored k.doc) ↔
      (k.doc.bind (·.port)).isSome := by
  obtain ⟨liveHost, samePort, sameHost⟩ := mqttSnapshotProven_iff.mp proven
  have host : (critical k.doc).broker = k.broker.host := sameHost
  have nonempty : (critical k.doc).broker ≠ [] := host ▸ liveHost
  have fits : (critical k.doc).broker.length < MQTT_BROKER_HOST_CAP := host ▸ k.broker.fits
  obtain ⟨restoredHost, restoredPort⟩ := begin_restore (m := m) nonempty fits
  have user : MqttDoc.user (restore (critical k.doc) (some m)) = k.doc.user := rfl
  have password (stored : Option Str) :
      resolvePassword stored (restore (critical k.doc) (some m)) =
        resolvePassword stored k.doc := rfl
  simp only [dial, restoredHost, restoredPort, user, password, host, Dial.mk.injEq, true_and,
    and_true]
  cases given : k.doc.bind (·.port) with
  | none =>
      have zero : (critical k.doc).port = 0 := by simp [critical, MqttDoc.portOr, given]
      have dialed : k.broker.port = 8883 := by
        simp only [MqttDoc.portOr, given] at samePort
        exact samePort.symm
      simp [zero, dialed, toUint16]
  | some p =>
      have port : (critical k.doc).port = p := by simp [critical, MqttDoc.portOr, given]
      have same : toUnsigned p = k.broker.port := by simpa [MqttDoc.portOr, given] using samePort
      simp [port, toUint16_of_toUnsigned k.broker.isPort same]

/-- A boot that goes back to the snapshot behind a session and saves it reads host, port, user
and password as that session used them, under any stored secret, exactly when the document of
that session gave `mqtt.port` as an integer and the document of this boot has an `mqtt`
object. -/
theorem restored_dials_committed (codec : CriticalCodec) (c : Client) (es : List ClientEvent)
    (fresh : c.committed = none) (mounted : Bool) (io : RollbackIo) (k : Committed)
    (lg : Critical)
    (committed : (Machine.run (clientStep codec) c es).committed = some k)
    (target : ((Machine.run (clientStep codec) c es).load mounted).rollbackTarget codec io =
      some lg)
    (saved : io.saved = true) :
    (∀ stored, dial ((Machine.run (clientStep codec) c es).boot codec mounted io).broker stored
        ((Machine.run (clientStep codec) c es).boot codec mounted io).live =
          dial k.broker stored k.doc) ↔
      (k.doc.bind (·.port)).isSome ∧
        ((Machine.run (clientStep codec) c es).load mounted).live.isSome := by
  have start : SnapshotOf codec c := by
    intro k found
    simp [fresh] at found
  obtain ⟨text, proven⟩ := start.run es k committed
  generalize Machine.run (clientStep codec) c es = s at *
  have same : lg = critical k.doc := by
    obtain ⟨-, -, -, parsed, -⟩ := Client.rollbackTarget_eq_some target
    have lgText : (s.load mounted).nvs.lg = codec.render (critical k.doc) := text
    rw [lgText, codec.parse_render] at parsed
    exact (Option.some.inj parsed).symm
  subst same
  simp only [Client.boot, Client.begin, Client.rollbackIfUncommitted_saved target saved]
  have broker : (s.load mounted).broker = noBroker := rfl
  rw [broker]
  cases loaded : (s.load mounted).live with
  | none =>
      obtain ⟨liveHost, -⟩ := mqttSnapshotProven_iff.mp proven
      simp only [Option.isSome_none, Bool.false_eq_true, and_false, iff_false]
      intro all
      have host := congrArg Dial.host (all none)
      exact liveHost host.symm
  | some m =>
      simpa using dial_restore proven

def commitLands : CommitIo := ⟨clearLands, true, true, true, true, true⟩

/-- Settings for a broker `name` with one restart a budget. -/
def namedBroker (name : Char) (port : Option Int) : MqttDoc :=
  some { broker := some [name], port, user := some ['u'], password := some ['p'],
         maxExhaustReboots := some 1, rebootAfterFails := some 1 }

/-- A session on broker `a` commits, then an edit to broker `b` restarts the unit. -/
def badEdit : List ClientEvent :=
  [.boot true rollbackLands, .connected commitLands,
    .edit (namedBroker 'b' (some 1883)) (namedBroker 'b' (some 1883)), refused (answered 0)]

/-- The unit before a boot with settings `d`, with nothing committed. -/
def firstBoot (d : MqttDoc) : Client :=
  { unbooted d with nvs := { count := 0, epoch := 0, lgSet := false, lg := [], rbCfg := [] } }

/-- The session on broker `a` that commits. -/
def sessionOnA (port : Option Int) : Committed where
  doc := namedBroker 'a' port
  broker := noBroker.begin (namedBroker 'a' port)

/-- With the port given, the restored session is the committed one. -/
theorem restored_dials_committed_sample :
    dial ((Machine.run (clientStep arduinoJson) (firstBoot (namedBroker 'a' (some 8884)))
        badEdit).boot arduinoJson true rollbackLands).broker none
      ((Machine.run (clientStep arduinoJson) (firstBoot (namedBroker 'a' (some 8884)))
        badEdit).boot arduinoJson true rollbackLands).live =
      dial (sessionOnA (some 8884)).broker none (sessionOnA (some 8884)).doc :=
  (restored_dials_committed arduinoJson (firstBoot (namedBroker 'a' (some 8884))) badEdit rfl true
    rollbackLands (sessionOnA (some 8884)) (critical (namedBroker 'a' (some 8884)))
    (by rfl) (by decide +kernel) rfl).mpr ⟨rfl, rfl⟩ none

/-- With the port left out, the session dialed 8883 and the restored settings dial 0. -/
theorem omitted_port_restores_zero :
    let c := Machine.run (clientStep arduinoJson) (firstBoot (namedBroker 'a' none)) badEdit
    c.committed.map (·.broker.port) = some 8883 ∧
      ((c.load true).rollbackTarget arduinoJson rollbackLands).isSome = true ∧
      (c.boot arduinoJson true rollbackLands).broker.host = ['a'] ∧
      (c.boot arduinoJson true rollbackLands).broker.port = 0 := by
  decide +kernel

end Thesada.Mqtt
