import Thesada.Mqtt.ClientCert
import Thesada.Mqtt.CriticalConfig

/-!
# Which session a command came from

`connect` decides whether a session presents the client certificate, and one flag keeps the
decision for the messages the session delivers. The flag is frozen into a command when the
command is queued, and the command runs later, after any number of reconnects.

A session is recorded with what its dial used: the port, the texts attached to the handshake
and the pair the dial loaded. `inbound` lists what each message was marked with and the session
that delivered it, `judged` the same for each command that was run.
-/

namespace Thesada.Mqtt

open CString Machine Thesada.Cli

def MQTT_MTLS_PORT : Nat := 8884
def CLI_TOPIC_CAP : Nat := 160
def CLI_TOPIC_INPUT_SEGMENT : Str := "/cli/".toList
def DEFERRED_RING_SIZE : Nat := 4

inductive MqttTransport where
  | none
  | wifi
  | cellular
  deriving DecidableEq

/-- What one dial used. -/
structure Session where
  port : Nat
  attached : Option (Str × Str)
  loaded : Option (Str × Str)

/-- The mode a session authenticated in. -/
def Session.mode (s : Session) : CliAuthMode := if s.attached.isSome then .mtls else .password

structure QueuedCommand where
  cmd : Str
  payload : Str
  auth : CliAuthMode
  speaker : Session

/-- An entry of the ring the main loop drains: an inbound command or other work. -/
inductive Deferred where
  | cli (command : QueuedCommand)
  | other

structure Link where
  certs : CertUnit
  /-- The live document's `mqtt` object, its topic prefix, and whether `shell.mode` serves
  MQTT. -/
  live : MqttDoc
  topicPrefix : Str
  shellServesMqtt : Bool
  broker : Broker
  tlsRefused : Bool
  mtlsActive : Bool
  transport : MqttTransport
  /-- WiFi is up. It changes between events and while a dial blocks. -/
  wifiUp : Bool
  cellularActive : Bool
  /-- The provider has a socket for the session. -/
  cellularTcp : Bool
  session : Option Session
  reinitPending : Bool
  ring : List Deferred
  inbound : List (CliAuthMode × Session)
  judged : List (CliAuthMode × Session)

/-- What a connect meets. A console command typed during a wait on the modem can ask for a
reinit, before or after the session is up. -/
structure DialIo where
  has : HasIo
  check : CheckIo
  resolved : Bool
  dialed : Bool
  accepted : Bool
  reinitWhileDialing : Bool
  reinitWhileUp : Bool
  wifiAfter : Bool

structure LoopIo where
  reinit : DialIo
  watchdogExpired : Bool
  retryDue : Bool
  retry : DialIo

/-- What `begin` meets: whether a trust anchor is there, and whether it gets to its connect. -/
structure BeginIo where
  tlsRefused : Bool
  connects : Bool
  dial : DialIo

namespace Link

variable (tls : Mbedtls)

def cliAuthModeFor (mtls : Bool) : CliAuthMode := if mtls then .mtls else .password

def transportWanted (c : Link) : MqttTransport :=
  if c.wifiUp then .wifi else if c.cellularActive && c.cellularTcp then .cellular else .none

/-- The texts of the load buffers. -/
def buffers (u : CertUnit) : Option (Str × Str) :=
  match u.clientCert, u.clientKey with
  | some cert, some key => some (cert, key)
  | _, _ => none

/-- The pair a connect loads, if it gets to load one. -/
def loadedAt (u : CertUnit) (has : HasIo) (io : CheckIo) : Option (Str × Str) :=
  if u.hasClientCert has && u.buffersHeld io then u.loadClientCert io.load else none

/-! ### Connecting -/

/-- Closes the old session, loads the certificate and decides what to attach. -/
def prepare (c : Link) (io : DialIo) : Link :=
  let (certs, validated) := c.certs.connectLoad tls io.has io.check
  { c with
    session := none
    certs
    mtlsActive := validated && c.broker.port = MQTT_MTLS_PORT
    transport := c.transportWanted }

/-- The session of a dial that went through. -/
def dialSession (c : Link) (loaded : Option (Str × Str)) : Session where
  port := c.broker.port
  attached := if c.mtlsActive then buffers c.certs else none
  loaded

/-- The dial of `connect` and what follows it. -/
def dial (c : Link) (io : DialIo) : Link :=
  let loaded := loadedAt c.certs io.has io.check
  let c := c.prepare tls io
  let modem := decide (c.transport = .cellular)
  let up := (io.resolved && io.dialed) && io.accepted
  let dropped := modem && io.reinitWhileUp
  { c with
    session := if up && !dropped then some (c.dialSession loaded) else none
    wifiUp := io.wifiAfter
    reinitPending := c.reinitPending || (modem && io.reinitWhileDialing) || (up && dropped) }

/-- No verdict of an earlier session stands while a connect may still bail out. -/
def forgetMode (c : Link) : Link := { c with mtlsActive := false }

/-- `connect`. -/
def connect (c : Link) (io : DialIo) : Link :=
  if c.tlsRefused || c.transportWanted = .none then c.forgetMode else c.forgetMode.dial tls io

/-- The RAM of a fresh boot. -/
def restarted (c : Link) : Link :=
  { c with
    certs := c.certs.restarted
    broker := noBroker
    tlsRefused := false
    mtlsActive := false
    transport := .none
    cellularActive := false
    session := none
    reinitPending := false
    ring := []
    inbound := []
    judged := [] }

/-- `begin`, on a unit that has just booted. Without a broker it returns before the TLS setup. -/
def begin (c : Link) (io : BeginIo) : Link :=
  if c.live.broker = [] then c
  else
    let c := { c with broker := c.broker.begin c.live, tlsRefused := io.tlsRefused }
    if c.tlsRefused || !io.connects then c else c.connect tls io.dial

/-! ### The loop -/

/-- A requested reinit is taken up with host and port from the live document. -/
def takeReinit (c : Link) : Link :=
  { c with reinitPending := false, broker := c.broker.refresh c.live }

/-- The deferred reconnect. -/
def serviceReinit (c : Link) (io : DialIo) : Link :=
  if c.reinitPending then c.takeReinit.connect tls io else c

/-- A session on a transport that should not carry it is dropped. -/
def switchTransport (c : Link) : Link :=
  if c.session.isSome ∧ c.transportWanted ≠ c.transport then { c with session := none } else c

/-- The rest of the loop: a live session is pumped (its messages are events) unless it has been
silent too long, and without one the retry connects when due. -/
def pumpOrRetry (c : Link) (io : LoopIo) : Link :=
  if c.session.isSome then
    if io.watchdogExpired then { c with session := none } else c
  else if c.transportWanted = .none then c
  else if io.retryDue then c.connect tls io.retry
  else c

def loop (c : Link) (io : LoopIo) : Link :=
  ((c.serviceReinit tls io.reinit).switchTransport).pumpOrRetry tls io

/-! ### Messages and commands -/

/-- The command a topic names under the prefix, in a mode that serves MQTT. -/
def cliCommand (c : Link) (topic : Str) : Option Str :=
  let cliPrefix := c.topicPrefix ++ CLI_TOPIC_INPUT_SEGMENT
  if CLI_TOPIC_CAP ≤ cliPrefix.length then none
  else if !c.shellServesMqtt then none
  else if !cliPrefix.isPrefixOf topic then none
  else
    let cmd := topic.drop cliPrefix.length
    if cmd.isEmpty ∨ cmd = "response".toList then none else some cmd

/-- `cliInboundHandler`: a full ring drops the command. -/
def cliInboundHandler (c : Link) (topic payload : Str) (auth : CliAuthMode) (speaker : Session) :
    Link :=
  match c.cliCommand topic with
  | none => c
  | some cmd =>
      if c.ring.length + 1 < DEFERRED_RING_SIZE then
        { c with ring := c.ring ++ [.cli { cmd, payload, auth, speaker }] }
      else c

/-- `onMessage`, for a message the live session delivers. -/
def onMessage (c : Link) (topic payload : Str) : Link :=
  match c.session with
  | none => c
  | some speaker =>
      let auth := cliAuthModeFor c.mtlsActive
      { c with inbound := c.inbound ++ [(auth, speaker)] }.cliInboundHandler topic payload auth
        speaker

/-- One entry of the ring. `runCli` judges a command by the mode that was queued with it. -/
def drain (c : Link) : Link :=
  match c.ring with
  | [] => c
  | .other :: rest => { c with ring := rest }
  | .cli command :: rest =>
      { c with ring := rest, judged := c.judged ++ [(command.auth, command.speaker)] }

/-- `reinitSubscriptions` and `reconnectWithCurrentConfig`. -/
def requestReinit (c : Link) : Link := { c with session := none, reinitPending := true }

end Link

inductive LinkEvent where
  | boot (io : BeginIo)
  | loop (io : LoopIo)
  | message (topic payload : Str)
  | drain
  /-- Other work of the main loop is queued in the ring. -/
  | otherWork
  | requestReinit
  /-- The peer, the network or an OTA check ends the session. -/
  | sessionEnds
  | setWifi (up : Bool)
  | setCellular (active tcp : Bool)
  | writeConfig (live : MqttDoc) (topicPrefix : Str) (shellServesMqtt : Bool)
  /-- `cert.set` or an enrollment. -/
  | storeCert (certPEM keyPEM : Option Str) (io : StoreIo)
  | applyCert (has : HasIo) (io : CheckIo)
  | clearCert (io : ClearCertIo)

def linkStep (tls : Mbedtls) (c : Link) : LinkEvent → Link
  | .boot io => c.restarted.begin tls io
  | .loop io => c.loop tls io
  | .message topic payload => c.onMessage topic payload
  | .drain => c.drain
  | .otherWork =>
      if c.ring.length + 1 < DEFERRED_RING_SIZE then { c with ring := c.ring ++ [.other] } else c
  | .requestReinit => c.requestReinit
  | .sessionEnds => { c with session := none }
  | .setWifi up => { c with wifiUp := up }
  | .setCellular active tcp => { c with cellularActive := active, cellularTcp := tcp }
  | .writeConfig live topicPrefix shellServesMqtt => { c with live, topicPrefix, shellServesMqtt }
  | .storeCert certPEM keyPEM io => { c with certs := (c.certs.storeClientCert certPEM keyPEM io).1 }
  | .applyCert has io => { c with certs := (c.certs.certApply tls has io).1 }
  | .clearCert io => { c with certs := (c.certs.clearClientCert io).1 }

/-! ## The invariant -/

/-- What the marked mode promises of a session. -/
def Genuine (tls : Mbedtls) (s : Session) : Prop :=
  s.attached.isSome = true → s.port = MQTT_MTLS_PORT ∧
    ∃ cert key, s.loaded = some (cert, key) ∧ tls.accepts cert key = true ∧
      s.attached = some (cert, key)

/-- What every queued command, every mark and every judgement is. -/
structure CommandsInv (tls : Mbedtls) (c : Link) : Prop where
  queued : ∀ command, Deferred.cli command ∈ c.ring → command.auth = command.speaker.mode
  inbound : ∀ m ∈ c.inbound, m.1 = m.2.mode ∧ Genuine tls m.2
  judged : ∀ m ∈ c.judged, m.1 = m.2.mode

/-- The flag tells the mode of the live session, which is on a transport. -/
structure LinkInv (tls : Mbedtls) (c : Link) : Prop where
  live : ∀ s ∈ c.session, c.mtlsActive = s.attached.isSome ∧ Genuine tls s
  carried : c.session.isSome = true → c.transport ≠ .none
  refused : c.tlsRefused = true → c.session = none
  commands : CommandsInv tls c

variable {tls : Mbedtls}

/-- The ring and the two lists are what they were. -/
structure SameCommands (c c' : Link) : Prop where
  ring : c'.ring = c.ring
  inbound : c'.inbound = c.inbound
  judged : c'.judged = c.judged

theorem CommandsInv.same {c c' : Link} (h : CommandsInv tls c) (same : SameCommands c c') :
    CommandsInv tls c' where
  queued := same.ring ▸ h.queued
  inbound := same.inbound ▸ h.inbound
  judged := same.judged ▸ h.judged

/-- Without a session only the commands matter. -/
theorem LinkInv.withoutSession {c : Link} (h : CommandsInv tls c) (gone : c.session = none) :
    LinkInv tls c where
  live := by simp [gone]
  carried := by simp [gone]
  refused := fun _ => gone
  commands := h

/-! ### Connecting -/

/-- A pair that validated was loaded by this connect and lies in the buffers. -/
theorem connectLoad_validated {u : CertUnit} {has : HasIo} {io : CheckIo}
    (validated : (u.connectLoad tls has io).2 = true) :
    ∃ cert key, Link.loadedAt u has io = some (cert, key) ∧ tls.accepts cert key = true ∧
      Link.buffers (u.connectLoad tls has io).1 = some (cert, key) := by
  simp only [CertUnit.connectLoad] at validated
  cases present : u.hasClientCert has with
  | false => simp [present] at validated
  | true =>
      cases held : u.buffersHeld io with
      | false => simp [present, held] at validated
      | true =>
          cases loaded : u.loadClientCert io.load with
          | none => simp [present, held, loaded] at validated
          | some pair =>
              obtain ⟨cert, key⟩ := pair
              cases checked : validateClientCertKey tls io.heap cert key with
              | false => simp [present, held, loaded, checked] at validated
              | true =>
                  refine ⟨cert, key, ?_, (validateClientCertKey_iff.mp checked).2, ?_⟩
                  · simp [Link.loadedAt, present, held, loaded]
                  · simp [CertUnit.connectLoad, Link.buffers, present, held, loaded, checked]

/-- The session of a dial is what the flag says of it. -/
theorem dialSession_genuine (tls : Mbedtls) (c : Link) (io : DialIo) :
    (c.prepare tls io).mtlsActive =
        ((c.prepare tls io).dialSession (Link.loadedAt c.certs io.has io.check)).attached.isSome ∧
      Genuine tls
        ((c.prepare tls io).dialSession (Link.loadedAt c.certs io.has io.check)) := by
  simp only [Link.prepare, Link.dialSession, Genuine]
  by_cases validated : (c.certs.connectLoad tls io.has io.check).2 = true
  · obtain ⟨cert, key, loaded, accepted, held⟩ := connectLoad_validated validated
    by_cases port : c.broker.port = MQTT_MTLS_PORT
    · simp [validated, port, held, loaded, accepted]
    · simp [port]
  · simp [validated]

theorem connect_sameCommands (tls : Mbedtls) (c : Link) (io : DialIo) :
    SameCommands c (c.connect tls io) := by
  simp only [Link.connect]
  split_ifs <;> exact ⟨rfl, rfl, rfl⟩

/-- A connect that dials leaves no session or one that is what the flag says. -/
theorem connect_dials {c : Link} {io : DialIo} (h : CommandsInv tls c)
    (goes : (c.tlsRefused || c.transportWanted = .none) = false) :
    LinkInv tls (c.connect tls io) := by
  have commands := h.same (connect_sameCommands tls c io)
  have connected : c.connect tls io = c.forgetMode.dial tls io := by
    simp only [Link.connect, goes, Bool.false_eq_true, if_false]
  obtain ⟨accepts, wanted⟩ := Bool.or_eq_false_iff.mp goes
  obtain ⟨flag, genuine⟩ := dialSession_genuine tls c.forgetMode io
  rw [connected] at commands ⊢
  refine ⟨?_, fun _ => of_decide_eq_false wanted, ?_, commands⟩
  · intro s up
    simp only [Link.dial, Option.mem_def] at up ⊢
    split_ifs at up
    obtain rfl := Option.some.inj up
    exact ⟨flag, genuine⟩
  · intro refused
    have : c.tlsRefused = true := refused
    simp [accepts] at this

/-- A connect with no session up, whether or not it returns early. -/
theorem connect_inv {c : Link} {io : DialIo} (h : CommandsInv tls c) (down : c.session = none) :
    LinkInv tls (c.connect tls io) := by
  cases early : c.tlsRefused || c.transportWanted = .none with
  | false => exact connect_dials h early
  | true =>
      have commands := h.same (connect_sameCommands tls c io)
      refine LinkInv.withoutSession commands ?_
      simp only [Link.connect, early, if_true]
      exact down

/-! ### One event -/

/-- The flag may be wrong after a reinit whose connect returned early, and then the transport
check that follows drops the session. -/
theorem reinit_then_switch {c : Link} (h : LinkInv tls c) (io : DialIo) :
    LinkInv tls ((c.serviceReinit tls io).switchTransport) := by
  have switch {c : Link} (h : LinkInv tls c) : LinkInv tls c.switchTransport := by
    simp only [Link.switchTransport]
    split_ifs
    · exact LinkInv.withoutSession ⟨h.commands.queued, h.commands.inbound, h.commands.judged⟩ rfl
    · exact h
  cases pending : c.reinitPending with
  | false =>
      have idle : c.serviceReinit tls io = c := by simp [Link.serviceReinit, pending]
      rw [idle]
      exact switch h
  | true =>
      have commands : CommandsInv tls c.takeReinit :=
        ⟨h.commands.queued, h.commands.inbound, h.commands.judged⟩
      simp only [Link.serviceReinit, pending, if_true]
      cases early : c.takeReinit.tlsRefused || c.takeReinit.transportWanted = .none with
      | false => exact switch (connect_dials commands early)
      | true =>
          have bails : c.takeReinit.connect tls io = c.takeReinit.forgetMode := by
            simp only [Link.connect, early, if_true]
          rw [bails]
          refine LinkInv.withoutSession ?_ ?_
          · simp only [Link.switchTransport]
            split_ifs <;> exact ⟨commands.queued, commands.inbound, commands.judged⟩
          · simp only [Link.switchTransport]
            split_ifs with switched
            · rfl
            · rcases (Bool.or_eq_true _ _).mp early with refused | unwanted
              · exact h.refused refused
              · by_contra up
                have isUp : c.session.isSome = true := Option.isSome_iff_ne_none.mpr up
                have wanted : c.takeReinit.forgetMode.transportWanted = .none :=
                  of_decide_eq_true unwanted
                refine switched ⟨isUp, ?_⟩
                rw [wanted]
                exact (h.carried isUp).symm

theorem loop_inv {c : Link} {io : LoopIo} (h : LinkInv tls c) : LinkInv tls (c.loop tls io) := by
  simp only [Link.loop]
  have switched := reinit_then_switch h io.reinit
  generalize (c.serviceReinit tls io.reinit).switchTransport = c at switched
  simp only [Link.pumpOrRetry]
  split_ifs with up
  · exact LinkInv.withoutSession
      ⟨switched.commands.queued, switched.commands.inbound, switched.commands.judged⟩ rfl
  · exact switched
  · exact switched
  · exact connect_inv switched.commands (by simpa using up)
  · exact switched

theorem cliAuthModeFor_eq {s : Session} {mtls : Bool} (same : mtls = s.attached.isSome) :
    Link.cliAuthModeFor mtls = s.mode := by
  rw [same]
  rfl

/-- A message is marked with the mode of the session that delivers it, and a command keeps the
mark. -/
theorem onMessage_inv {c : Link} {topic payload : Str} (h : LinkInv tls c) :
    LinkInv tls (c.onMessage topic payload) := by
  cases up : c.session with
  | none => simpa [Link.onMessage, up] using h
  | some speaker =>
      obtain ⟨flag, genuine⟩ := h.live speaker up
      have mark := cliAuthModeFor_eq flag
      have inbound : ∀ m ∈ c.inbound ++ [(Link.cliAuthModeFor c.mtlsActive, speaker)],
          m.1 = m.2.mode ∧ Genuine tls m.2 := by
        intro m mem
        rcases List.mem_append.mp mem with old | new
        · exact h.commands.inbound m old
        · obtain rfl := List.mem_singleton.mp new
          exact ⟨mark, genuine⟩
      simp only [Link.onMessage, up, Link.cliInboundHandler]
      split
      · exact ⟨fun s live => h.live s (up ▸ live), fun _ => h.carried (up ▸ rfl),
          fun refused => up ▸ h.refused refused, h.commands.queued, inbound, h.commands.judged⟩
      · split_ifs
        · refine ⟨fun s live => h.live s (up ▸ live), fun _ => h.carried (up ▸ rfl),
            fun refused => up ▸ h.refused refused, ?_, inbound, h.commands.judged⟩
          intro command mem
          rcases List.mem_append.mp mem with old | new
          · exact h.commands.queued command old
          · obtain rfl := Deferred.cli.inj (List.mem_singleton.mp new)
            exact mark
        · exact ⟨fun s live => h.live s (up ▸ live), fun _ => h.carried (up ▸ rfl),
            fun refused => up ▸ h.refused refused, h.commands.queued, inbound, h.commands.judged⟩

theorem drain_inv {c : Link} (h : LinkInv tls c) : LinkInv tls c.drain := by
  cases ring : c.ring with
  | nil => simpa [Link.drain, ring] using h
  | cons entry rest =>
      have queued : ∀ command, Deferred.cli command ∈ rest →
          command.auth = command.speaker.mode := fun command mem =>
        h.commands.queued command (ring ▸ List.mem_cons_of_mem _ mem)
      cases entry with
      | other =>
          simp only [Link.drain, ring]
          exact ⟨h.live, h.carried, h.refused, queued, h.commands.inbound, h.commands.judged⟩
      | cli command =>
          simp only [Link.drain, ring]
          refine ⟨h.live, h.carried, h.refused, queued, h.commands.inbound, ?_⟩
          intro m mem
          rcases List.mem_append.mp mem with old | new
          · exact h.commands.judged m old
          · obtain rfl := List.mem_singleton.mp new
            exact h.commands.queued command (ring ▸ List.mem_cons_self)

theorem boot_inv (c : Link) (io : BeginIo) : LinkInv tls (c.restarted.begin tls io) := by
  have commands : CommandsInv tls c.restarted := ⟨by simp [Link.restarted],
    by simp [Link.restarted], by simp [Link.restarted]⟩
  simp only [Link.begin]
  split_ifs
  · exact LinkInv.withoutSession commands rfl
  · exact LinkInv.withoutSession ⟨commands.queued, commands.inbound, commands.judged⟩ rfl
  · exact connect_inv ⟨commands.queued, commands.inbound, commands.judged⟩ rfl

theorem linkStep_inv (c : Link) (e : LinkEvent) (h : LinkInv tls c) :
    LinkInv tls (linkStep tls c e) := by
  cases e with
  | boot io => exact boot_inv c io
  | loop io => exact loop_inv h
  | message topic payload => exact onMessage_inv h
  | drain => exact drain_inv h
  | otherWork =>
      simp only [linkStep]
      split_ifs
      · refine ⟨h.live, h.carried, h.refused, ?_, h.commands.inbound, h.commands.judged⟩
        intro command mem
        exact h.commands.queued command (by simpa using mem)
      · exact h
  | requestReinit | sessionEnds =>
      exact LinkInv.withoutSession
        ⟨h.commands.queued, h.commands.inbound, h.commands.judged⟩ rfl
  | setWifi _ | setCellular _ _ | writeConfig _ _ _ | storeCert _ _ _ | applyCert _ _
    | clearCert _ =>
      exact ⟨h.live, h.carried, h.refused, h.commands.queued, h.commands.inbound,
        h.commands.judged⟩

/-! ## Runs -/

/-- From a boot on, whatever happens: a message marked as mTLS was delivered by a session whose
dial used the mTLS port and attached the pair it loaded, which the library accepts; and every
command is judged by the mode of the session that delivered it. -/
theorem session_auth_sound (tls : Mbedtls) (c : Link) (boot : BeginIo) (es : List LinkEvent) :
    (∀ m ∈ (run (linkStep tls) c (.boot boot :: es)).inbound, m.1 = .mtls →
      m.2.port = MQTT_MTLS_PORT ∧ ∃ cert key, m.2.loaded = some (cert, key) ∧
        tls.accepts cert key = true ∧ m.2.attached = some (cert, key)) ∧
    ∀ m ∈ (run (linkStep tls) c (.boot boot :: es)).judged, m.1 = m.2.mode := by
  have start : LinkInv tls (linkStep tls c (.boot boot)) := boot_inv c boot
  have inv : LinkInv tls (run (linkStep tls) (linkStep tls c (.boot boot)) es) :=
    run_invariant (fun s e h => linkStep_inv s e h) start es
  refine ⟨?_, inv.commands.judged⟩
  intro m mem mtls
  obtain ⟨mark, genuine⟩ := inv.commands.inbound m mem
  apply genuine
  rw [mark] at mtls
  by_contra unattached
  simp [Session.mode, unattached] at mtls

end Thesada.Mqtt
