import Mathlib.Data.List.Forall2
import Thesada.Identity.Keypair
import Thesada.Mqtt.Manifest
import Thesada.Temperature.Roster

/-!
# Home Assistant discovery

`publishDiscovery` announces each sensor of the config with a retained config topic, which names
the topic of its value. The values come from `TemperatureModule` and `ADS1115Module`, which derive
names and topics from the same config on their own. A topic that does not fit its buffer is not
built, and then nothing is announced or published under it.

A config topic that 26.11.1 clipped is cleared after the announcements, unless the session has
published it.
-/

namespace Thesada.Mqtt

open CString Json Thesada.Config Thesada.Identity Thesada.Temperature

def HA_LEGACY_UID_CAP : Nat := 48

/-- `uid`: the device id, a slug and `_current`, with their terminators. -/
def UID_CAP : Nat := IDENTITY_ID_CAP + 32 + 9

def K_ADS1115 : Str := "ads1115".toList
def K_CHANNELS : Str := "channels".toList

def formatTopic (topic : Str) : Option Str :=
  if topic = [] ∨ MQTT_TOPIC_CAP ≤ topic.length then none else some topic

def topicPrefix (doc : Json) : Str :=
  ((doc.member K_MQTT).member K_TOPIC_PREFIX).asStr.getD "thesada/node".toList

def availTopic (doc : Json) : Option Str := formatTopic (topicPrefix doc ++ "/status".toList)

/-- The slug of a name in `slug[32]`. -/
def makeSlug (name : Str) : Str := slug (name.take 31)

/-- The elements of an array member; none where it is no array. -/
def arrayOf (k : Str) (doc : Json) : List Json :=
  match doc.member k with
  | .arr items => items
  | _ => []

inductive SensorKind where
  | temperature
  | current
  | power
  deriving DecidableEq

def SensorKind.level : SensorKind → Str
  | .temperature => "temperature".toList
  | .current => "current".toList
  | .power => "power".toList

/-- A topic for the value of a sensor. -/
def sensorTopic (doc : Json) (kind : SensorKind) (name : Str) : Option Str :=
  formatTopic (topicPrefix doc ++ "/sensor/".toList ++ kind.level ++ '/' :: makeSlug name)

/-! ## What the modules publish -/

/-- The channels that `ADS1115Module` loads: those of the devices, or of the scalar form. -/
def loadedChannels (doc : Json) : List Json :=
  match arrayOf "devices".toList (doc.member K_ADS1115) with
  | [] => arrayOf K_CHANNELS (doc.member K_ADS1115)
  | devs => devs.flatMap (arrayOf K_CHANNELS)

/-- The entries of the config that the module of a kind loads. -/
def loadedSensors (doc : Json) : SensorKind → List Json
  | .temperature => (sensorsOf doc).getD []
  | _ => loadedChannels doc

/-- `name[32]` of a channel. -/
def channelName (ch : Json) : Str := copyName (nameOf ch)

/-- The topic on which the module of a kind publishes the value of an entry. A probe is on the
roster only with an address of sixteen characters. -/
def published (doc : Json) (kind : SensorKind) (sensor : Json) : Option Str :=
  match kind with
  | .temperature => (configSensor sensor).bind fun s => sensorTopic doc kind s.name
  | _ => sensorTopic doc kind (channelName sensor)

/-! ## What is announced -/

abbrev DeviceId := { id : Str // identityDeviceIdValid id = true }

structure Entity where
  uid : Str
  name : Str
  stateTopic : Str
  unit : Str
  devClass : Str
  stateClass : Str
  entityCategory : Str
  expireAfterS : Nat
  deriving DecidableEq

/-- A retained publish: its topic, and the members of its payload that are not fixed. -/
structure Announcement where
  topic : Str
  entity : Entity
  availTopic : Str
  devId : Str
  devName : Str
  deriving DecidableEq

def configTopic (devId : DeviceId) (uid : Str) : Option Str :=
  formatTopic ("homeassistant/sensor/".toList ++ devId ++ '/' :: uid ++ "/config".toList)

/-- A document as a condition. -/
def holds : Json → Bool
  | .null => false
  | .bool b => b
  | .int n => n ≠ 0
  | .float bits => bits % 2 ^ 63 ≠ 0
  | _ => true

def deviceName (doc : Json) : Str :=
  let device := doc.member "device".toList
  let friendly := device.member "friendly_name".toList
  (if holds friendly then friendly else device.member "name".toList).asStr.getD
    "Thesada Node".toList

def uidOf (devId : DeviceId) (rest : Str) : Str := (devId ++ '_' :: rest).take (UID_CAP - 1)

/-- The texts of an entity that its name and topics do not fix. -/
structure EntityTexts where
  unit : Str
  devClass : String
  stateClass : String
  entityCategory : String
  expireAfterS : Nat

/-- `disc`, for a value's topic that fits. -/
def disc (doc : Json) (devId : DeviceId) (uid name : Str) (stateTopic : Option Str)
    (texts : EntityTexts) : Option Announcement :=
  match availTopic doc, stateTopic, configTopic devId uid with
  | some availTopic, some stateTopic, some topic =>
      some
        { topic, availTopic, devId
          entity :=
            { uid, name, stateTopic
              unit := texts.unit
              devClass := texts.devClass.toList
              stateClass := texts.stateClass.toList
              entityCategory := texts.entityCategory.toList
              expireAfterS := texts.expireAfterS }
          devName := deviceName doc }
  | _, _, _ => none

def TEMP_EXPIRE_INTERVALS : Nat := 3

def tempExpireAfterS (intervalS : Nat) : Nat :=
  if (2 ^ 32 - 1) / TEMP_EXPIRE_INTERVALS < intervalS then 2 ^ 32 - 1
  else intervalS * TEMP_EXPIRE_INTERVALS

/-- `interval_s | 60` as a `uint32_t`: an integer that is no `int` counts as absent. -/
def intervalS (doc : Json) : Nat :=
  let stored := ((doc.member K_TEMPERATURE).member "interval_s".toList).asInt
  (((stored.filter fun n => -(2 ^ 31) ≤ n && n < 2 ^ 31).getD 60) % 2 ^ 32).toNat

def haUnit (doc : Json) : Str :=
  let tunit := ((doc.member K_TEMPERATURE).member "unit".toList).asStr.getD ['C']
  '\xc2' :: '\xb0' :: (if tunit.head? = some 'F' ∨ tunit.head? = some 'f' then ['F'] else ['C'])

/-- The name that an entry is announced under. -/
def announcedName (sensor : Json) : Str :=
  (sensor.member "name".toList).asStr.getD "unknown".toList

/-- The part of `uid` after the device id. -/
def sensorUid (kind : SensorKind) (sensor : Json) : Str :=
  makeSlug (announcedName sensor) ++
    match kind with
    | .temperature => "_temp".toList
    | .current => "_current".toList
    | .power => "_power".toList

def SensorKind.texts (doc : Json) : SensorKind → EntityTexts
  | .temperature =>
      ⟨haUnit doc, "temperature", "measurement", "", tempExpireAfterS (intervalS doc)⟩
  | .current => ⟨['A'], "current", "measurement", "", 0⟩
  | .power => ⟨['W'], "power", "measurement", "", 0⟩

def SensorKind.entityName (name : Str) : SensorKind → Str
  | .power => (name ++ " Power".toList).take 63
  | _ => name

def announceSensor (doc : Json) (devId : DeviceId) (kind : SensorKind) (sensor : Json) :
    Option Announcement :=
  let name := announcedName sensor
  disc doc devId (uidOf devId (sensorUid kind sensor)) (kind.entityName name)
    (sensorTopic doc kind name) (kind.texts doc)

/-- The entries that are announced as a kind, and in which order a pass takes them. -/
def announcedSensors (doc : Json) : List (SensorKind × Json) :=
  ((sensorsOf doc).getD []).map (SensorKind.temperature, ·) ++
    (arrayOf K_CHANNELS (doc.member K_ADS1115)).flatMap fun ch => [(.current, ch), (.power, ch)]

/-- An entity that every config has. -/
def announceFixed (doc : Json) (devId : DeviceId) (uid path name unit : String)
    (devClass stateClass entityCategory : String) : Option Announcement :=
  disc doc devId (uidOf devId uid.toList) name.toList
    (formatTopic (topicPrefix doc ++ "/sensor/".toList ++ path.toList))
    ⟨unit.toList, devClass, stateClass, entityCategory, 0⟩

def flag (doc : Json) (k : Str) : Bool :=
  match doc.member k with
  | .bool b => b
  | _ => true

def fixedEntities (doc : Json) (devId : DeviceId) : List (Option Announcement) :=
  let disc := announceFixed doc devId
  (if flag (doc.member "battery".toList) "enabled".toList then
    [disc "battery_percent" "battery/percent" "Battery" "%" "battery" "measurement" "",
      disc "battery_voltage" "battery/voltage" "Battery Voltage" "V" "voltage" "measurement" "",
      disc "battery_charging" "battery/charging" "Battery Charge State" "" "" "" ""]
  else []) ++
  [disc "wifi_rssi" "wifi/rssi" "WiFi RSSI" "dBm" "signal_strength" "measurement" "diagnostic",
    disc "wifi_ssid" "wifi/ssid" "WiFi SSID" "" "" "" "diagnostic",
    disc "wifi_ip" "wifi/ip" "WiFi IP" "" "" "" "diagnostic",
    disc "heap_free" "heap/free" "Free Heap" "B" "" "measurement" "diagnostic",
    disc "heap_min_free" "heap/min_free" "Min Free Heap" "B" "" "measurement" "diagnostic",
    disc "heap_max_alloc_block" "heap/max_alloc_block" "Max Alloc Block" "B" "" "measurement"
      "diagnostic",
    disc "heap_psram_free" "heap/psram_free" "Free PSRAM" "B" "" "measurement" "diagnostic",
    disc "uptime" "uptime" "Uptime" "s" "duration" "total_increasing" "diagnostic"]

def announcements (doc : Json) (devId : DeviceId) : List Announcement :=
  (announcedSensors doc).filterMap (fun p => announceSensor doc devId p.1 p.2) ++
    (fixedEntities doc devId).filterMap id

/-! ## The pass -/

/-- What 26.11.1 made of a uid, where it clipped it. -/
def haLegacyUid (uid : Str) : Option Str :=
  if uid.length < HA_LEGACY_UID_CAP then none else some (uid.take (HA_LEGACY_UID_CAP - 1))

/-- The config topics that 26.11.1 clipped, also those of sensors that are not announced. -/
def legacyTopics (doc : Json) (devId : DeviceId) : List Str :=
  (announcedSensors doc).filterMap fun p =>
    (haLegacyUid (uidOf devId (sensorUid p.1 p.2))).bind (configTopic devId)

def haDiscovery (doc : Json) : Bool := flag (doc.member K_MQTT) "ha_discovery".toList

/-- A pass, with whether the client is connected at each of its publishes: the session after it,
and the topics that it clears. -/
def publishDiscovery (s : RetainedSession) (doc : Json) (devId : Option DeviceId)
    (up : Nat → Bool) : RetainedSession × List Str :=
  if !haDiscovery doc then (s, [])
  else
    match devId, availTopic doc with
    | some devId, some _ =>
        let calls : List RetainedCall :=
          (announcements doc devId).zipIdx.map fun p => ⟨p.1.topic, up p.2⟩
        let s := s.publishAll calls
        let cleared := (legacyTopics doc devId).zipIdx.filter fun p =>
          !s.retainedTopics.contains p.1 && up (calls.length + p.2)
        (s, cleared.map Prod.fst)
    | _, _ => (s, [])

/-! ## Names -/

/-- Equal up to case, and a space against an underscore. -/
def Alike (c d : Char) : Prop := c.toLower = d.toLower ∨ c ∈ [' ', '_'] ∧ d ∈ [' ', '_']

/-- The names agree as far as a slug reads them. -/
def SameName (name other : Str) : Prop := List.Forall₂ Alike (name.take 31) (other.take 31)

theorem toLower_eq_iff {c d : Char} (blank : d ∈ [' ', '_']) : c.toLower = d ↔ c = d := by
  obtain ⟨small, fixed⟩ : d.toNat < 97 ∧ d.toLower = d := by
    have each : ∀ e ∈ [' ', '_'], e.toNat < 97 ∧ e.toLower = e := by
      simp only [List.forall_mem_cons, List.not_mem_nil, false_implies, implies_true, and_true]
      decide
    exact each d blank
  refine ⟨fun same => ?_, fun same => same ▸ fixed⟩
  unfold Char.toLower at same
  split at same
  · next upper =>
      -- A capital letter is folded to a letter behind both.
      have range : 65 ≤ c.val.toNat ∧ c.val.toNat ≤ 90 := by
        simpa [UInt32.le_iff_toNat_le] using upper
      have value : (c.val + 32).toNat = d.toNat := by
        rw [← same]
        rfl
      rw [UInt32.toNat_add] at value
      change (c.val.toNat + 32) % 4294967296 = d.toNat at value
      omega
  · exact same

def slugChar (c : Char) : Char := (if c = ' ' then '_' else c).toLower

theorem slugChar_eq_iff (c d : Char) : slugChar c = slugChar d ↔ Alike c d := by
  have blank : ∀ e ∈ [' ', '_'], slugChar e = '_' ∧ e.toLower = e := by
    simp only [List.forall_mem_cons, List.not_mem_nil, false_implies, implies_true, and_true]
    decide
  have other : ∀ e, e ∉ [' ', '_'] → slugChar e = e.toLower := by
    intro e outside
    rw [slugChar, if_neg]
    rintro rfl
    exact outside (by decide)
  -- A blank is folded to no letter and no letter to a blank.
  have apart : ∀ e f, e ∈ [' ', '_'] → f ∉ [' ', '_'] → slugChar e ≠ slugChar f ∧ ¬Alike e f := by
    intro e f inside outside
    obtain ⟨under, fixed⟩ := blank e inside
    constructor
    · rw [under, other f outside]
      intro same
      obtain rfl : f = '_' := (toLower_eq_iff (by decide)).mp same.symm
      exact outside (by decide)
    · rintro (same | both)
      · rw [fixed] at same
        obtain rfl : f = e := (toLower_eq_iff inside).mp same.symm
        exact outside inside
      · exact outside both.2
  by_cases left : c ∈ [' ', '_']
  · by_cases right : d ∈ [' ', '_']
    · rw [(blank c left).1, (blank d right).1]
      exact iff_of_true rfl (Or.inr ⟨left, right⟩)
    · exact iff_of_false (apart c d left right).1 (apart c d left right).2
  · by_cases right : d ∈ [' ', '_']
    · obtain ⟨folded, named⟩ := apart d c right left
      refine iff_of_false folded.symm fun alike => named ?_
      exact alike.imp Eq.symm And.symm
    · rw [other c left, other d right]
      exact ⟨Or.inl, fun alike => alike.resolve_right fun both => left both.1⟩

theorem makeSlug_eq_iff (name other : Str) :
    makeSlug name = makeSlug other ↔ SameName name other := by
  unfold makeSlug slug SameName
  rw [← List.forall₂_eq_eq_eq, List.forall₂_map_left_iff, List.forall₂_map_right_iff]
  have same : (fun c d => slugChar c = slugChar d) = Alike :=
    funext fun c => funext fun d => propext (slugChar_eq_iff c d)
  exact iff_of_eq (congrArg (fun R => List.Forall₂ R _ _) same)

theorem length_makeSlug (name : Str) : (makeSlug name).length = min 31 name.length := by
  rw [makeSlug, slug, List.length_map, List.length_take]

theorem makeSlug_copyName (name : Str) : makeSlug (copyName name) = makeSlug name := by
  rw [makeSlug, copyName, List.take_take]
  rfl

theorem sensorTopic_copyName (doc : Json) (kind : SensorKind) (name : Str) :
    sensorTopic doc kind (copyName name) = sensorTopic doc kind name := by
  rw [sensorTopic, makeSlug_copyName]
  rfl

/-! ## Topics that fit -/

theorem formatTopic_eq_some {topic text : Str} :
    formatTopic topic = some text ↔ topic = text ∧ topic ≠ [] ∧ topic.length < MQTT_TOPIC_CAP := by
  unfold formatTopic
  split
  · next refused =>
      refine iff_of_false (fun none => by cases none) ?_
      rintro ⟨-, written, fits⟩
      exact refused.elim written (Nat.not_le_of_lt fits)
  · next fits =>
      rw [Option.some.injEq]
      refine ⟨fun same => ⟨same, ?_⟩, And.left⟩
      exact ⟨fun empty => fits (Or.inl empty), Nat.lt_of_not_le fun long => fits (Or.inr long)⟩

/-- The status topic fits where the topic of a sensor does. -/
theorem availTopic_isSome {doc : Json} {kind : SensorKind} {name : Str}
    (fits : (sensorTopic doc kind name).isSome) : (availTopic doc).isSome := by
  obtain ⟨topic, made⟩ := Option.isSome_iff_exists.mp fits
  obtain ⟨-, -, short⟩ := formatTopic_eq_some.mp made
  have status : "/status".toList.length = 7 := by decide
  have sensor : "/sensor/".toList.length = 8 := by decide
  refine Option.isSome_iff_exists.mpr ⟨_, formatTopic_eq_some.mpr ⟨rfl, ?_, ?_⟩⟩
  · exact List.append_ne_nil_of_right_ne_nil _ (List.ne_nil_of_length_pos (by omega))
  · simp only [List.length_append] at short ⊢
    omega

/-- The config topic of a uid that is not clipped. -/
def configText (devId : DeviceId) (rest : Str) : Str :=
  "homeassistant/sensor/".toList ++ devId ++ '/' :: (devId ++ '_' :: rest) ++ "/config".toList

theorem configText_injective {devId : DeviceId} {rest other : Str}
    (same : configText devId rest = configText devId other) : rest = other := by
  have uid := List.append_cancel_left (List.append_cancel_right same)
  exact List.cons_inj_right _ |>.mp (List.append_cancel_left (List.cons_inj_right _ |>.mp uid))

theorem configTopic_uidOf (devId : DeviceId) {rest : Str} (short : rest.length ≤ 39) :
    configTopic devId (uidOf devId rest) = some (configText devId rest) := by
  have id : devId.1.length < IDENTITY_ID_CAP := identityDeviceIdValid_length devId.2
  have start : "homeassistant/sensor/".toList.length = 21 := by decide
  have finish : "/config".toList.length = 7 := by decide
  have whole : uidOf devId rest = devId ++ '_' :: rest := by
    refine List.take_of_length_le ?_
    simp only [List.length_append, List.length_cons, UID_CAP, IDENTITY_ID_CAP] at id ⊢
    omega
  rw [configTopic, whole]
  refine formatTopic_eq_some.mpr ⟨rfl, ?_, ?_⟩
  · exact List.append_ne_nil_of_right_ne_nil _ (List.ne_nil_of_length_pos (by omega))
  · simp only [List.length_append, List.length_cons, MQTT_TOPIC_CAP, IDENTITY_ID_CAP] at id ⊢
    omega

theorem length_sensorUid (kind : SensorKind) (sensor : Json) :
    (sensorUid kind sensor).length ≤ 39 := by
  have slug := length_makeSlug (announcedName sensor)
  have suffix : "_temp".toList.length = 5 ∧ "_current".toList.length = 8 ∧
      "_power".toList.length = 6 := by decide
  cases kind with
  | _ =>
      simp only [sensorUid, List.length_append]
      omega

/-! ## Announcements -/

section

variable {doc : Json} {devId : DeviceId} {kind : SensorKind} {sensor : Json}

theorem disc_eq_some {uid name : Str} {stateTopic : Option Str} {texts : EntityTexts}
    {a : Announcement} (made : disc doc devId uid name stateTopic texts = some a) :
    stateTopic = some a.entity.stateTopic ∧ configTopic devId uid = some a.topic := by
  unfold disc at made
  split at made
  · next state config =>
      cases made
      exact ⟨rfl, config⟩
  · cases made

/-- An entry is announced where its topic fits, with that topic. -/
theorem announceSensor_stateTopic :
    (announceSensor doc devId kind sensor).map (·.entity.stateTopic) =
      sensorTopic doc kind (announcedName sensor) := by
  cases made : announceSensor doc devId kind sensor with
  | some a => exact (disc_eq_some made).1.symm
  | none =>
      cases state : sensorTopic doc kind (announcedName sensor) with
      | none => rfl
      | some topic =>
          have config := configTopic_uidOf devId (length_sensorUid kind sensor)
          have status := availTopic_isSome (Option.isSome_of_eq_some state)
          obtain ⟨avail, status⟩ := Option.isSome_iff_exists.mp status
          simp only [announceSensor, disc, state, status, config] at made
          cases made

theorem announceSensor_topic {a : Announcement}
    (made : announceSensor doc devId kind sensor = some a) :
    a.topic = configText devId (sensorUid kind sensor) := by
  have config := (disc_eq_some made).2
  rw [configTopic_uidOf devId (length_sensorUid kind sensor)] at config
  exact (Option.some.inj config).symm

/-- Two announced entries of a kind have one config topic where their names slug alike. -/
theorem announceSensor_topic_eq_iff {other : Json} {a b : Announcement}
    (made : announceSensor doc devId kind sensor = some a)
    (made' : announceSensor doc devId kind other = some b) :
    a.topic = b.topic ↔ SameName (announcedName sensor) (announcedName other) := by
  rw [announceSensor_topic made, announceSensor_topic made', ← makeSlug_eq_iff]
  constructor
  · intro same
    exact List.append_cancel_right (configText_injective same)
  · intro same
    refine congrArg (configText devId) ?_
    show makeSlug (announcedName sensor) ++ _ = makeSlug (announcedName other) ++ _
    rw [same]

end

/-- An entry whose module takes its name from the config as well: a probe on the roster with a
name that is not empty, or a channel with a name, where the config lists no devices. -/
def Named (doc : Json) : SensorKind → Json → Prop
  | .temperature, s => (addressOf s).length = 16 ∧ nameOf s ≠ []
  | _, ch =>
      arrayOf "devices".toList (doc.member K_ADS1115) = [] ∧
        (ch.member "name".toList).asStr.isSome

section

variable {doc : Json} {kind : SensorKind} {sensor : Json}

theorem announcedName_of_isSome (named : (sensor.member "name".toList).asStr.isSome) :
    announcedName sensor = nameOf sensor := by
  obtain ⟨name, same⟩ := Option.isSome_iff_exists.mp named
  simp only [announcedName, nameOf, same, Option.getD_some]

theorem Named.published (named : Named doc kind sensor) :
    published doc kind sensor = sensorTopic doc kind (announcedName sensor) := by
  cases kind with
  | temperature =>
      obtain ⟨address, name⟩ := named
      have given : (sensor.member "name".toList).asStr.isSome := by
        by_contra absent
        rw [Option.not_isSome_iff_eq_none] at absent
        exact name (by rw [nameOf, absent, Option.getD_none])
      rw [announcedName_of_isSome given, ← sensorTopic_copyName]
      simp [Mqtt.published, configSensor, address, name]
  | _ =>
      rw [announcedName_of_isSome named.2, ← sensorTopic_copyName]
      rfl

theorem loadedChannels_scalar (scalar : arrayOf "devices".toList (doc.member K_ADS1115) = []) :
    loadedChannels doc = arrayOf K_CHANNELS (doc.member K_ADS1115) := by
  rw [loadedChannels, scalar]

theorem mem_announcedSensors :
    (kind, sensor) ∈ announcedSensors doc ↔
      match kind with
      | .temperature => sensor ∈ (sensorsOf doc).getD []
      | _ => sensor ∈ arrayOf K_CHANNELS (doc.member K_ADS1115) := by
  cases kind <;> simp [announcedSensors]

/-- A probe is announced from the list that its module loads, and a channel as well where the
config lists no devices. -/
theorem loaded_iff_announced
    (scalar : kind = .temperature ∨ arrayOf "devices".toList (doc.member K_ADS1115) = []) :
    sensor ∈ loadedSensors doc kind ↔ (kind, sensor) ∈ announcedSensors doc := by
  rw [mem_announcedSensors]
  cases kind with
  | temperature => exact Iff.rfl
  | _ =>
      rw [← loadedChannels_scalar (scalar.resolve_left SensorKind.noConfusion)]
      exact Iff.rfl

theorem Named.scalar (named : Named doc kind sensor) :
    kind = .temperature ∨ arrayOf "devices".toList (doc.member K_ADS1115) = [] := by
  cases kind with
  | temperature => exact Or.inl rfl
  | _ => exact Or.inr named.1

theorem sensorTopic_isSome {name other : Str} (fits : (sensorTopic doc kind name).isSome)
    (short : (makeSlug other).length ≤ (makeSlug name).length) :
    (sensorTopic doc kind other).isSome := by
  obtain ⟨topic, made⟩ := Option.isSome_iff_exists.mp fits
  obtain ⟨-, -, fits⟩ := formatTopic_eq_some.mp made
  refine Option.isSome_iff_exists.mpr ⟨_, formatTopic_eq_some.mpr ⟨rfl, ?_, ?_⟩⟩
  · exact List.append_ne_nil_of_right_ne_nil _ (List.cons_ne_nil _ _)
  · simp only [List.length_append, List.length_cons] at fits ⊢
    omega

/-- A probe that is published is announced: the name that it has on the roster is its address or
the name it is announced under. -/
theorem announced_of_published (value : (published doc .temperature sensor).isSome) :
    (sensorTopic doc .temperature (announcedName sensor)).isSome := by
  by_cases address : (addressOf sensor).length = 16
  · by_cases name : nameOf sensor = []
    · rw [published, configSensor] at value
      simp only [address, name, ne_eq, not_true_eq_false, if_false, if_true, Option.bind_some,
        sensorTopic_copyName] at value
      refine sensorTopic_isSome value ?_
      have unknown : (announcedName sensor).length ≤ 7 := by
        unfold nameOf at name
        unfold announcedName
        cases given : (sensor.member "name".toList).asStr with
        | none => decide
        | some text =>
            rw [given] at name
            rw [Option.getD_some, show text = [] from name]
            decide
      rw [length_makeSlug, length_makeSlug]
      omega
    · have named : Named doc .temperature sensor := ⟨address, name⟩
      rwa [named.published] at value
  · simp [published, configSensor, address] at value

end

/-! ## The pass -/

theorem mem_announcements {doc : Json} {devId : DeviceId} {kind : SensorKind} {sensor : Json}
    {a : Announcement} (listed : (kind, sensor) ∈ announcedSensors doc)
    (made : announceSensor doc devId kind sensor = some a) : a ∈ announcements doc devId := by
  apply List.mem_append_left
  exact List.mem_filterMap.mpr ⟨(kind, sensor), listed, made⟩

/-- On a live connection a pass publishes every announcement. -/
theorem publishDiscovery_sends {doc : Json} {devId : DeviceId} {a : Announcement}
    (on : haDiscovery doc = true) (status : (availTopic doc).isSome) (s : RetainedSession)
    (mem : a ∈ announcements doc devId) (some_topic : a.topic ≠ []) :
    a.topic ∈ (publishDiscovery s doc (some devId) fun _ => true).1.sent := by
  obtain ⟨avail, status⟩ := Option.isSome_iff_exists.mp status
  simp only [publishDiscovery, on, status, Bool.not_true, Bool.false_eq_true, if_false]
  have listed : a ∈ (announcements doc devId).zipIdx.map Prod.fst := by
    rwa [List.zipIdx_map_fst]
  obtain ⟨p, found, rfl⟩ := List.mem_map.mp listed
  have call : (⟨p.1.topic, true⟩ : RetainedCall) ∈
      (announcements doc devId).zipIdx.map fun p => ⟨p.1.topic, true⟩ :=
    List.mem_map.mpr ⟨p, found, rfl⟩
  exact RetainedSession.mem_publishAll_sent call rfl some_topic

/-- A pass clears no topic that the session has published. -/
theorem publishDiscovery_clears {s : RetainedSession} (h : s.Sound) (doc : Json)
    (devId : Option DeviceId) (up : Nat → Bool) :
    ∀ topic ∈ (publishDiscovery s doc devId up).2,
      topic ∉ (publishDiscovery s doc devId up).1.sent := by
  unfold publishDiscovery
  split
  · exact fun topic mem => absurd mem List.not_mem_nil
  · split
    · next devId _ _ =>
        intro topic mem sent
        obtain ⟨p, cleared, rfl⟩ := List.mem_map.mp mem
        have absent := (List.mem_filter.mp cleared).2
        have listed := (h.publishAll _).sent _ sent
        rw [Bool.and_eq_true, Bool.not_eq_true', List.contains_iff_mem.mpr listed] at absent
        cases absent.1
    · exact fun topic mem => absurd mem List.not_mem_nil

def unitId : DeviceId := ⟨"thesada-0123456789ab".toList, by decide⟩

/-- An entry of `temperature.sensors` or of a channel list. -/
def entry (members : List (String × String)) : Json :=
  .obj (members.map fun m => (m.1.toList, .str m.2.toList))

def probesDoc (probes : List Json) : Json :=
  .obj [(K_TEMPERATURE, .obj [(K_SENSORS, .arr probes)])]

def tank : Json := entry [("address", "28FF000000000001"), ("name", "Tank")]

/-- A channel of a listed device. -/
def pump : Json := entry [("name", "Pump")]

def devicesDoc : Json :=
  .obj [(K_ADS1115, .obj [("devices".toList, .arr [.obj [(K_CHANNELS, .arr [pump])]])])]

/-- A probe without a name, and two with names that part after 31 characters. -/
def nameless : Json := entry [("address", "28FF000000000002")]
def north : Json :=
  entry [("address", "28FF000000000003"), ("name", "heat exchanger return pipe, side north")]
def south : Json :=
  entry [("address", "28FF000000000004"), ("name", "heat exchanger return pipe, side south")]

end Thesada.Mqtt
