import Thesada.Config.SetCommand
import Thesada.Enroll.CertReply
import Thesada.Mqtt.CriticalConfig

/-!
# The writers of the config file

`config.set` and the temperature module edit a copy of the file; the setup portal, an enrollment
reply, the rollback and `config.save` write the live document back over it. Only `config.set`
reads the file into the live document afterwards.

The events are the writers with their outcomes, in any order and without a reboot.
-/

namespace Thesada.Config

open CString Json Machine Thesada.Enroll Thesada.Mqtt

def K_TEMPERATURE : Str := "temperature".toList
def K_SENSORS : Str := "sensors".toList
def K_WIFI : Str := "wifi".toList
def K_NETWORKS : Str := "networks".toList
def K_ENROLL : Str := "enroll".toList
def K_URL : Str := "url".toList
def K_USER : Str := "user".toList
def K_PASSWORD : Str := "password".toList

/-! ## The temperature module -/

structure TempIo where
  mounts : Bool
  sees : Bool
  opens : Bool
  reads : Bool
  heap : Bool
  write : WriteIo

/-- The document an edit starts from: the file, or the live document when there is none. -/
def loadConfigBase (c : ConfigUnit) (io : TempIo) : Option Json :=
  if !io.mounts then none
  else
    match if io.sees then c.file else none with
    | none => c.copyDiskDoc io.heap
    | some text =>
        if !io.opens then none
        else
          match if io.reads then text.parse else none with
          | none => none
          | some doc => if doc.isObject then some doc else none

/-- The configured sensors, if they are an array. -/
def sensorsOf (doc : Json) : Option (List Json) :=
  match (doc.member K_TEMPERATURE).member K_SENSORS with
  | .arr items => some items
  | _ => none

def addressOf (sensor : Json) : Str := (sensor.member "address".toList).asStr.getD []

/-- An edit of the configured sensors, where they are an array. -/
def withSensors (f : List Json → List Json) (doc : Json) : Json :=
  doc.within K_TEMPERATURE fun t => t.within K_SENSORS fun
    | .arr items => .arr (f items)
    | j => j

def sensorEntry (address : Str) (count : Nat) : Json :=
  .obj [("address".toList, .str address),
    ("name".toList, .str ("temp_".toList ++ (Nat.toDigits 10 (count + 1))))]

/-- One discovered sensor merged in, and whether it is new. -/
def mergeSensor (doc : Json) (address : Str) : Json × Bool :=
  let known := (sensorsOf doc).getD []
  if known.any fun s => addressOf s = address then (doc, false)
  else (withSensors (· ++ [sensorEntry address known.length]) doc, true)

/-- The sensors array, made where there is none. -/
def sensorsReady (doc : Json) : Json :=
  if (sensorsOf doc).isSome then doc
  else doc.assign K_TEMPERATURE fun t => t.assign K_SENSORS fun _ => .arr []

def mergeSensors : List Str → Json → Json × Bool
  | [], doc => (doc, false)
  | address :: rest, doc =>
      let (doc, new) := mergeSensor doc address
      let (doc, more) := mergeSensors rest doc
      (doc, new || more)

/-- `for (JsonObject s : src)` added back: what is no object is added as null. -/
def asObject (j : Json) : Json := if j.isObject then j else .null

/-! ## The writers of the live document -/

/-- The form's network and URL in the live document. -/
def setForm (ssid url : Str) (doc : Json) : Json :=
  (doc.assignIn K_WIFI fun w => w.assign K_NETWORKS fun _ =>
      .arr [.obj [("ssid".toList, .str ssid)]]).assignIn K_ENROLL fun e =>
    (if e.isObject then e else .obj []).assign K_URL fun _ => .str url

/-- The last-good settings in an `mqtt` object that is there. -/
def setLastGood (lg : Critical) (doc : Json) : Json :=
  doc.within K_MQTT fun m =>
    if m.isObject then
      (((m.assign K_BROKER fun _ => .str lg.broker).assign K_PORT fun _ => .int lg.port).assign
        K_USER fun _ => .str lg.user).assign K_PASSWORD fun _ => .str lg.password
    else m

/-- `enrollBaseLen`: the URL without trailing slashes. -/
def enrollBase (url : Str) : Str := (url.reverse.dropWhile (· = '/')).reverse

namespace ConfigUnit

/-- `saveDiscovered`; without a new sensor nothing is written. -/
def saveDiscovered (c : ConfigUnit) (found : List Str) (io : TempIo) : ConfigUnit × Bool :=
  match loadConfigBase c io with
  | none => (c, false)
  | some base =>
      let (doc, anyNew) := mergeSensors found (sensorsReady base)
      if anyNew then c.writeFile doc io.write else (c, true)

/-- `removeSensorsFromConfig`. -/
def removeSensors (c : ConfigUnit) (dropped : List Str) (io : TempIo) : ConfigUnit × Bool :=
  match loadConfigBase c io with
  | none => (c, false)
  | some base =>
      if (sensorsOf base).isNone then (c, true)
      else
        c.writeFile (withSensors (fun items =>
          (items.map asObject).filter fun s => !dropped.contains (addressOf s)) base) io.write

/-- The form after its passphrase was stored. -/
def applyForm (c : ConfigUnit) (ssid url : Str) (write : WriteIo) (load : LoadIo) :
    ConfigUnit × Bool :=
  let (c', ok) := ({ c with live := setForm ssid (enrollBase url) c.live }).save write
  if ok then (c', true) else (c'.load load, false)

/-- The broker settings of a reply that passed its checks and set the ack flag. -/
def takeReply (c : ConfigUnit) (r : CertReply) (write : WriteIo) : ConfigUnit × Bool :=
  if c.held.isSome then (c, false) else ({ c with live := setBroker r c.live }).save write

def restoreLastGood (c : ConfigUnit) (lg : Critical) (write : WriteIo) : ConfigUnit × Bool :=
  ({ c with live := setLastGood lg c.live }).save write

def configSave (c : ConfigUnit) (heap : Bool) (write : WriteIo) : ConfigUnit × Bool :=
  match c.copyDiskDoc heap with
  | none => (c, false)
  | some dst => c.writeFile dst write

end ConfigUnit

/-! ## Events -/

inductive WriterEvent where
  | configSet (key arg : Str) (io : SetIo)
  /-- `temp.discover` and the boot save sensors; `--prune` removes some first. -/
  | saveDiscovered (found : List Str) (io : TempIo)
  | removeSensors (dropped : List Str) (io : TempIo)
  | certReply (r : CertReply) (io : WriteIo)
  | portalForm (ssid url : Str) (write : WriteIo) (load : LoadIo)
  | rollback (lg : Critical) (io : WriteIo)
  | configSave (heap : Bool) (io : WriteIo)
  | replace (json : Str) (write : WriteIo) (load : LoadIo)
  | reload (io : LoadIo)

def writerStep (deserializeJson : Reader) (strtof : Strtof) (c : ConfigUnit) :
    WriterEvent → ConfigUnit
  | .configSet key arg io => (c.configSet deserializeJson strtof key arg io).1
  | .saveDiscovered found io => (c.saveDiscovered found io).1
  | .removeSensors dropped io => (c.removeSensors dropped io).1
  | .certReply r io => (c.takeReply r io).1
  | .portalForm ssid url write load => (c.applyForm ssid url write load).1
  | .rollback lg io => (c.restoreLastGood lg io).1
  | .configSave heap io => (c.configSave heap io).1
  | .replace json write load => (c.replace deserializeJson json write load).1
  | .reload io => c.load io

/-! ## What is promised -/

/-- The document in the file. -/
def fileDoc : Option FileText → Option Json
  | some (.doc j) => some j
  | _ => none

/-- The member of the file at a path. -/
def ConfigUnit.fileAt (c : ConfigUnit) (p : Path) : Option Json :=
  (fileDoc c.file).bind fun doc => doc.atPath p

/-- The paths a writer targets. A section it has to make from something that is no object is
targeted whole, and so is the document by a replace. -/
def targets (c : ConfigUnit) : WriterEvent → List Path
  | .configSet key _ _ => [((fileDoc c.file).map (configSetPath key)).getD []]
  | .saveDiscovered _ io =>
      match (loadConfigBase c io).bind sensorsOf with
      | some items => [[.key K_TEMPERATURE, .key K_SENSORS, .index items.length]]
      | none => [[.key K_TEMPERATURE, .key K_SENSORS]]
  | .removeSensors _ _ => [[.key K_TEMPERATURE, .key K_SENSORS]]
  | .certReply _ _ =>
      if (c.live.member K_MQTT).isObject then
        [[.key K_MQTT, .key K_BROKER], [.key K_MQTT, .key K_PORT],
          [.key K_MQTT, .key K_TOPIC_PREFIX]]
      else [[.key K_MQTT]]
  | .portalForm .. =>
      [[.key K_WIFI, .key K_NETWORKS],
        if (c.live.member K_ENROLL).isObject then [.key K_ENROLL, .key K_URL] else [.key K_ENROLL]]
  | .rollback .. =>
      [[.key K_MQTT, .key K_BROKER], [.key K_MQTT, .key K_PORT], [.key K_MQTT, .key K_USER],
        [.key K_MQTT, .key K_PASSWORD]]
  | .configSave .. => []
  | .replace .. => [[]]
  | .reload _ => []

/-- A writer does not target the member at `p`. -/
def Spares (p : Path) (c : ConfigUnit) (e : WriterEvent) : Prop := ∀ q ∈ targets c e, Apart p q

instance Spares.decidable (p : Path) (c : ConfigUnit) (e : WriterEvent) :
    Decidable (Spares p c e) := inferInstanceAs (Decidable (∀ q ∈ targets c e, Apart p q))

/-- What a save of the live document writes. -/
def ConfigUnit.onDisk (c : ConfigUnit) : Json :=
  match c.held with
  | none => c.live
  | some h => h.onDisk c.live

/-- The live document has every member of the file. -/
def Current (c : ConfigUnit) : Prop :=
  ∀ p v, p ≠ [] → c.fileAt p = some v → c.onDisk.atPath p = some v

/-- A writer that writes the live document back finds the file in it. -/
def WritesCurrent (c : ConfigUnit) : WriterEvent → Prop
  | .certReply .. | .portalForm .. | .rollback .. | .configSave .. => Current c
  | .saveDiscovered _ io | .removeSensors _ io => io.sees = false → Current c
  | _ => True

/-- What the file holds at a path that a writer does not target is there after it. -/
def Kept (deserializeJson : Reader) (strtof : Strtof) (c : ConfigUnit) (e : WriterEvent) : Prop :=
  ∀ p v, p ≠ [] → Spares p c e → c.fileAt p = some v →
    (writerStep deserializeJson strtof c e).fileAt p = some v

/-! ## The file through the operations -/

namespace ConfigUnit

variable {c : ConfigUnit}

@[simp] theorem load_file (io : LoadIo) : (c.load io).file = c.file := by
  simp only [load]
  repeat' split
  all_goals rfl

@[simp] theorem holdTopicPrefix_file (p : Str) : (c.holdTopicPrefix p).1.file = c.file := by
  simp only [holdTopicPrefix]
  repeat' split
  all_goals rfl

@[simp] theorem restoreBootPrefix_file (kept : Option Str) (key : Str) :
    (c.restoreBootPrefix kept key).file = c.file := by
  simp only [restoreBootPrefix]
  repeat' split
  all_goals simp

theorem writeFile_file (src : Json) (io : WriteIo) :
    (c.writeFile src io).1.file = c.file ∨ (c.writeFile src io).1.file = some (.doc src) := by
  rw [writeFile_eq]
  cases io.lands <;> simp

/-- A copy of the live document is what a save of it writes. -/
theorem copyDiskDoc_eq {heap : Bool} {doc : Json} (copied : c.copyDiskDoc heap = some doc) :
    doc = c.onDisk := by
  simp only [copyDiskDoc] at copied
  split at copied
  · simp at copied
  · rename_i dst parsed
    have same : c.live = dst := by
      split at parsed
      · simp only [FileText.parse, Option.ite_none_right_eq_some, Option.some.injEq] at parsed
        exact parsed.2
      · simp at parsed
    subst same
    split at copied
    · simp at copied
    · cases held : c.held with
      | none => simpa [onDisk, held] using copied.symm
      | some h => simpa [onDisk, held] using copied.symm

theorem save_file (io : WriteIo) :
    (c.save io).1.file = c.file ∨ (c.save io).1.file = some (.doc c.onDisk) := by
  cases held : c.held with
  | none =>
      simp only [save, onDisk, held]
      exact writeFile_file _ _
  | some h =>
      simp only [save, onDisk, held]
      split
      · exact .inl rfl
      · exact writeFile_file _ _

theorem commitEdit_file (key : Str) (doc : Json) (io : SetIo) :
    (c.commitEdit key doc io).1.file = c.file ∨
      (c.commitEdit key doc io).1.file = some (.doc doc) := by
  simp only [commitEdit]
  split
  · simpa using writeFile_file doc io.write
  · exact writeFile_file _ _

theorem commitEdit_landed {key : Str} {doc : Json} {io : SetIo}
    (landed : (c.commitEdit key doc io).2 = true) :
    (c.commitEdit key doc io).1.file = some (.doc doc) := by
  simp only [commitEdit, writeFile_eq] at landed ⊢
  split
  · simp
  · rename_i fails
    simp [fails] at landed

end ConfigUnit

theorem parse_eq_some {text : FileText} {doc : Json} (parsed : text.parse = some doc) :
    text = .doc doc := by
  cases text with
  | broken => simp [FileText.parse] at parsed
  | doc j =>
      simp only [FileText.parse, Option.ite_none_right_eq_some, Option.some.injEq] at parsed
      rw [parsed.2]

/-- A writer that starts from a document with every member of the file, and leaves what it does
not target, keeps those members. -/
theorem kept_of_base {c c' : ConfigUnit} {base doc : Json} {T : List Path}
    (covers : ∀ p v, p ≠ [] → c.fileAt p = some v → base.atPath p = some v)
    (keeps : Keeps T base doc) (file : c'.file = c.file ∨ c'.file = some (.doc doc))
    {p : Path} {v : Json} (member : p ≠ []) (spares : ∀ q ∈ T, Apart p q)
    (held : c.fileAt p = some v) : c'.fileAt p = some v := by
  obtain same | written := file
  · rw [ConfigUnit.fileAt, same]
    exact held
  · simp only [ConfigUnit.fileAt, written, fileDoc, Option.bind_some]
    exact keeps p v spares (covers p v member held)

theorem covers_of_file {c : ConfigUnit} {text : FileText} {doc : Json}
    (file : c.file = some text) (parsed : text.parse = some doc) (p : Path) (v : Json)
    (_ : p ≠ []) (held : c.fileAt p = some v) : doc.atPath p = some v := by
  rw [parse_eq_some parsed] at file
  simpa [ConfigUnit.fileAt, file, fileDoc] using held

/-- The live document as it was read from the file or written to it. -/
theorem current_of_file {c : ConfigUnit} (free : c.held = none)
    (same : c.file = some (.doc c.live)) : Current c := by
  intro p v _ held
  simpa [ConfigUnit.fileAt, ConfigUnit.onDisk, same, fileDoc, free] using held

/-! ## Writers that edit the file -/

theorem readForEdit_ok {file : Option FileText} {io : SetIo} {doc : Json}
    (read : readForEdit file io = .ok doc) :
    ∃ text, file = some text ∧ text.parse = some doc := by
  simp only [readForEdit] at read
  split at read
  · simp at read
  · rename_i text
    split at read
    · simp at read
    · split at read
      · simp at read
      · split at read
        · simp at read
        · rename_i doc' parsed
          obtain rfl := Except.ok.inj read
          refine ⟨text, rfl, ?_⟩
          split at parsed
          · exact parsed
          · simp at parsed

theorem configSet_kept (deserializeJson : Reader) (strtof : Strtof) (c : ConfigUnit)
    (key arg : Str) (io : SetIo) : Kept deserializeJson strtof c (.configSet key arg io) := by
  intro p v member spares held
  simp only [writerStep, ConfigUnit.configSet]
  split
  · exact held
  · split
    · exact held
    · split
      · exact held
      · rename_i doc read
        split
        · exact held
        · rename_i edited made
          obtain ⟨text, file, parsed⟩ := readForEdit_ok read
          have path : targets c (.configSet key arg io) = [configSetPath key doc] := by
            simp [targets, file, parse_eq_some parsed, fileDoc]
          simp only [Spares, path] at spares
          have kept := kept_of_base (covers_of_file file parsed) (configSetDoc_sets made).keeps
            (c.commitEdit_file key edited io) member spares held
          split <;> exact kept

/-- A value whose `config.set` is acknowledged is in the file at its path. -/
theorem configSet_found {deserializeJson : Reader} {strtof : Strtof} {c c' : ConfigUnit}
    {key arg reply : Str} {io : SetIo} {j : Json}
    (acknowledged : c.configSet deserializeJson strtof key arg io = (c', .ok reply))
    (value : setValueOf deserializeJson strtof (stripQuotes arg) = .value j) :
    ∃ path ∈ targets c (.configSet key arg io), c'.fileAt path = some j := by
  obtain ⟨doc, edited, read, made, committed⟩ := configSet_ok acknowledged
  obtain ⟨text, file, parsed⟩ := readForEdit_ok read
  refine ⟨configSetPath key doc, by simp [targets, file, parse_eq_some parsed, fileDoc], ?_⟩
  have landed : c'.file = some (.doc edited) := by
    have file := ConfigUnit.commitEdit_landed (congrArg Prod.snd committed)
    rwa [committed] at file
  simp [ConfigUnit.fileAt, landed, fileDoc, (configSetDoc_sets made).found j value]

/-- The base of a temperature edit has every member of the file. -/
theorem loadConfigBase_covers {c : ConfigUnit} {io : TempIo} {base : Json}
    (loaded : loadConfigBase c io = some base) (current : io.sees = false → Current c) (p : Path)
    (v : Json) (member : p ≠ []) (held : c.fileAt p = some v) : base.atPath p = some v := by
  simp only [loadConfigBase] at loaded
  split at loaded
  · simp at loaded
  · split at loaded
    · rename_i unseen
      cases sees : io.sees with
      | true =>
          simp only [sees, if_true] at unseen
          simp [ConfigUnit.fileAt, unseen, fileDoc] at held
      | false =>
          rw [ConfigUnit.copyDiskDoc_eq loaded]
          exact current sees p v member held
    · rename_i text seen
      split at loaded
      · simp at loaded
      · split at loaded
        · simp at loaded
        · rename_i doc parsed
          split at loaded
          · obtain rfl := Option.some.inj loaded
            have file : c.file = some text := by
              split at seen
              · exact seen
              · simp at seen
            have whole : text.parse = some doc := by
              split at parsed
              · exact parsed
              · simp at parsed
            exact covers_of_file file whole p v member held
          · simp at loaded

theorem withSensors_keeps {T : List Path} (some_target : T ≠ []) {f : List Json → List Json}
    (each : ∀ items, Keeps T (.arr items) (.arr (f items))) (doc : Json) :
    Keeps ((T.map (Seg.key K_SENSORS :: ·)).map (Seg.key K_TEMPERATURE :: ·)) doc
      (withSensors f doc) := by
  refine Keeps.within (by simpa using some_target) ?_
  intro t
  refine Keeps.within some_target ?_
  intro j
  cases j with
  | arr items => exact each items
  | _ => exact Keeps.refl _ _

/-- A merged sensor goes behind the configured ones. -/
theorem mergeSensor_keeps (doc : Json) (address : Str) (i : Nat) :
    Keeps [[.key K_TEMPERATURE, .key K_SENSORS, .index i]] doc (mergeSensor doc address).1 := by
  simp only [mergeSensor]
  split
  · exact Keeps.refl _ _
  · exact withSensors_keeps (T := [[.index i]]) (by simp)
      (fun items => Keeps.append items _ i) doc

theorem mergeSensors_keeps (found : List Str) (doc : Json) (i : Nat) :
    Keeps [[.key K_TEMPERATURE, .key K_SENSORS, .index i]] doc (mergeSensors found doc).1 := by
  induction found generalizing doc with
  | nil => exact Keeps.refl _ _
  | cons address rest ih => exact (mergeSensor_keeps doc address i).trans (ih _)

theorem sensorsReady_keeps (doc : Json) :
    Keeps [[.key K_TEMPERATURE, .key K_SENSORS]] doc (sensorsReady doc) := by
  simp only [sensorsReady]
  split
  · exact Keeps.refl _ _
  · exact Keeps.assign (T := [[.key K_SENSORS]]) (by simp) fun t =>
      Keeps.assign (T := [[]]) (by simp) fun _ => Keeps.root

theorem saveDiscovered_kept (deserializeJson : Reader) (strtof : Strtof) (c : ConfigUnit)
    (found : List Str) (io : TempIo) (current : io.sees = false → Current c) :
    Kept deserializeJson strtof c (.saveDiscovered found io) := by
  intro p v member spares held
  simp only [writerStep, ConfigUnit.saveDiscovered]
  split
  · exact held
  · rename_i base loaded
    have covers := loadConfigBase_covers loaded current
    split
    · refine kept_of_base covers ?_ (ConfigUnit.writeFile_file _ io.write) member spares held
      simp only [targets, loaded, Option.bind_some]
      cases known : sensorsOf base with
      | some items =>
          simp only [sensorsReady, known, Option.isSome_some, if_true]
          exact mergeSensors_keeps found base items.length
      | none =>
          refine (sensorsReady_keeps base).trans ?_
          exact Keeps.above (r := [.index 0]) (mergeSensors_keeps found _ 0)
    · exact held

theorem removeSensors_kept (deserializeJson : Reader) (strtof : Strtof) (c : ConfigUnit)
    (dropped : List Str) (io : TempIo) (current : io.sees = false → Current c) :
    Kept deserializeJson strtof c (.removeSensors dropped io) := by
  intro p v member spares held
  simp only [writerStep, ConfigUnit.removeSensors]
  split
  · exact held
  · rename_i base loaded
    split
    · exact held
    · refine kept_of_base (loadConfigBase_covers loaded current) ?_
        (ConfigUnit.writeFile_file _ io.write) member spares held
      exact withSensors_keeps (T := [[]]) (by simp) (fun _ => Keeps.root) base

/-! ## Writers of the live document -/

/-- The prefix for the file, put in or taken out of an `mqtt` member. -/
def Hold.inMqtt (h : Hold) (m : Json) : Json :=
  match h.diskTopicPrefix with
  | some p => m.assign K_TOPIC_PREFIX fun _ => .str p.1
  | none => m.remove K_TOPIC_PREFIX

theorem Hold.onDisk_child_ne (h : Hold) (ms : List (Str × Json)) {s : Seg}
    (other : s ≠ .key K_MQTT) : (h.onDisk (.obj ms)).child s = (Json.obj ms).child s := by
  cases s with
  | index i =>
      simp only [Hold.onDisk, setPrefix, dropPrefix]
      repeat' split
      all_goals first | rfl | (simp only [Json.within]; split <;> rfl)
  | key l =>
      have apart : l ≠ K_MQTT := fun same => other (congrArg Seg.key same)
      simp only [Hold.onDisk, setPrefix, dropPrefix]
      split
      · simp [assign, child, getMember_setMember_ne apart]
      · simp only [Json.within]
        split
        · rfl
        · simp [child, getMember_setMember_ne apart]

theorem Hold.onDisk_child_mqtt (h : Hold) (ms : List (Str × Json)) :
    (h.onDisk (.obj ms)).child (.key K_MQTT) =
      match h.diskTopicPrefix with
      | some _ => some (h.inMqtt ((getMember K_MQTT ms).getD .null))
      | none => (getMember K_MQTT ms).map h.inMqtt := by
  cases disk : h.diskTopicPrefix with
  | some p =>
      simp only [Hold.onDisk, Hold.inMqtt, disk]
      exact getMember_setMember K_MQTT _ ms
  | none =>
      cases found : getMember K_MQTT ms with
      | none => simp [Hold.onDisk, disk, dropPrefix, Json.within, child, found]
      | some m => simp [Hold.onDisk, Hold.inMqtt, disk, dropPrefix, Json.within, child, found]

/-- An edit beside `mqtt` keeps what it does not target under a held prefix too. -/
theorem Hold.keeps_beside (h : Hold) {T : List Path} (some_target : T ≠ [])
    {ms ns : List (Str × Json)} (same : getMember K_MQTT ns = getMember K_MQTT ms)
    (keeps : Keeps T (.obj ms) (.obj ns)) : Keeps T (h.onDisk (.obj ms)) (h.onDisk (.obj ns)) := by
  refine Keeps.of_children some_target ?_
  intro s p v apart held
  by_cases mqtt : s = .key K_MQTT
  · subst mqtt
    rw [h.onDisk_child_mqtt] at held ⊢
    rw [same]
    exact held
  · rw [h.onDisk_child_ne _ mqtt] at held ⊢
    exact keeps (s :: p) v apart held

/-- An edit of the `mqtt` member, seen through a held prefix. -/
theorem Hold.keeps_within (h : Hold) {T : List Path} (some_target : T ≠ []) {g : Json → Json}
    (below : ∀ m, Keeps T (h.inMqtt m) (h.inMqtt (g m))) (ms : List (Str × Json)) :
    Keeps (T.map (Seg.key K_MQTT :: ·)) (h.onDisk (.obj ms))
      (h.onDisk ((Json.obj ms).within K_MQTT g)) := by
  cases found : getMember K_MQTT ms with
  | none =>
      simp only [Json.within, found]
      exact Keeps.refl _ _
  | some m =>
      refine Keeps.of_children (by simpa using some_target) ?_
      intro s p v apart held
      simp only [Json.within, found]
      by_cases mqtt : s = .key K_MQTT
      · subst mqtt
        have spares : ∀ q ∈ T, Apart p q := by
          intro q mem
          exact Keeps.apart_tail (apart (.key K_MQTT :: q) (List.mem_map_of_mem mem))
        rw [h.onDisk_child_mqtt] at held ⊢
        simp only [found, getMember_setMember] at held ⊢
        cases disk : h.diskTopicPrefix with
        | some _ =>
            rw [disk] at held
            exact below m p v spares held
        | none =>
            rw [disk] at held
            exact below m p v spares held
      · rw [h.onDisk_child_ne _ mqtt] at held ⊢
        obtain ⟨c, at_s, held⟩ := Option.bind_eq_some_iff.mp held
        have kept := child_put_ne mqtt (v := g m) at_s
        simp only [put] at kept
        rw [kept]
        exact held

/-! ### The edits -/

/-- The keys the last-good settings go to. -/
def lastGoodKeys : List Str := [K_BROKER, K_PORT, K_USER, K_PASSWORD]

def lastGoodMembers (lg : Critical) (ms : List (Str × Json)) : List (Str × Json) :=
  setMember K_PASSWORD (.str lg.password) (setMember K_USER (.str lg.user)
    (setMember K_PORT (.int lg.port) (setMember K_BROKER (.str lg.broker) ms)))

theorem getMember_lastGood (lg : Critical) (ms : List (Str × Json)) {k : Str}
    (other : k ∉ lastGoodKeys) : getMember k (lastGoodMembers lg ms) = getMember k ms := by
  simp only [lastGoodKeys, List.mem_cons, List.not_mem_nil, or_false, not_or] at other
  obtain ⟨broker, port, user, password⟩ := other
  simp only [lastGoodMembers]
  rw [getMember_setMember_ne password, getMember_setMember_ne user, getMember_setMember_ne port,
    getMember_setMember_ne broker]

theorem getMember_removed_lastGood (lg : Critical) (ms : List (Str × Json)) (r : Str) {k : Str}
    (other : k ∉ lastGoodKeys) :
    getMember k (removeMember r (lastGoodMembers lg ms)) = getMember k (removeMember r ms) := by
  simp only [lastGoodKeys, List.mem_cons, List.not_mem_nil, or_false, not_or] at other
  obtain ⟨broker, port, user, password⟩ := other
  simp only [lastGoodMembers]
  rw [getMember_removeMember_setMember password, getMember_removeMember_setMember user,
    getMember_removeMember_setMember port, getMember_removeMember_setMember broker]

/-- A document with the members an edit leaves keeps them, whatever prefix is for the file. -/
theorem Hold.inMqtt_keeps (h : Hold) {ks : List Str} (some_key : ks ≠ [])
    {ms ns : List (Str × Json)} (same : ∀ r k, k ∉ ks →
      getMember k (removeMember r ns) = getMember k (removeMember r ms) ∧
        getMember k ns = getMember k ms) :
    Keeps (ks.map fun k => [.key k]) (h.inMqtt (.obj ms)) (h.inMqtt (.obj ns)) := by
  simp only [Hold.inMqtt]
  split
  · refine Keeps.of_members some_key ?_
    intro k other
    by_cases isPrefix : k = K_TOPIC_PREFIX
    · subst isPrefix
      rw [getMember_setMember, getMember_setMember]
    · rw [getMember_setMember_ne isPrefix, getMember_setMember_ne isPrefix]
      exact (same k k other).2.symm
  · refine Keeps.of_members some_key ?_
    intro k other
    exact (same K_TOPIC_PREFIX k other).1.symm

theorem setLastGood_kept {c : ConfigUnit} (lg : Critical) :
    Keeps [[.key K_MQTT, .key K_BROKER], [.key K_MQTT, .key K_PORT], [.key K_MQTT, .key K_USER],
      [.key K_MQTT, .key K_PASSWORD]] c.onDisk
      ({ c with live := setLastGood lg c.live } : ConfigUnit).onDisk := by
  have targets : [[.key K_MQTT, .key K_BROKER], [.key K_MQTT, .key K_PORT],
      [.key K_MQTT, .key K_USER], [.key K_MQTT, .key K_PASSWORD]] =
        (lastGoodKeys.map fun k => [Seg.key k]).map (Seg.key K_MQTT :: ·) := rfl
  have some_key : lastGoodKeys ≠ [] := by simp [lastGoodKeys]
  rw [targets]
  cases held : c.held with
  | none =>
      simp only [ConfigUnit.onDisk, held]
      refine Keeps.within (by simpa using some_key) ?_
      intro m
      cases m with
      | obj ms => exact Keeps.of_members some_key fun k other => (getMember_lastGood lg ms other).symm
      | _ => exact Keeps.refl _ _
  | some h =>
      simp only [ConfigUnit.onDisk, held]
      cases live : c.live with
      | obj ms =>
          refine h.keeps_within (by simpa using some_key) ?_ ms
          intro m
          cases m with
          | obj ms =>
              refine h.inMqtt_keeps some_key ?_
              intro r k other
              exact ⟨getMember_removed_lastGood lg ms r other, getMember_lastGood lg ms other⟩
          | _ => exact Keeps.refl _ _
      | _ => exact Keeps.refl _ _

theorem setBroker_keeps {c : ConfigUnit} (r : CertReply) (io : WriteIo) :
    Keeps (targets c (.certReply r io)) c.live (setBroker r c.live) := by
  refine Keeps.assignIn_made (k := K_MQTT)
    (T := [K_BROKER, K_PORT, K_TOPIC_PREFIX].map fun k => [.key k])
    (f := fun m => ((m.assign K_BROKER fun _ => .str r.host).assign K_PORT
      fun _ => .int r.port).assign K_TOPIC_PREFIX fun _ => .str r.topicPrefix) (by simp) ?_
  intro ms
  refine Keeps.of_members (by simp) ?_
  intro k other
  simp only [List.mem_cons, List.not_mem_nil, or_false, not_or] at other
  obtain ⟨broker, port, topicPrefix⟩ := other
  rw [getMember_setMember_ne topicPrefix, getMember_setMember_ne port,
    getMember_setMember_ne broker]

/-- The form beside the `mqtt` member. -/
theorem setForm_obj (ssid url : Str) (ms : List (Str × Json)) :
    ∃ ns, setForm ssid url (.obj ms) = .obj ns ∧ getMember K_MQTT ns = getMember K_MQTT ms := by
  have wifi : K_MQTT ≠ K_WIFI := by decide
  have enroll : K_MQTT ≠ K_ENROLL := by decide
  refine ⟨_, rfl, ?_⟩
  rw [getMember_setMember_ne enroll, getMember_setMember_ne wifi]

theorem setForm_keeps {c : ConfigUnit} (ssid url : Str) (write : WriteIo) (load : LoadIo) :
    Keeps (targets c (.portalForm ssid url write load)) c.live (setForm ssid url c.live) := by
  have wifi : Keeps [[.key K_WIFI, .key K_NETWORKS]] c.live
      (c.live.assignIn K_WIFI fun w => w.assign K_NETWORKS fun _ =>
        .arr [.obj [("ssid".toList, .str ssid)]]) :=
    Keeps.assignIn (T := [[.key K_NETWORKS]]) (by simp) fun _ =>
      Keeps.assign (T := [[]]) (by simp) fun _ => Keeps.root
  have same : (c.live.assignIn K_WIFI fun w => w.assign K_NETWORKS fun _ =>
      .arr [.obj [("ssid".toList, .str ssid)]]).member K_ENROLL = c.live.member K_ENROLL := by
    have other : K_ENROLL ≠ K_WIFI := by decide
    cases c.live with
    | obj ms => simp [assignIn, isObject, Json.assign, member, getMember_setMember_ne other]
    | _ => rfl
  have enroll := Keeps.assignIn_made (k := K_ENROLL) (T := [[.key K_URL]])
    (f := fun e => e.assign K_URL fun _ => .str url)
    (a := c.live.assignIn K_WIFI fun w => w.assign K_NETWORKS fun _ =>
      .arr [.obj [("ssid".toList, .str ssid)]]) (by simp) fun ms =>
    Keeps.assign (T := [[]]) (by simp) fun _ => Keeps.root
  rw [same] at enroll
  refine (wifi.mono ?_).trans (enroll.mono ?_)
  · simp [targets]
  · intro q mem
    refine List.mem_cons_of_mem _ ?_
    by_cases isObj : (c.live.member K_ENROLL).isObject = true
    · rw [if_pos isObj] at mem ⊢
      exact mem
    · rw [if_neg isObj] at mem ⊢
      exact mem

/-- The document a form's save writes keeps what the form does not target. -/
theorem setForm_kept {c : ConfigUnit} (ssid url : Str) (write : WriteIo) (load : LoadIo) :
    Keeps (targets c (.portalForm ssid url write load)) c.onDisk
      ({ c with live := setForm ssid url c.live } : ConfigUnit).onDisk := by
  have keeps := setForm_keeps (c := c) ssid url write load
  cases held : c.held with
  | none => simpa only [ConfigUnit.onDisk, held] using keeps
  | some h =>
      simp only [ConfigUnit.onDisk, held]
      cases live : c.live with
      | obj ms =>
          obtain ⟨ns, form, same⟩ := setForm_obj ssid url ms
          rw [live, form] at keeps
          rw [form]
          exact h.keeps_beside (by simp [targets]) same keeps
      | _ => exact Keeps.refl _ _

/-! ## Every sequence of writers -/

/-- What an event does to the members of the file it does not target. -/
theorem writerStep_kept (deserializeJson : Reader) (strtof : Strtof) (c : ConfigUnit)
    (e : WriterEvent) (current : WritesCurrent c e) : Kept deserializeJson strtof c e := by
  cases e with
  | configSet key arg io => exact configSet_kept deserializeJson strtof c key arg io
  | saveDiscovered found io => exact saveDiscovered_kept deserializeJson strtof c found io current
  | removeSensors dropped io => exact removeSensors_kept deserializeJson strtof c dropped io current
  | certReply r io =>
      intro p v member spares held
      simp only [writerStep, ConfigUnit.takeReply]
      split
      · exact held
      · rename_i notHeld
        have free : c.held = none := by simpa using notHeld
        have keeps : Keeps (targets c (.certReply r io)) c.onDisk
            ({ c with live := setBroker r c.live } : ConfigUnit).onDisk := by
          simpa only [ConfigUnit.onDisk, free] using setBroker_keeps r io
        exact kept_of_base current keeps (ConfigUnit.save_file io) member spares held
  | portalForm ssid url write load =>
      intro p v member spares held
      have kept := kept_of_base current (setForm_kept ssid (enrollBase url) write load)
        (ConfigUnit.save_file (c := { c with live := setForm ssid (enrollBase url) c.live }) write)
        member spares held
      simp only [writerStep, ConfigUnit.applyForm]
      split
      · exact kept
      · simpa only [ConfigUnit.fileAt, ConfigUnit.load_file] using kept
  | rollback lg io =>
      intro p v member spares held
      exact kept_of_base current (setLastGood_kept lg) (ConfigUnit.save_file io) member spares held
  | configSave heap io =>
      intro p v member spares held
      simp only [writerStep, ConfigUnit.configSave]
      split
      · exact held
      · rename_i dst copied
        rw [ConfigUnit.copyDiskDoc_eq copied]
        exact kept_of_base current (Keeps.refl _ _) (ConfigUnit.writeFile_file _ io) member spares
          held
  | replace json write load =>
      intro p v member spares held
      have root := spares [] (by simp [targets])
      cases p <;> simp [Apart] at root
  | reload io =>
      intro p v member spares held
      simpa only [writerStep, ConfigUnit.fileAt, ConfigUnit.load_file] using held

/-- A member of the file keeps its value through every sequence of writers that do not target it,
when those that write the live document back find the file in it. -/
theorem member_survives (deserializeJson : Reader) (strtof : Strtof) (c : ConfigUnit)
    (es : List WriterEvent) (p : Path) (v : Json) (member : p ≠ [])
    (held : c.fileAt p = some v)
    (spares : Meets (writerStep deserializeJson strtof) (Spares p) c es)
    (current : Meets (writerStep deserializeJson strtof) WritesCurrent c es) :
    (run (writerStep deserializeJson strtof) c es).fileAt p = some v := by
  have each : ∀ c e, c.fileAt p = some v → Spares p c e ∧ WritesCurrent c e →
      (writerStep deserializeJson strtof c e).fileAt p = some v := by
    intro c e held admissible
    exact writerStep_kept deserializeJson strtof c e admissible.2 p v member admissible.1 held
  exact (spares.and current).invariant each held

/-! ## Two short sequences -/

def nothingParses : Reader := fun _ => .error .null

def noFloats : Strtof := fun _ => none

def writeLands : WriteIo := ⟨true, 1, 1, 1, true⟩

def brokerDoc : Json := .obj [(K_MQTT, .obj [(K_BROKER, .str ['a'])])]

/-- `config.set mqtt.port 1883`, then `config.save`. -/
def setThenSave : List WriterEvent :=
  [.configSet "mqtt.port".toList "1883".toList ⟨true, true, true, writeLands, ⟨true, true, true⟩⟩,
    .configSave true writeLands]

theorem member_survives_sample :
    (run (writerStep nothingParses noFloats) (readUnit brokerDoc) setThenSave).fileAt
      [.key K_MQTT, .key K_BROKER] = some (.str ['a']) :=
  member_survives nothingParses noFloats (readUnit brokerDoc) setThenSave
    [.key K_MQTT, .key K_BROKER] (.str ['a']) (by simp) rfl (by decide)
    ⟨trivial, current_of_file rfl rfl, trivial⟩

def sensorAddress : Str := "28ff641e0216c3a1".toList

/-- `temp.discover` with one new sensor. -/
def discovers : WriterEvent :=
  .saveDiscovered [sensorAddress] ⟨true, true, true, true, true, writeLands⟩

def firstSensor : Path := [.key K_TEMPERATURE, .key K_SENSORS, .index 0, .key "address".toList]

/-- `config.save` after `temp.discover` takes the sensor out of the file again. -/
theorem config_save_drops_sensor :
    let c := writerStep nothingParses noFloats (readUnit brokerDoc) discovers
    ((c.fileAt firstSensor).bind asStr) = some sensorAddress ∧
      Meets (writerStep nothingParses noFloats) (Spares firstSensor) c
        [.configSave true writeLands] ∧
      ((run (writerStep nothingParses noFloats) c [.configSave true writeLands]).fileAt
        firstSensor).isNone = true := by
  decide

end Thesada.Config
