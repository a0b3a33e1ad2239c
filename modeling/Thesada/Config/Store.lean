import Thesada.Library.Json

/-!
# The config document and its file

The live document is what modules read; `/config.json` is what the next boot reads. `load` takes
the file into the live document and `writeFile` is the one writer of the file. A topic prefix of
the boot can be held over the live document, and then `save` writes the prefix the file is to
have in its place.

The file holds a document or a text that does not parse. ArduinoJson's reader is a parameter
where a text comes from outside: a document, or what an error leaves in the one it read into.
-/

namespace Thesada.Config

open CString Json

def TOPIC_PREFIX_CAP : Nat := 128
def ARDUINOJSON_DEFAULT_NESTING_LIMIT : Nat := 10

def K_MQTT : Str := "mqtt".toList
def K_BROKER : Str := "broker".toList
def K_TOPIC_PREFIX : Str := "topic_prefix".toList

inductive FileText where
  | doc (j : Json)
  | broken

/-- `deserializeJson` of the file. A document nested too deep is refused. -/
def FileText.parse : FileText → Option Json
  | .doc j => if j.depth ≤ ARDUINOJSON_DEFAULT_NESTING_LIMIT then some j else none
  | .broken => none

/-- `deserializeJson` of a text: the document, or what the error leaves of it. -/
abbrev Reader := Str → Except Json Json

/-- A reader that knows one text. -/
def readsOnly (text : Str) (doc : Json) : Reader :=
  fun t => if t = text then .ok doc else .error .null

abbrev TopicPrefix := { p : Str // p.length < TOPIC_PREFIX_CAP }

/-- A held boot prefix: the prefix the file is to have, if it is to have one. -/
structure Hold where
  diskTopicPrefix : Option TopicPrefix

structure ConfigUnit where
  /-- `_doc`. -/
  live : Json
  file : Option FileText
  held : Option Hold

/-- A unit whose live document is the file. -/
def readUnit (doc : Json) : ConfigUnit := { live := doc, file := some (.doc doc), held := none }

structure LoadIo where
  mounts : Bool
  opens : Bool
  reads : Bool

/-- A write of the file: `expected` is the serialized size. -/
structure WriteIo where
  opensTmp : Bool
  written : Nat
  onDisk : Nat
  expected : Nat
  renames : Bool

def fileWriteLanded (written onDisk expected : Nat) : Bool :=
  written = expected && onDisk = expected

def configWriteLanded (written onDisk expected : Nat) : Bool :=
  0 < expected && fileWriteLanded written onDisk expected

def WriteIo.lands (io : WriteIo) : Bool :=
  io.opensTmp && configWriteLanded io.written io.onDisk io.expected && io.renames

/-- `_doc["mqtt"]["topic_prefix"] | ""`. -/
def livePrefix (doc : Json) : Str := ((doc.member K_MQTT).member K_TOPIC_PREFIX).asStr.getD []

/-- `_doc["mqtt"]["topic_prefix"] = prefix`. -/
def setPrefix (p : Str) (doc : Json) : Json :=
  doc.assign K_MQTT fun m => m.assign K_TOPIC_PREFIX fun _ => .str p

/-- The topic prefix taken out of an `mqtt` object that is there. -/
def dropPrefix (doc : Json) : Json := doc.within K_MQTT fun m => m.remove K_TOPIC_PREFIX

/-- The document with the prefix the file is to have. -/
def Hold.onDisk (h : Hold) (doc : Json) : Json :=
  match h.diskTopicPrefix with
  | some p => setPrefix p.1 doc
  | none => dropPrefix doc

namespace ConfigUnit

def load (c : ConfigUnit) (io : LoadIo) : ConfigUnit :=
  let c := { c with held := none }
  if !io.mounts then c
  else
    match c.file with
    | none => c
    | some text =>
        if !io.opens then c
        else { c with live := (if io.reads then text.parse else none).getD .null }

/-- The file after a write of `src`, and whether it landed. -/
def writeFile (c : ConfigUnit) (src : Json) (io : WriteIo) : ConfigUnit × Bool :=
  if !io.opensTmp then (c, false)
  else if !configWriteLanded io.written io.onDisk io.expected then (c, false)
  else if !io.renames then (c, false)
  else ({ c with file := some (.doc src) }, true)

def save (c : ConfigUnit) (io : WriteIo) : ConfigUnit × Bool :=
  match c.held with
  | none => c.writeFile c.live io
  | some h =>
      let live := livePrefix c.live
      if TOPIC_PREFIX_CAP ≤ live.length then (c, false)
      else
        let (c', ok) := c.writeFile (h.onDisk c.live) io
        ({ c' with live := setPrefix live (h.onDisk c.live) }, ok)

/-- The prefix in the document: its value, or that it is missing, or that it is no string. -/
def docPrefix (doc : Json) : Option (Option Str) :=
  match (doc.member K_MQTT).child (.key K_TOPIC_PREFIX) with
  | none => some none
  | some v => v.asStr.map some

/-- The prefix `p` laid over the document, with `disk` kept for the file. -/
def hold (c : ConfigUnit) (disk : Option TopicPrefix) (p : Str) : ConfigUnit :=
  { c with held := some { diskTopicPrefix := disk }, live := setPrefix p c.live }

def holdTopicPrefix (c : ConfigUnit) (p : Str) : ConfigUnit × Bool :=
  match docPrefix c.live with
  | none => (c, false)
  | some none => if p.length < TOPIC_PREFIX_CAP then (c.hold none p, true) else (c, false)
  | some (some disk) =>
      if fits : disk.length < TOPIC_PREFIX_CAP ∧ p.length < TOPIC_PREFIX_CAP then
        (c.hold (some ⟨disk, fits.1⟩) p, true)
      else (c, false)

def copyBootTopicPrefix (c : ConfigUnit) (cap : Nat) : Option Str :=
  if c.held.isNone then none
  else
    let live := livePrefix c.live
    if cap ≤ live.length then none else some live

/-- A failed replace: the file is read back and a held prefix put over it again. -/
def rollBack (c : ConfigUnit) (io : LoadIo) (boot : Option Str) : ConfigUnit :=
  match boot with
  | none => c.load io
  | some p => ((c.load io).holdTopicPrefix p).1

def replace (deserializeJson : Reader) (c : ConfigUnit) (json : Str) (write : WriteIo)
    (load : LoadIo) : ConfigUnit × Bool :=
  let boot := c.copyBootTopicPrefix TOPIC_PREFIX_CAP
  if c.held.isSome && boot.isNone then (c, false)
  else
    match deserializeJson json with
    | .error left => (({ c with held := none, live := left }).rollBack load boot, false)
    | .ok doc =>
        let (c', saved) := ({ c with held := none, live := doc }).save write
        if saved then (c', true) else (c'.rollBack load boot, false)

/-- The document `config.save` writes. `heap` is that the text and its copy fit in RAM. -/
def copyDiskDoc (c : ConfigUnit) (heap : Bool) : Option Json :=
  match if heap then (FileText.doc c.live).parse else none with
  | none => none
  | some dst =>
      if !dst.isObject then none
      else
        match c.held with
        | none => some dst
        | some h => some (h.onDisk dst)

end ConfigUnit

/-! ## What a write leaves -/

theorem writeFile_eq (c : ConfigUnit) (src : Json) (io : WriteIo) :
    c.writeFile src io =
      (if io.lands then { c with file := some (.doc src) } else c, io.lands) := by
  simp only [ConfigUnit.writeFile, WriteIo.lands]
  by_cases opens : io.opensTmp = true
  · by_cases landed : configWriteLanded io.written io.onDisk io.expected = true
    · by_cases renames : io.renames = true
      · simp [opens, landed, renames]
      · simp [opens, landed, renames]
    · simp [opens, landed]
  · simp [opens]

theorem save_of_not_held {c : ConfigUnit} (free : c.held = none) (io : WriteIo) :
    c.save io = (if io.lands then { c with file := some (.doc c.live) } else c, io.lands) := by
  simp only [ConfigUnit.save, free, writeFile_eq]

/-- A replace that succeeds made the pushed document the live one and the file's. -/
theorem replace_ok {deserializeJson : Reader} {c : ConfigUnit} {json : Str} {write : WriteIo}
    {load : LoadIo} (done : (c.replace deserializeJson json write load).2 = true) :
    ∃ doc, deserializeJson json = .ok doc ∧
      (c.replace deserializeJson json write load).1 = readUnit doc := by
  simp only [ConfigUnit.replace] at done ⊢
  split at done
  · simp at done
  · rename_i begun
    rw [if_neg begun]
    cases parses : deserializeJson json with
    | error left => simp [parses] at done
    | ok doc =>
        simp only [parses, save_of_not_held] at done ⊢
        cases lands : write.lands with
        | false => simp [lands] at done
        | true => exact ⟨doc, rfl, by simp [readUnit]⟩

end Thesada.Config
