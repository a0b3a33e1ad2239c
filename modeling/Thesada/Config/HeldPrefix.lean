import Thesada.Config.Store
import Thesada.Library.Machine

/-!
# The held topic prefix and failed writes

A document pushed over MQTT is on disk with its own topic prefix while the live document keeps
the boot's. A save swaps the two around its write; a replace that fails reads the file back and
holds the boot prefix over it again.

What is kept in step with the file is `Synced`: the live document is the file's document, with
the boot prefix put in while one is held.
-/

namespace Thesada.Config

open CString Json Machine
open ConfigUnit (docPrefix)

inductive ConfigEvent where
  | load (io : LoadIo)
  | replace (json : Str) (write : WriteIo) (load : LoadIo)
  | save (write : WriteIo)
  | holdTopicPrefix (p : Str)

/-- The prefix is handed over as a C string. -/
def configStep (deserializeJson : Reader) (c : ConfigUnit) : ConfigEvent → ConfigUnit
  | .load io => c.load io
  | .replace json write load => (c.replace deserializeJson json write load).1
  | .save write => (c.save write).1
  | .holdTopicPrefix p => (c.holdTopicPrefix (cstr p)).1

/-! ## What is promised -/

/-- The document a boot reads from the file. -/
def ConfigUnit.onFlash (c : ConfigUnit) : Option Json := c.file.bind FileText.parse

/-- A call that failed left the file, and the live document is the file's, with the boot prefix
in it while one is held. -/
def RolledBack (before after : ConfigUnit) : Prop :=
  after.file = before.file ∧ after.held = before.held ∧
    ∃ d, before.onFlash = some d ∧
      after.live = if before.held.isSome then setPrefix (livePrefix before.live) d else d

/-- Failed calls roll back, and a save under a held prefix leaves the file its own prefix. -/
def FailsClean (deserializeJson : Reader) (c : ConfigUnit) : ConfigEvent → Prop
  | .replace json write load =>
      (c.replace deserializeJson json write load).2 = false →
        RolledBack c (c.replace deserializeJson json write load).1
  | .save write =>
      ((c.save write).2 = false → RolledBack c (c.save write).1) ∧
        (c.held.isSome = true →
          (c.save write).1.onFlash.map docPrefix = c.onFlash.map docPrefix)
  | _ => True

/-- The file is read to its end. -/
def LoadIo.lands (io : LoadIo) : Bool := io.mounts && io.opens && io.reads

/-- The pushed document parses and its write lands. -/
def taken (deserializeJson : Reader) (json : Str) (write : WriteIo) : Bool :=
  (deserializeJson json).isOk && write.lands

/-- A load reads the file, or does not get to it while nothing is held; the load after a push
that was not taken reads the file; no prefix that fits is held over a held one. -/
def ReadsBack (deserializeJson : Reader) (c : ConfigUnit) : ConfigEvent → Prop
  | .load io => io.lands = true ∨ (io.mounts && io.opens) = false ∧ c.held = none
  | .replace json write load => taken deserializeJson json write = true ∨ load.lands = true
  | .save _ => True
  | .holdTopicPrefix p => c.held = none ∨ TOPIC_PREFIX_CAP ≤ (cstr p).length

/-! ## The prefix in a document

A document either has no room for a prefix, or writing one makes it an object whose `mqtt` is
an object. -/

/-- The document `ds` with `mqtt` the object `ms`. -/
def withMqtt (ds ms : List (Str × Json)) : Json := .obj (setMember K_MQTT (.obj ms) ds)

@[simp] theorem setPrefix_withMqtt (p : Str) (ds ms : List (Str × Json)) :
    setPrefix p (withMqtt ds ms) = withMqtt ds (setMember K_TOPIC_PREFIX (.str p) ms) := by
  simp [setPrefix, withMqtt, assign]

@[simp] theorem dropPrefix_withMqtt (ds ms : List (Str × Json)) :
    dropPrefix (withMqtt ds ms) = withMqtt ds (removeMember K_TOPIC_PREFIX ms) := by
  simp [dropPrefix, withMqtt, within, remove]

@[simp] theorem livePrefix_withMqtt (ds ms : List (Str × Json)) :
    livePrefix (withMqtt ds ms) = (((getMember K_TOPIC_PREFIX ms).getD .null).asStr).getD [] := by
  simp [livePrefix, withMqtt, member]

theorem docPrefix_withMqtt (ds ms : List (Str × Json)) :
    docPrefix (withMqtt ds ms) =
      match getMember K_TOPIC_PREFIX ms with
      | none => some none
      | some v => v.asStr.map some := by
  cases held : getMember K_TOPIC_PREFIX ms with
  | none => simp [docPrefix, withMqtt, member, child, held]
  | some v => simp [docPrefix, withMqtt, member, child, held]

theorem prefix_place (d : Json) :
    ((∀ p, setPrefix p d = d) ∧ dropPrefix d = d ∧ livePrefix d = [] ∧ docPrefix d = some none) ∨
      ∃ ds ms, (∀ p, setPrefix p d = withMqtt ds (setMember K_TOPIC_PREFIX (.str p) ms)) ∧
        docPrefix d = docPrefix (withMqtt ds ms) := by
  cases d with
  | obj ds =>
      cases mqtt : getMember K_MQTT ds with
      | none =>
          refine .inr ⟨ds, [], fun p => ?_, ?_⟩
          · simp [setPrefix, withMqtt, assign, mqtt, setMember]
          · simp [docPrefix, withMqtt, member, child, mqtt, getMember]
      | some m =>
          cases m with
          | obj ms =>
              refine .inr ⟨ds, ms, fun p => ?_, ?_⟩
              · simp [setPrefix, withMqtt, assign, mqtt]
              · simp [docPrefix, withMqtt, member, child, mqtt]
          | null =>
              refine .inr ⟨ds, [], fun p => ?_, ?_⟩
              · simp [setPrefix, withMqtt, assign, mqtt, setMember]
              · simp [docPrefix, withMqtt, member, child, mqtt, getMember]
          | _ =>
              refine .inl ⟨fun p => ?_, ?_, ?_, ?_⟩
              · simp [setPrefix, assign, mqtt, setMember_same mqtt]
              · simp [dropPrefix, within, mqtt, remove, setMember_same mqtt]
              · simp [livePrefix, member, mqtt, asStr]
              · simp [docPrefix, member, mqtt, child]
  | null =>
      refine .inr ⟨[], [], fun p => ?_, ?_⟩
      · simp [setPrefix, withMqtt, assign, setMember]
      · simp [docPrefix, withMqtt, member, child, setMember, getMember]
  | _ => exact .inl ⟨fun _ => rfl, rfl, rfl, rfl⟩

theorem setPrefix_setPrefix (p q : Str) (d : Json) :
    setPrefix p (setPrefix q d) = setPrefix p d := by
  obtain ⟨fixed, -, -, -⟩ | ⟨ds, ms, set, -⟩ := prefix_place d
  · rw [fixed, fixed]
  · simp [set]

theorem livePrefix_setPrefix (p : Str) (d : Json) :
    livePrefix (setPrefix p d) = cstr p ∨
      livePrefix (setPrefix p d) = [] ∧ ∀ q, setPrefix q d = d := by
  obtain ⟨fixed, -, empty, -⟩ | ⟨ds, ms, set, -⟩ := prefix_place d
  · exact .inr ⟨by rw [fixed, empty], fixed⟩
  · exact .inl (by simp [set, asStr])

/-- Putting back the prefix that is there changes nothing. -/
theorem setPrefix_livePrefix {p : Str} (clean : cstr p = p) (d : Json) :
    setPrefix (livePrefix (setPrefix p d)) d = setPrefix p d := by
  obtain there | ⟨-, fixed⟩ := livePrefix_setPrefix p d
  · rw [there, clean]
  · rw [fixed, fixed]

theorem docPrefix_setPrefix {d : Json} {disk : Str} (pushed : docPrefix d = some (some disk)) :
    docPrefix (setPrefix disk d) = docPrefix d := by
  obtain ⟨-, -, -, absent⟩ | ⟨ds, ms, set, same⟩ := prefix_place d
  · simp [absent] at pushed
  · rw [set, docPrefix_withMqtt, getMember_setMember, pushed]
    rw [same, docPrefix_withMqtt] at pushed
    split at pushed
    · simp at pushed
    · rename_i v held
      cases v with
      | str s =>
          simp only [asStr, Option.map_some, Option.some.injEq] at pushed
          simp [asStr, ← pushed]
      | _ => simp [asStr] at pushed

theorem depth_setPrefix (p : Str) (d : Json) : (setPrefix p d).depth ≤ max d.depth 2 := by
  refine depth_assign (fun m => ?_) d
  refine depth_assign (fun _ => ?_) m
  simp [depth]

theorem depth_dropPrefix (d : Json) : (dropPrefix d).depth ≤ d.depth :=
  depth_within (fun m => depth_remove K_TOPIC_PREFIX m) d

/-! ### The document a save writes -/

/-- The prefix kept for the file is the document's. -/
def Hold.From (h : Hold) (d : Json) : Prop :=
  docPrefix d = some (h.diskTopicPrefix.map Subtype.val)

theorem Hold.From.dropPrefix {d : Json} (absent : docPrefix d = some none) (p : Str) :
    docPrefix (dropPrefix (setPrefix p d)) = some none ∧
      ∀ q, setPrefix q (Config.dropPrefix (setPrefix p d)) = setPrefix q d := by
  obtain ⟨fixed, dropped, -, -⟩ | ⟨ds, ms, set, same⟩ := prefix_place d
  · rw [fixed, dropped]
    exact ⟨absent, fun _ => rfl⟩
  · rw [same, docPrefix_withMqtt] at absent
    split at absent
    · rename_i missing
      refine ⟨?_, fun q => ?_⟩
      · simp [set, docPrefix_withMqtt, removeMember_setMember missing, missing]
      · simp [set, removeMember_setMember missing]
    · rename_i v held
      cases v <;> simp [asStr] at absent

theorem Hold.From.onDisk {h : Hold} {d : Json} (pushed : h.From d) (p : Str) :
    h.From (h.onDisk (setPrefix p d)) ∧
      ∀ q, setPrefix q (h.onDisk (setPrefix p d)) = setPrefix q d := by
  cases kept : h.diskTopicPrefix with
  | none =>
      simp only [Hold.From, kept, Option.map_none] at pushed
      simpa only [Hold.From, Hold.onDisk, kept, Option.map_none] using dropPrefix pushed p
  | some disk =>
      simp only [Hold.From, kept, Option.map_some] at pushed
      simp only [Hold.From, Hold.onDisk, kept, Option.map_some]
      refine ⟨?_, fun q => ?_⟩
      · rw [setPrefix_setPrefix, docPrefix_setPrefix pushed, pushed]
      · rw [setPrefix_setPrefix, setPrefix_setPrefix]

theorem depth_onDisk (h : Hold) (p : Str) (d : Json) :
    (h.onDisk (setPrefix p d)).depth ≤ max d.depth 2 := by
  have laid := depth_setPrefix p d
  cases kept : h.diskTopicPrefix with
  | none =>
      have dropped := depth_dropPrefix (setPrefix p d)
      simp only [Hold.onDisk, kept]
      omega
  | some disk =>
      simpa only [Hold.onDisk, kept, setPrefix_setPrefix] using depth_setPrefix disk.1 d

/-! ## The live document in step with the file -/

/-- The file holds `d`. The live document is `d`, or `d` with the held boot prefix. -/
structure Synced (c : ConfigUnit) (d : Json) : Prop where
  file : c.file = some (.doc d)
  shallow : d.depth ≤ ARDUINOJSON_DEFAULT_NESTING_LIMIT
  free : c.held = none → c.live = d
  laid : ∀ h, c.held = some h → h.From d ∧
    ∃ p, cstr p = p ∧ p.length < TOPIC_PREFIX_CAP ∧ c.live = setPrefix p d

/-- The document a save writes. -/
def ConfigUnit.diskDoc (c : ConfigUnit) : Json :=
  match c.held with
  | none => c.live
  | some h => h.onDisk c.live

namespace Synced

variable {c : ConfigUnit} {d : Json}

theorem parsed (synced : Synced c d) : (FileText.doc d).parse = some d := by
  simp [FileText.parse, synced.shallow]

theorem onFlash (synced : Synced c d) : c.onFlash = some d := by
  rw [ConfigUnit.onFlash, synced.file]
  exact synced.parsed

/-- The held prefix is read off the live document. -/
theorem shown (synced : Synced c d) {h : Hold} (held : c.held = some h) :
    (livePrefix c.live).length < TOPIC_PREFIX_CAP ∧ cstr (livePrefix c.live) = livePrefix c.live ∧
      setPrefix (livePrefix c.live) d = c.live := by
  obtain ⟨-, p, clean, fits, live⟩ := synced.laid h held
  rw [live]
  refine ⟨?_, ?_, setPrefix_livePrefix clean d⟩
  · obtain there | ⟨empty, -⟩ := livePrefix_setPrefix p d
    · rwa [there, clean]
    · rw [empty]
      exact Nat.zero_lt_of_lt fits
  · obtain there | ⟨empty, -⟩ := livePrefix_setPrefix p d
    · rw [there, cstr_cstr]
    · rw [empty]
      rfl

theorem rolledBack (synced : Synced c d) : RolledBack c c := by
  refine ⟨rfl, rfl, d, synced.onFlash, ?_⟩
  cases held : c.held with
  | none => exact synced.free held
  | some h => exact (synced.shown held).2.2.symm

theorem bootPrefix (synced : Synced c d) :
    c.copyBootTopicPrefix TOPIC_PREFIX_CAP = c.held.map fun _ => livePrefix c.live := by
  cases held : c.held with
  | none => simp [ConfigUnit.copyBootTopicPrefix, held]
  | some h =>
      have fits := (synced.shown held).1
      simp [ConfigUnit.copyBootTopicPrefix, held, Nat.not_le.mpr fits]

/-! ### Reading the file back -/

theorem load_eq (synced : Synced c d) {io : LoadIo} (lands : io.lands = true) (left : Json)
    (hold : Option Hold) :
    ({ c with live := left, held := hold } : ConfigUnit).load io =
      { c with live := d, held := none } := by
  simp only [LoadIo.lands, Bool.and_eq_true] at lands
  simp [ConfigUnit.load, lands.1.1, lands.1.2, lands.2, synced.file, synced.parsed]

theorem hold_eq (synced : Synced c d) {h : Hold} (held : c.held = some h) :
    (({ c with live := d, held := none } : ConfigUnit).holdTopicPrefix (livePrefix c.live)).1 =
      c := by
  obtain ⟨fits, -, live⟩ := synced.shown held
  have pushed := (synced.laid h held).1
  have same : ({ c with held := some h, live := c.live } : ConfigUnit) = c := by rw [← held]
  cases kept : h.diskTopicPrefix with
  | none =>
      simp only [Hold.From, kept, Option.map_none] at pushed
      simp only [ConfigUnit.holdTopicPrefix, pushed, fits, if_true, ConfigUnit.hold, live]
      rw [← kept]
      exact same
  | some disk =>
      simp only [Hold.From, kept, Option.map_some] at pushed
      simp only [ConfigUnit.holdTopicPrefix, pushed, disk.2, fits, and_self, dif_pos,
        ConfigUnit.hold, live]
      rw [← kept]
      exact same

/-- A rollback that reads the file undoes what the replace did. -/
theorem rollBack_eq (synced : Synced c d) {io : LoadIo} (lands : io.lands = true) (left : Json) :
    ({ c with live := left, held := none } : ConfigUnit).rollBack io
      (c.held.map fun _ => livePrefix c.live) = c := by
  cases held : c.held with
  | none =>
      simp only [Option.map_none, ConfigUnit.rollBack, synced.load_eq lands]
      rw [← synced.free held, ← held]
  | some h =>
      simp only [Option.map_some, ConfigUnit.rollBack, synced.load_eq lands]
      exact synced.hold_eq held

/-! ### The calls -/

/-- A save writes the file or nothing, and leaves the live document. -/
theorem save_eq (synced : Synced c d) (io : WriteIo) :
    c.save io = (if io.lands then { c with file := some (.doc c.diskDoc) } else c, io.lands) := by
  cases held : c.held with
  | none => rw [save_of_not_held held, ConfigUnit.diskDoc, held]
  | some h =>
      obtain ⟨fits, -, shown⟩ := synced.shown held
      obtain ⟨pushed, p, -, -, live⟩ := synced.laid h held
      have back : setPrefix (livePrefix c.live) (h.onDisk c.live) = c.live := by
        conv_lhs => rw [live, (pushed.onDisk p).2, ← live, shown]
      simp only [ConfigUnit.save, held, Nat.not_le.mpr fits, if_false, writeFile_eq, back,
        ConfigUnit.diskDoc]
      split
      · rfl
      · rfl

theorem save (synced : Synced c d) (io : WriteIo) :
    Synced (c.save io).1 (if io.lands then c.diskDoc else d) := by
  rw [synced.save_eq]
  cases landed : io.lands with
  | false => exact synced
  | true =>
      cases held : c.held with
      | none =>
          refine ⟨by simp, ?_, ?_, ?_⟩
          · simpa [ConfigUnit.diskDoc, held, synced.free held] using synced.shallow
          · simp [ConfigUnit.diskDoc, held]
          · simp
      | some h =>
          obtain ⟨pushed, p, clean, fits, live⟩ := synced.laid h held
          have kept := pushed.onDisk p
          have deep := depth_onDisk h p d
          have shallow := synced.shallow
          rw [← live] at kept deep
          refine ⟨by simp, ?_, by simp, ?_⟩
          · simp only [if_true, ConfigUnit.diskDoc, held]
            simp only [ARDUINOJSON_DEFAULT_NESTING_LIMIT] at shallow ⊢
            omega
          · simp only [if_true, held, Option.some.injEq, forall_eq', ConfigUnit.diskDoc]
            exact ⟨kept.1, p, clean, fits, by rw [kept.2, live]⟩

/-- A save under a held prefix leaves the file the prefix it has. -/
theorem save_prefix (synced : Synced c d) (io : WriteIo) {h : Hold} (held : c.held = some h) :
    (c.save io).1.onFlash.map docPrefix = c.onFlash.map docPrefix := by
  rw [(synced.save io).onFlash, synced.onFlash]
  obtain ⟨pushed, p, -, -, live⟩ := synced.laid h held
  cases landed : io.lands with
  | false => rfl
  | true =>
      have kept : h.From c.diskDoc := by
        rw [ConfigUnit.diskDoc, held, live]
        exact (pushed.onDisk p).1
      simp only [if_true, Option.map_some]
      rw [kept, pushed]

/-- A push that is taken replaces the document and the file and ends the hold. -/
theorem replace_taken (synced : Synced c d) {deserializeJson : Reader} {json : Str} {doc : Json}
    (parses : deserializeJson json = .ok doc) {write : WriteIo} (lands : write.lands = true)
    (load : LoadIo) :
    c.replace deserializeJson json write load = (readUnit doc, true) := by
  simp only [ConfigUnit.replace, synced.bootPrefix, parses]
  rw [save_of_not_held rfl, lands]
  cases c.held with
  | none => rfl
  | some h => rfl

/-- A push that is not taken leaves everything as it was when the file is read back. -/
theorem replace_failed (synced : Synced c d) {deserializeJson : Reader} {json : Str}
    {write : WriteIo} (refused : taken deserializeJson json write = false) {load : LoadIo}
    (lands : load.lands = true) :
    c.replace deserializeJson json write load = (c, false) := by
  have undone := synced.rollBack_eq lands
  have begun : (c.held.isSome && (c.held.map fun _ => livePrefix c.live).isNone) = false := by
    cases c.held with
    | none => rfl
    | some h => rfl
  simp only [ConfigUnit.replace, synced.bootPrefix, begun, Bool.false_eq_true, if_false]
  cases parses : deserializeJson json with
  | error left => simp only [undone]
  | ok doc =>
      have dropped : write.lands = false := by
        simpa [taken, parses, Except.isOk, Except.toBool] using refused
      simp [save_of_not_held, dropped, undone]

theorem replace (synced : Synced c d) {deserializeJson : Reader}
    (limited : ∀ t doc, deserializeJson t = .ok doc →
      doc.depth ≤ ARDUINOJSON_DEFAULT_NESTING_LIMIT) {json : Str} {write : WriteIo} {load : LoadIo}
    (reads : taken deserializeJson json write = true ∨ load.lands = true) :
    (∃ d, Synced (c.replace deserializeJson json write load).1 d) ∧
      FailsClean deserializeJson c (.replace json write load) := by
  cases verdict : taken deserializeJson json write with
  | false =>
      have failed := synced.replace_failed verdict (reads.resolve_left (by simp [verdict]))
      refine ⟨⟨d, ?_⟩, ?_⟩
      · rwa [failed]
      · intro _
        rw [failed]
        exact synced.rolledBack
  | true =>
      simp only [taken, Bool.and_eq_true] at verdict
      obtain ⟨parsed, lands⟩ := verdict
      cases parses : deserializeJson json with
      | error left => simp [parses, Except.isOk, Except.toBool] at parsed
      | ok doc =>
          have done := synced.replace_taken parses lands load
          refine ⟨⟨doc, ?_⟩, ?_⟩
          · rw [done]
            exact ⟨rfl, limited json doc parses, fun _ => rfl, by simp [readUnit]⟩
          · simp [FailsClean, done]

theorem load (synced : Synced c d) {io : LoadIo}
    (reads : io.lands = true ∨ (io.mounts && io.opens) = false ∧ c.held = none) :
    Synced (c.load io) d := by
  obtain lands | ⟨unread, free⟩ := reads
  · have done : c.load io = { c with live := d, held := none } :=
      synced.load_eq lands c.live c.held
    rw [done]
    exact ⟨synced.file, synced.shallow, fun _ => rfl, by simp⟩
  · have same : (⟨c.live, some (.doc d), none⟩ : ConfigUnit) = c := by
      rw [← synced.file, ← free]
    have done : c.load io = c := by
      simp only [ConfigUnit.load, synced.file, same]
      cases mounted : io.mounts with
      | false => simp
      | true =>
          simp only [mounted, Bool.true_and] at unread
          simp [unread]
    rwa [done]

/-- A hold that is taken keeps the file's prefix aside. -/
theorem holdTopicPrefix (synced : Synced c d) {p : Str}
    (fresh : c.held = none ∨ TOPIC_PREFIX_CAP ≤ (cstr p).length) :
    Synced (c.holdTopicPrefix (cstr p)).1 d := by
  simp only [ConfigUnit.holdTopicPrefix]
  have lays {disk : Option TopicPrefix} (kept : docPrefix c.live = some (disk.map Subtype.val))
      (fits : (cstr p).length < TOPIC_PREFIX_CAP) : Synced (c.hold disk (cstr p)) d := by
    have live := synced.free (fresh.resolve_right (Nat.not_le.mpr fits))
    refine ⟨synced.file, synced.shallow, by simp [ConfigUnit.hold], ?_⟩
    simp only [ConfigUnit.hold, Option.some.injEq, forall_eq']
    exact ⟨live ▸ kept, cstr p, cstr_cstr p, fits, by rw [live]⟩
  split
  · exact synced
  · rename_i missing
    split
    · rename_i fits
      exact lays missing fits
    · exact synced
  · rename_i disk there
    split
    · rename_i fits
      exact lays there fits.2
    · exact synced

end Synced

/-! ## Every run -/

theorem configStep_synced {deserializeJson : Reader}
    (limited : ∀ t doc, deserializeJson t = .ok doc →
      doc.depth ≤ ARDUINOJSON_DEFAULT_NESTING_LIMIT) (c : ConfigUnit) (e : ConfigEvent)
    (synced : ∃ d, Synced c d) (reads : ReadsBack deserializeJson c e) :
    (∃ d, Synced (configStep deserializeJson c e) d) ∧ FailsClean deserializeJson c e := by
  obtain ⟨d, synced⟩ := synced
  cases e with
  | load io => exact ⟨⟨d, synced.load reads⟩, trivial⟩
  | replace json write load => exact synced.replace limited reads
  | save write =>
      refine ⟨⟨_, synced.save write⟩, ?_, ?_⟩
      · intro failed
        rw [synced.save_eq] at failed ⊢
        simp only at failed
        simpa [failed] using synced.rolledBack
      · intro laid
        obtain ⟨h, held⟩ := Option.isSome_iff_exists.mp laid
        exact synced.save_prefix write held
  | holdTopicPrefix p => exact ⟨⟨d, synced.holdTopicPrefix reads⟩, trivial⟩

/-- `mqtt` with a broker and a topic prefix. -/
def prefixed (p : Str) : Json :=
  .obj [(K_MQTT, .obj [("broker".toList, .str "mqtt.local".toList), (K_TOPIC_PREFIX, .str p)])]

def pushedText : Str :=
  "\x7b\"mqtt\":\x7b\"broker\":\"mqtt.local\",\"topic_prefix\":\"farm/b\"\x7d\x7d".toList

def knowsPush : Reader := readsOnly pushedText (prefixed "farm/b".toList)

theorem knowsPush_limited (t : Str) (doc : Json) (parses : knowsPush t = .ok doc) :
    doc.depth ≤ ARDUINOJSON_DEFAULT_NESTING_LIMIT := by
  simp only [knowsPush, readsOnly] at parses
  split at parses
  · obtain rfl := Except.ok.inj parses
    decide
  · simp at parses

def writes : WriteIo :=
  { opensTmp := true, written := 60, onDisk := 60, expected := 60, renames := true }

def tornWrite : WriteIo := { writes with onDisk := 12 }

def reads : LoadIo := { mounts := true, opens := true, reads := true }

end Thesada.Config
