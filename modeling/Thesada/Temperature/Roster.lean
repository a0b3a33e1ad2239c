import Mathlib.Data.List.Nodup
import Thesada.Config.Writers
import Thesada.Library.JsonText
import Thesada.Library.Machine

/-!
# The roster of temperature probes

The roster is made from `temperature.sensors` at a boot. A scan of the buses adds the probes that
it does not list, `--prune` drops the ones that no longer answer, and what the file does not list
yet is added to it under a name with the number of the entry. Addresses are compared as texts.
-/

namespace Thesada.Temperature

open CString Json Thesada.Config

/-! ## Addresses and names -/

/-- The eight bytes of a probe. -/
abbrev Rom := { address : List UInt8 // address.length = 8 }

def hexUpper (n : Nat) : Char :=
  if n % 16 < 10 then Char.ofNat (48 + n % 16) else Char.ofNat (55 + n % 16)

def addressToStr (rom : Rom) : Str :=
  rom.1.flatMap fun b => [hexUpper (b.toNat / 16), hexUpper b.toNat]

def hexValue (c : Char) : Option Nat :=
  if c.isDigit then some (c.toNat - 48)
  else if 'a' ≤ c && c ≤ 'f' then some (c.toNat - 87)
  else if 'A' ≤ c && c ≤ 'F' then some (c.toNat - 55)
  else none

/-- `strtol` at base 16. -/
def strtol16 (s : Str) : Int :=
  let (negative, s) := sign (s.dropWhile isSpace)
  let s :=
    match s with
    | '0' :: x :: d :: rest =>
        if (x = 'x' || x = 'X') && (hexValue d).isSome then d :: rest else s
    | _ => s
  let digits := s.takeWhile fun c => (hexValue c).isSome
  let n := digits.foldl (fun n c => 16 * n + (hexValue c).getD 0) 0
  if negative then -(n : Int) else n

/-- The bytes that pairs of characters spell. -/
def hexBytes : Str → List UInt8
  | a :: b :: rest => UInt8.ofInt (strtol16 [a, b]) :: hexBytes rest
  | _ => []

/-- `strncpy` to `name[32]`. -/
def copyName (s : Str) : Str := s.take 31

/-- The last level of a topic for a name. -/
def slug (name : Str) : Str := name.map fun c => (if c = ' ' then '_' else c).toLower

/-! ## The module -/

structure TempSensor where
  address : List UInt8
  addressStr : Str
  name : Str
  busIdx : Nat
  deriving DecidableEq

structure TempUnit where
  config : ConfigUnit
  roster : List TempSensor
  /-- How many buses `begin` set up. -/
  buses : Nat

def nameOf (sensor : Json) : Str := (sensor.member "name".toList).asStr.getD []

/-- An entry of the config as a probe, if its address has sixteen characters. -/
def configSensor (sensor : Json) : Option TempSensor :=
  let addrStr := addressOf sensor
  let sname := nameOf sensor
  if addrStr.length ≠ 16 then none
  else
    some
      { address := hexBytes addrStr
        addressStr := addrStr
        name := copyName (if sname = [] then addrStr else sname)
        busIdx := 0 }

def loadConfigSensors (live : Json) : List TempSensor :=
  ((sensorsOf live).getD []).filterMap configSensor

/-- The first probe with an address put on bus `b`. -/
def retag (addrStr : Str) (b : Nat) : List TempSensor → List TempSensor
  | [] => []
  | s :: rest =>
      if s.addressStr = addrStr then { s with busIdx := b } :: rest
      else s :: retag addrStr b rest

/-- A probe that a scan finds on bus `b`. -/
def discoverSensor (addNew : Bool) (b : Nat) (roster : List TempSensor) (rom : Rom) :
    List TempSensor :=
  let addrStr := addressToStr rom
  if roster.any fun s => s.addressStr = addrStr then retag addrStr b roster
  else if addNew then roster ++ [⟨rom, addrStr, copyName addrStr, b⟩]
  else roster

/-- A scan of the buses, each with the probes that it finds. -/
def discoverSensors (addNew : Bool) :
    (b : Nat) → (found : List (List Rom)) → List TempSensor → List TempSensor
  | _, [], roster => roster
  | b, roms :: found, roster =>
      discoverSensors addNew (b + 1) found (roms.foldl (discoverSensor addNew b) roster)

def autoName (count : Nat) : Str := "temp_".toList ++ Nat.toDigits 10 (count + 1)

/-- The probes with the names that a merge into `doc` gives them. -/
def nameSensors : List TempSensor → Json → List TempSensor
  | [], _ => []
  | s :: rest, doc =>
      let (doc', new) := mergeSensor doc s.addressStr
      (if new then { s with name := autoName ((sensorsOf doc).getD []).length } else s) ::
        nameSensors rest doc'

namespace TempUnit

def addresses (u : TempUnit) : List Str := u.roster.map TempSensor.addressStr

def saveDiscovered (u : TempUnit) (io : TempIo) : TempUnit :=
  match loadConfigBase u.config io with
  | none => u
  | some base =>
      { u with
        config := (u.config.saveDiscovered u.addresses io).1
        roster := nameSensors u.roster (sensorsReady base) }

/-- The probes that do not answer. -/
def dead (u : TempUnit) (answers : Nat → List UInt8 → Bool) (s : TempSensor) : Bool :=
  !(s.busIdx < u.buses && answers s.busIdx s.address)

def pruneSensors (u : TempUnit) (answers : Nat → List UInt8 → Bool) (io : TempIo) : TempUnit :=
  let dropped := (u.roster.filter (u.dead answers)).map TempSensor.addressStr
  { u with
    roster := u.roster.filter fun s => !u.dead answers s
    config := if dropped = [] then u.config else (u.config.removeSensors dropped io).1 }

end TempUnit

def busCount (live : Json) : Nat :=
  match (live.member K_TEMPERATURE).member "buses".toList with
  | .arr (b :: buses) => (b :: buses).length
  | _ => 1

def autoDiscover (live : Json) : Bool :=
  match (live.member K_TEMPERATURE).member "auto_discover".toList with
  | .bool b => b
  | _ => true

inductive Event where
  /-- A restart: the config is loaded and the buses are scanned. -/
  | boot (load : LoadIo) (found : List (List Rom)) (save : TempIo)
  /-- `temp.discover`; with `--prune`, which probes still answer and how the file is edited. -/
  | discover (found : List (List Rom)) (prune : Option ((Nat → List UInt8 → Bool) × TempIo))
      (save : TempIo)

/-- The unit before an event saves, and whether it does. -/
def beforeSave (u : TempUnit) : Event → TempUnit × Bool
  | .boot load found _ =>
      let config := ConfigUnit.load { u.config with live := .null, held := none } load
      let buses := busCount config.live
      let auto := autoDiscover config.live
      let roster :=
        discoverSensors auto 0 (found.take buses) (loadConfigSensors config.live)
      (⟨config, roster, buses⟩, auto)
  | .discover found prune _ =>
      if u.buses = 0 then (u, false)
      else
        let u := { u with roster := discoverSensors true 0 (found.take u.buses) u.roster }
        match prune with
        | none => (u, true)
        | some (answers, io) => (u.pruneSensors answers io, true)

def saveIo : Event → TempIo
  | .boot _ _ save => save
  | .discover _ _ save => save

def step (u : TempUnit) (e : Event) : TempUnit :=
  let (u, saves) := beforeSave u e
  if saves then u.saveDiscovered (saveIo e) else u

/-- A unit without power. -/
def off (file : Option FileText) : TempUnit := ⟨⟨.null, file, none⟩, [], 0⟩

/-! ## The array under the edits -/

def mergeItem (items : List Json) (address : Str) : List Json :=
  if items.any fun s => addressOf s = address then items
  else items ++ [sensorEntry address items.length]

theorem sensorsOf_withSensors (f : List Json → List Json) (doc : Json) :
    sensorsOf (withSensors f doc) = (sensorsOf doc).map f := by
  cases doc with
  | obj ms =>
      cases temperature : getMember K_TEMPERATURE ms with
      | none => simp [sensorsOf, withSensors, within, member, temperature]
      | some t =>
          cases t with
          | obj ts =>
              cases sensors : getMember K_SENSORS ts with
              | none => simp [sensorsOf, withSensors, within, member, temperature, sensors]
              | some j => cases j <;>
                  simp [sensorsOf, withSensors, within, member, temperature, sensors]
          | _ => simp [sensorsOf, withSensors, within, member, temperature]
  | _ => rfl

theorem sensorsOf_mergeSensor (doc : Json) (address : Str) :
    sensorsOf (mergeSensor doc address).1 = (sensorsOf doc).map (mergeItem · address) := by
  cases known : sensorsOf doc with
  | none => simp [mergeSensor, known, sensorsOf_withSensors]
  | some items =>
      simp only [mergeSensor, known, Option.getD_some, Option.map_some, mergeItem]
      split
      · exact known
      · rw [sensorsOf_withSensors, known]
        rfl

theorem sensorsOf_mergeSensors (found : List Str) (doc : Json) :
    sensorsOf (mergeSensors found doc).1 = (sensorsOf doc).map (found.foldl mergeItem) := by
  induction found generalizing doc with
  | nil => simp [mergeSensors]
  | cons address found ih =>
      have rest := ih (mergeSensor doc address).1
      rw [sensorsOf_mergeSensor, Option.map_map] at rest
      exact rest

/-- The array that an edit starts from is the one that is there, or empty. -/
theorem sensorsOf_sensorsReady {doc : Json} {items : List Json}
    (ready : sensorsOf (sensorsReady doc) = some items) :
    sensorsOf doc = some items ∨ items = [] := by
  unfold sensorsReady at ready
  split at ready
  · exact .inl ready
  right
  cases doc with
  | obj ms =>
      cases temperature : (getMember K_TEMPERATURE ms).getD .null with
      | obj ts => simpa [sensorsOf, assign, member, temperature, eq_comm] using ready
      | null => simpa [sensorsOf, assign, member, temperature, getMember, eq_comm] using ready
      | _ => simp [sensorsOf, assign, member, temperature] at ready
  | null => simpa [sensorsOf, assign, member, getMember, eq_comm] using ready
  | _ => simp [sensorsOf, assign, member] at ready

/-- What holds of the sensors array of a document, when there is one. -/
def Sensors (P : List Json → Prop) (doc : Json) : Prop :=
  ∀ items, sensorsOf doc = some items → P items

/-- What holds of the array in the live document and in the file, with no prefix held. -/
structure Docs (P : List Json → Prop) (c : ConfigUnit) : Prop where
  free : c.held = none
  live : Sensors P c.live
  file : ∀ d, c.file = some (.doc d) → Sensors P d

section

variable {P : List Json → Prop} {c : ConfigUnit}

theorem Docs.written (docs : Docs P c) {doc : Json} (new : Sensors P doc) (io : WriteIo) :
    Docs P (c.writeFile doc io).1 := by
  rw [writeFile_eq]
  cases io.lands with
  | false => exact docs
  | true =>
      refine ⟨docs.free, docs.live, fun d same => ?_⟩
      obtain rfl : doc = d := by simpa using same
      exact new

theorem Docs.base (docs : Docs P c) {io : TempIo} {base : Json}
    (loads : loadConfigBase c io = some base) : Sensors P base := by
  unfold loadConfigBase at loads
  split at loads
  · exact absurd loads (by simp)
  split at loads
  · have copied := ConfigUnit.copyDiskDoc_eq loads
    rw [ConfigUnit.onDisk, docs.free] at copied
    exact copied ▸ docs.live
  · rename_i text seen
    split at loads
    · exact absurd loads (by simp)
    split at loads
    · exact absurd loads (by simp)
    rename_i doc parses
    have there : c.file = some text := by
      split at seen
      · exact seen
      · exact absurd seen (by simp)
    have parsed : text.parse = some doc := by
      split at parses
      · exact parses
      · exact absurd parses (by simp)
    split at loads
    · obtain rfl := Option.some.inj loads
      exact docs.file doc (by rw [there, parse_eq_some parsed])
    · exact absurd loads (by simp)

theorem Docs.boots (docs : Docs P c) (io : LoadIo) :
    Docs P (ConfigUnit.load { c with live := .null, held := none } io) := by
  have empty : Sensors P .null := fun items there => absurd there (by simp [sensorsOf, member])
  unfold ConfigUnit.load
  simp only
  split
  · exact ⟨rfl, empty, docs.file⟩
  cases text : c.file with
  | none => exact ⟨rfl, empty, fun d there => by simp at there⟩
  | some text' =>
      simp only
      split
      · exact ⟨rfl, empty, fun d there => docs.file d (text.trans there)⟩
      refine ⟨rfl, ?_, fun d there => docs.file d (text.trans there)⟩
      cases parses : (if io.reads then text'.parse else none) with
      | none => exact empty
      | some doc =>
          have parsed : text'.parse = some doc := by
            split at parses
            · exact parses
            · exact absurd parses (by simp)
          exact docs.file doc (by rw [text, parse_eq_some parsed])

theorem Docs.saves (docs : Docs P c) (empty : P []) {found : List Str}
    (merges : ∀ items, P items → ∀ address ∈ found, P (mergeItem items address)) (io : TempIo) :
    Docs P (c.saveDiscovered found io).1 := by
  unfold ConfigUnit.saveDiscovered
  split
  · exact docs
  · rename_i base loads
    have merged : Sensors P (mergeSensors found (sensorsReady base)).1 := by
      intro items there
      rw [sensorsOf_mergeSensors, Option.map_eq_some_iff] at there
      obtain ⟨start, ready, rfl⟩ := there
      have begun : P start := by
        obtain same | none := sensorsOf_sensorsReady ready
        · exact docs.base loads start same
        · exact none ▸ empty
      exact List.foldlRecOn found mergeItem begun merges
    generalize mergeSensors found (sensorsReady base) = result at merged
    obtain ⟨doc, anyNew⟩ := result
    cases anyNew with
    | false => exact docs
    | true => exact docs.written merged io.write

theorem Docs.removes (docs : Docs P c) {dropped : List Str}
    (filters : ∀ items, P items →
      P ((items.map asObject).filter fun s => !dropped.contains (addressOf s))) (io : TempIo) :
    Docs P (c.removeSensors dropped io).1 := by
  unfold ConfigUnit.removeSensors
  split
  · exact docs
  · rename_i base loads
    split
    · exact docs
    apply docs.written
    intro items there
    rw [sensorsOf_withSensors, Option.map_eq_some_iff] at there
    obtain ⟨start, held, rfl⟩ := there
    exact filters start (docs.base loads start held)

end

/-! ## One entry for a probe -/

theorem hexUpper_pair (b : UInt8) :
    UInt8.ofInt (strtol16 [hexUpper (b.toNat / 16), hexUpper b.toNat]) = b := by
  have all : ∀ n < 256, UInt8.ofInt (strtol16 [hexUpper (n / 16), hexUpper n]) = UInt8.ofNat n := by
    decide +kernel
  rw [all b.toNat b.toNat_lt, UInt8.ofNat_toNat]

theorem hexBytes_addressToStr (rom : Rom) : hexBytes (addressToStr rom) = rom.1 := by
  rw [addressToStr]
  induction rom.1 with
  | nil => rfl
  | cons b bytes ih =>
      rw [List.flatMap_cons, List.cons_append, List.cons_append, List.nil_append, hexBytes,
        hexUpper_pair, ih]

theorem hexUpper_ne_nul (n : Nat) : hexUpper n ≠ '\x00' := by
  have digits : ∀ k < 16,
      (if k < 10 then Char.ofNat (48 + k) else Char.ofNat (55 + k)) ≠ '\x00' := by decide +kernel
  exact digits (n % 16) (Nat.mod_lt n (by decide))

theorem cstr_addressToStr (rom : Rom) : cstr (addressToStr rom) = addressToStr rom := by
  apply cstr_eq_self
  intro c mem
  obtain ⟨b, -, mem⟩ := List.mem_flatMap.mp mem
  obtain rfl | mem := List.mem_cons.mp mem
  · exact hexUpper_ne_nul _
  · exact List.mem_singleton.mp mem ▸ hexUpper_ne_nul _

/-- An address that a scan writes. -/
def Scanned (address : Str) : Prop := ∃ rom, address = addressToStr rom

/-- No probe has two entries, and every address of sixteen characters is as a scan writes it. -/
structure Plain (items : List Json) : Prop where
  once : ∀ address, Scanned address → items.countP (addressOf · = address) ≤ 1
  scanned : ∀ s ∈ items, (addressOf s).length = 16 → Scanned (addressOf s)

theorem Plain.nil : Plain [] := ⟨fun _ _ => by simp, fun _ mem => absurd mem List.not_mem_nil⟩

theorem addressOf_sensorEntry {address : Str} (scanned : Scanned address) (count : Nat) :
    addressOf (sensorEntry address count) = address := by
  obtain ⟨rom, rfl⟩ := scanned
  exact cstr_addressToStr rom

theorem Plain.merges {items : List Json} (plain : Plain items) {address : Str}
    (scanned : Scanned address) : Plain (mergeItem items address) := by
  unfold mergeItem
  split
  · exact plain
  · rename_i absent
    have entry := addressOf_sensorEntry scanned items.length
    constructor
    · intro other known
      rw [List.countP_append, List.countP_singleton, entry]
      by_cases same : address = other
      · subst same
        have none : items.countP (addressOf · = address) = 0 := by
          rw [List.countP_eq_zero]
          intro s mem found
          exact absent (List.any_eq_true.mpr ⟨s, mem, found⟩)
        simp [none]
      · simpa [same] using plain.once other known
    · intro s mem long
      obtain old | new := List.mem_append.mp mem
      · exact plain.scanned s old long
      · rw [List.mem_singleton.mp new, entry]
        exact scanned

theorem addressOf_asObject (s : Json) : addressOf (asObject s) = addressOf s := by
  cases s <;> rfl

theorem Plain.removes {items : List Json} (plain : Plain items) (dropped : List Str) :
    Plain ((items.map asObject).filter fun s => !dropped.contains (addressOf s)) := by
  constructor
  · intro address known
    refine List.filter_sublist.countP_le.trans ?_
    rw [List.countP_map]
    have same : ((fun s => decide (addressOf s = address)) ∘ asObject) =
        fun s => decide (addressOf s = address) := by
      funext s
      rw [Function.comp_apply, addressOf_asObject]
    rw [same]
    exact plain.once address known
  · intro s mem long
    obtain ⟨s, kept, rfl⟩ := List.mem_map.mp (List.mem_filter.mp mem).1
    rw [addressOf_asObject] at long ⊢
    exact plain.scanned s kept long

/-! ## The roster -/

def TempSensor.key (s : TempSensor) : List UInt8 × Str := (s.address, s.addressStr)

/-- The probes of a roster: each has the address that a scan writes, and none is there twice. -/
structure Listed (keys : List (List UInt8 × Str)) : Prop where
  distinct : (keys.map Prod.snd).Nodup
  scanned : ∀ k ∈ keys, ∃ rom : Rom, k = (rom.1, addressToStr rom)

theorem Listed.sublist {keys keys' : List (List UInt8 × Str)} (listed : Listed keys)
    (sub : keys'.Sublist keys) : Listed keys' :=
  ⟨listed.distinct.sublist (sub.map _), fun k mem => listed.scanned k (sub.subset mem)⟩

/-- The bytes are distinct where their texts are. -/
theorem Listed.roms {keys : List (List UInt8 × Str)} (listed : Listed keys) :
    (keys.map Prod.fst).Nodup := by
  have texts : keys.map Prod.snd = (keys.map Prod.fst).map fun bytes =>
      bytes.flatMap fun b => [hexUpper (b.toNat / 16), hexUpper b.toNat] := by
    rw [List.map_map]
    apply List.map_congr_left
    intro k mem
    obtain ⟨rom, rfl⟩ := listed.scanned k mem
    rfl
  have distinct := listed.distinct
  rw [texts] at distinct
  exact distinct.of_map _

theorem keys_retag (addrStr : Str) (b : Nat) (roster : List TempSensor) :
    (retag addrStr b roster).map TempSensor.key = roster.map TempSensor.key := by
  induction roster with
  | nil => rfl
  | cons s roster ih =>
      rw [retag]
      split
      · rfl
      · rw [List.map_cons, List.map_cons, ih]

theorem Listed.discovers {roster : List TempSensor} (listed : Listed (roster.map TempSensor.key))
    (addNew : Bool) (b : Nat) (rom : Rom) :
    Listed ((discoverSensor addNew b roster rom).map TempSensor.key) := by
  unfold discoverSensor
  simp only
  split
  · rw [keys_retag]
    exact listed
  split
  · rename_i absent _
    rw [List.map_append, List.map_singleton]
    constructor
    · rw [List.map_append, List.map_singleton]
      refine listed.distinct.append (List.nodup_singleton _) fun address mem new => absent ?_
      obtain rfl := List.mem_singleton.mp new
      rw [List.map_map, List.mem_map] at mem
      obtain ⟨s, mem, same⟩ := mem
      exact List.any_eq_true.mpr ⟨s, mem, decide_eq_true same⟩
    · intro k mem
      obtain old | new := List.mem_append.mp mem
      · exact listed.scanned k old
      · exact ⟨rom, List.mem_singleton.mp new⟩
  · exact listed

theorem Listed.scans {roster : List TempSensor} (listed : Listed (roster.map TempSensor.key))
    (addNew : Bool) (b : Nat) (found : List (List Rom)) :
    Listed ((discoverSensors addNew b found roster).map TempSensor.key) := by
  induction found generalizing b roster with
  | nil => exact listed
  | cons roms found ih =>
      apply ih
      induction roms generalizing roster with
      | nil => exact listed
      | cons rom roms ih => exact ih (listed.discovers addNew b rom)

theorem keys_nameSensors (roster : List TempSensor) (doc : Json) :
    (nameSensors roster doc).map TempSensor.key = roster.map TempSensor.key := by
  induction roster generalizing doc with
  | nil => rfl
  | cons s roster ih =>
      rw [nameSensors, List.map_cons, List.map_cons, ih]
      congr 1
      split <;> rfl

theorem configSensor_addressStr {s : Json} {t : TempSensor} (made : configSensor s = some t) :
    t.addressStr = addressOf s := by
  unfold configSensor at made
  simp only at made
  split at made
  · exact absurd made (by simp)
  · rw [← Option.some.inj made]

theorem Listed.loads {items : List Json} (plain : Plain items) :
    Listed ((items.filterMap configSensor).map TempSensor.key) := by
  induction items with
  | nil => exact ⟨List.nodup_nil, fun _ mem => absurd mem List.not_mem_nil⟩
  | cons s items ih =>
      have rest : Plain items := by
        refine ⟨fun address known => ?_, fun s mem => plain.scanned s (List.mem_cons_of_mem _ mem)⟩
        exact (List.sublist_cons_self s items).countP_le.trans (plain.once address known)
      have listed := ih rest
      by_cases long : (addressOf s).length = 16
      · obtain ⟨rom, address⟩ := plain.scanned s List.mem_cons_self long
        have entry : ∃ t, configSensor s = some t ∧ t.key = (rom.1, addressToStr rom) := by
          refine ⟨_, if_neg (not_not_intro long), ?_⟩
          simp only [TempSensor.key, address, hexBytes_addressToStr]
        obtain ⟨t, made, key⟩ := entry
        rw [List.filterMap_cons_some made, List.map_cons, key]
        refine ⟨List.nodup_cons.mpr ⟨fun mem => ?_, listed.distinct⟩, fun k mem => ?_⟩
        · have once := plain.once (addressToStr rom) ⟨rom, rfl⟩
          rw [List.countP_cons, if_pos (decide_eq_true address)] at once
          rw [List.map_map, List.mem_map] at mem
          obtain ⟨t', mem, same⟩ := mem
          obtain ⟨s', mem, made'⟩ := List.mem_filterMap.mp mem
          have second : 0 < items.countP (addressOf · = addressToStr rom) := by
            refine List.countP_pos_iff.mpr ⟨s', mem, decide_eq_true ?_⟩
            rw [← configSensor_addressStr made']
            exact same
          omega
        · obtain rfl | old := List.mem_cons.mp mem
          · exact ⟨rom, rfl⟩
          · exact listed.scanned k old
      · rw [List.filterMap_cons_none (by simp [configSensor, long])]
        exact listed

/-! ## Every run -/

structure Inv (u : TempUnit) : Prop where
  docs : Docs Plain u.config
  listed : Listed (u.roster.map TempSensor.key)

theorem Inv.addresses {u : TempUnit} (inv : Inv u) : ∀ address ∈ u.addresses, Scanned address := by
  intro address mem
  obtain ⟨s, listed, rfl⟩ := List.mem_map.mp mem
  obtain ⟨rom, key⟩ := inv.listed.scanned s.key (List.mem_map_of_mem listed)
  exact ⟨rom, congrArg Prod.snd key⟩

theorem Inv.prunes {u : TempUnit} (inv : Inv u) (answers : Nat → List UInt8 → Bool) (io : TempIo) :
    Inv (u.pruneSensors answers io) := by
  refine ⟨?_, inv.listed.sublist (List.filter_sublist.map _)⟩
  unfold TempUnit.pruneSensors
  simp only
  split
  · exact inv.docs
  · exact inv.docs.removes (fun items plain => plain.removes _) io

theorem Inv.before {u : TempUnit} (inv : Inv u) (e : Event) : Inv (beforeSave u e).1 := by
  cases e with
  | boot load found save =>
      have docs := inv.docs.boots load
      refine ⟨docs, Listed.scans ?_ _ _ _⟩
      simp only
      generalize (ConfigUnit.load { u.config with live := .null, held := none } load) = c at docs
      unfold loadConfigSensors
      cases sensors : sensorsOf c.live with
      | none => exact Listed.loads Plain.nil
      | some items => exact Listed.loads (docs.live items sensors)
  | discover found prune save =>
      simp only [beforeSave]
      split
      · exact inv
      have scanned : Inv { u with
          roster := discoverSensors true 0 (found.take u.buses) u.roster } :=
        ⟨inv.docs, inv.listed.scans true 0 _⟩
      cases prune with
      | none => exact scanned
      | some prune => exact scanned.prunes prune.1 prune.2

theorem Inv.step {u : TempUnit} (inv : Inv u) (e : Event) : Inv (Temperature.step u e) := by
  have before := inv.before e
  unfold Temperature.step
  generalize beforeSave u e = result at before
  obtain ⟨v, saves⟩ := result
  cases saves with
  | false => exact before
  | true =>
      simp only [if_true]
      unfold TempUnit.saveDiscovered
      split
      · exact before
      · refine ⟨before.docs.saves Plain.nil (fun items plain address mem => ?_) _, ?_⟩
        · exact plain.merges (before.addresses address mem)
        · rw [keys_nameSensors]
          exact before.listed

/-! ## Names -/

theorem autoName_injective {a b : Nat} (same : autoName a = autoName b) : a = b := by
  have digits : Nat.toDigits 10 (a + 1) = Nat.toDigits 10 (b + 1) := List.append_cancel_left same
  have value := congrArg decimal digits
  rw [JsonText.decimal_toDigits, JsonText.decimal_toDigits] at value
  omega

/-- The characters of a name that the firmware gives: no terminator, and a slug keeps them. -/
theorem autoName_plain {n : Nat} {c : Char} (mem : c ∈ autoName n) :
    c ≠ '\x00' ∧ (if c = ' ' then '_' else c).toLower = c := by
  obtain start | digit := List.mem_append.mp mem
  · have chars : "temp_".toList = ['t', 'e', 'm', 'p', '_'] := rfl
    have all : ∀ c ∈ "temp_".toList, c ≠ '\x00' ∧ (if c = ' ' then '_' else c).toLower = c := by
      rw [chars]
      simp only [List.forall_mem_cons, List.not_mem_nil, false_implies, implies_true, and_true]
      decide
    exact all c start
  · have digit : c.isDigit = true := Nat.isDigit_of_mem_toDigits (by decide) (by decide) digit
    have range : 48 ≤ c.toNat ∧ c.toNat ≤ 57 := by
      simpa [Char.isDigit, UInt32.le_iff_toNat_le] using digit
    have all : ∀ k < 58, 48 ≤ k → Char.ofNat k ≠ '\x00' ∧
        (if Char.ofNat k = ' ' then '_' else Char.ofNat k).toLower = Char.ofNat k := by
      decide +kernel
    have here := all c.toNat (by omega) range.1
    rwa [Char.ofNat_toNat] at here

theorem nameOf_sensorEntry (address : Str) (n : Nat) :
    nameOf (sensorEntry address n) = autoName n := by
  have whole : cstr (autoName n) = autoName n :=
    cstr_eq_self fun c mem => (autoName_plain mem).1
  have other : "address".toList ≠ "name".toList := by decide +kernel
  simp only [nameOf, sensorEntry, member, getMember, if_neg other, if_true, Option.getD_some, asStr]
  exact whole

theorem slug_autoName (n : Nat) : slug (autoName n) = autoName n := by
  rw [slug]
  refine (List.map_congr_left fun c mem => ?_).trans (List.map_id _)
  exact (autoName_plain mem).2

/-- A name that shares its topic with the firmware's name for some entry is not ahead of the
entries. -/
def Numbered (items : List Json) : Prop :=
  ∀ s ∈ items, ∀ n, slug (nameOf s) = autoName n → n < items.length

/-- An entry that was added shares its topic with no other entry. -/
def Fresh (items items' : List Json) : Prop :=
  ∀ i k (hi : i < items'.length) (hk : k < items'.length), items.length ≤ k →
    slug (nameOf items'[i]) = slug (nameOf items'[k]) → i = k

theorem Numbered.nil : Numbered [] := fun _ mem => absurd mem List.not_mem_nil

theorem Numbered.merges {items : List Json} (numbered : Numbered items) (address : Str) :
    Numbered (mergeItem items address) := by
  unfold mergeItem
  split
  · exact numbered
  · intro s mem n same
    rw [List.length_append, List.length_singleton]
    obtain old | new := List.mem_append.mp mem
    · exact Nat.lt_succ_of_lt (numbered s old n same)
    · rw [List.mem_singleton.mp new, nameOf_sensorEntry, slug_autoName] at same
      exact autoName_injective same ▸ Nat.lt_succ_self _

/-- What a merge adds has the names of the places that it takes. -/
theorem foldl_mergeItem (found : List Str) (items : List Json) :
    ∃ new, found.foldl mergeItem items = items ++ new ∧
      ∀ j (h : j < new.length), slug (nameOf new[j]) = autoName (items.length + j) := by
  induction found generalizing items with
  | nil => exact ⟨[], (List.append_nil _).symm, fun j h => absurd h (Nat.not_lt_zero j)⟩
  | cons address found ih =>
      rw [List.foldl_cons]
      by_cases known : items.any fun s => addressOf s = address
      · rw [mergeItem, if_pos known]
        exact ih items
      · rw [mergeItem, if_neg known]
        obtain ⟨new, result, names⟩ := ih (items ++ [sensorEntry address items.length])
        refine ⟨sensorEntry address items.length :: new, ?_, fun j h => ?_⟩
        · rw [result, List.append_assoc, List.singleton_append]
        · cases j with
          | zero => exact (congrArg slug (nameOf_sensorEntry _ _)).trans (slug_autoName _)
          | succ j =>
              have name := names j (Nat.lt_of_succ_lt_succ h)
              rw [List.length_append, List.length_singleton] at name
              rw [List.getElem_cons_succ, name]
              congr 1
              omega

theorem Numbered.fresh {items : List Json} (numbered : Numbered items) (found : List Str) :
    Fresh items (found.foldl mergeItem items) := by
  obtain ⟨new, result, names⟩ := foldl_mergeItem found items
  rw [result]
  have named : ∀ k (hk : k < (items ++ new).length), items.length ≤ k →
      slug (nameOf (items ++ new)[k]) = autoName k := by
    intro k hk behind
    rw [List.getElem_append_right behind, names]
    congr 1
    omega
  intro i k hi hk behind same
  rw [named k hk behind] at same
  by_cases old : i < items.length
  · rw [List.getElem_append_left old] at same
    have before := numbered _ (List.getElem_mem old) k same
    omega
  · rw [named i hi (Nat.le_of_not_lt old)] at same
    exact autoName_injective same

/-- A property of what the save of an event starts from and what it writes. -/
def AtSave (Q : List Json → List Json → Prop) (u : TempUnit) (e : Event) : Prop :=
  let v := (beforeSave u e).1
  (beforeSave u e).2 = true → ∀ base items items', loadConfigBase v.config (saveIo e) = some base →
    sensorsOf (sensorsReady base) = some items →
      sensorsOf (mergeSensors v.addresses (sensorsReady base)).1 = some items' → Q items items'

theorem atSave_fresh {u : TempUnit} {e : Event}
    (numbered : AtSave (fun items _ => Numbered items) u e) : AtSave Fresh u e := by
  intro saves base items items' loads ready merged
  have begun := numbered saves base items items' loads ready merged
  rw [sensorsOf_mergeSensors, ready] at merged
  obtain rfl := Option.some.inj merged
  exact begun.fresh _

/-- No probe is pruned. -/
def DropsNone (u : TempUnit) : Event → Prop
  | .discover found (some (answers, _)) _ =>
      ({ u with roster := discoverSensors true 0 (found.take u.buses) u.roster }).roster.filter
        (u.dead answers) = []
  | _ => True

def NumberedUnit (u : TempUnit) : Prop := Docs Numbered u.config

theorem numbered_before {u : TempUnit} (docs : NumberedUnit u) {e : Event}
    (intact : DropsNone u e) : NumberedUnit (beforeSave u e).1 := by
  cases e with
  | boot load found save => exact docs.boots load
  | discover found prune save =>
      simp only [beforeSave]
      split
      · exact docs
      cases prune with
      | none => exact docs
      | some prune =>
          have none : ∀ roster, roster.filter (u.dead prune.1) = [] →
              (TempUnit.pruneSensors { u with roster } prune.1 prune.2).config = u.config := by
            intro roster empty
            have same : (TempUnit.dead { u with roster } prune.1) = u.dead prune.1 := rfl
            simp only [TempUnit.pruneSensors, same, empty, List.map_nil, if_true]
          rw [NumberedUnit, none _ intact]
          exact docs

theorem numbered_step {u : TempUnit} (docs : NumberedUnit u) {e : Event}
    (intact : DropsNone u e) : NumberedUnit (step u e) ∧ AtSave Fresh u e := by
  have before := numbered_before docs intact
  constructor
  · unfold step
    generalize beforeSave u e = result at before
    obtain ⟨v, saves⟩ := result
    cases saves with
    | false => exact before
    | true =>
        simp only [if_true]
        unfold TempUnit.saveDiscovered
        split
        · exact before
        · apply before.saves Numbered.nil
          exact fun items numbered address _ => numbered.merges address
  · apply atSave_fresh
    intro _ base items _ loads ready _
    obtain there | rfl := sensorsOf_sensorsReady ready
    · exact before.base loads items there
    · exact Numbered.nil

/-- Every file operation works. -/
def works : TempIo := ⟨true, true, true, true, true, ⟨true, 1, 1, 1, true⟩⟩

def loadWorks : LoadIo := ⟨true, true, true⟩

/-- A probe with the number `n`. -/
def probe (n : UInt8) : Rom := ⟨[0x28, 0xFF, 0, 0, 0, 0, 0, n], rfl⟩

/-- The addresses and names in the file. -/
def entries (u : TempUnit) : List (Str × Str) :=
  match u.config.file with
  | some (.doc d) => ((sensorsOf d).getD []).map fun s => (addressOf s, nameOf s)
  | _ => []

/-- A file with one configured probe. -/
def oneSensor (address : Str) : Json :=
  .obj [(K_TEMPERATURE, .obj [(K_SENSORS, .arr [.obj [("address".toList, .str address),
    ("name".toList, .str "Tank".toList)]])])]

end Thesada.Temperature
