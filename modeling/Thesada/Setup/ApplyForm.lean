import Thesada.Config.Writers
import Thesada.Cli.AuthzPolicy
import Thesada.Enroll.Policy

/-!
# The form of the setup page

The page posts a network, its passphrase and the URL of the app. The passphrase is a secret in
NVS, the network and the URL go into the config document and its file. A passphrase that is there
already is replaced only after the save, and a save that fails puts back what came before it.

Each NVS call and each step of a file either fails or does what it is asked to; a write that fails
may have landed all the same.
-/

namespace Thesada.Setup

open CString Json Thesada.Config Thesada.Enroll
open Thesada.Cli (secretNvsKeyFor secretWifiPrefix)
open Thesada.Identity (identityDeviceIdValid)

/-! ## Secrets -/

def MAX_LEN : Nat := 160

/-- What `SECRET_NS` holds, by key. -/
abbrev Nvs := Str → Option Str

inductive EspErr where
  | ok
  | notFound
  | failed
  deriving DecidableEq

structure NvsRead where
  opens : Bool
  reads : Bool

structure NvsWrite where
  opened : EspErr
  sets : Bool
  commits : Bool
  /-- What the flash has after a set or an erase, or a commit, that fails. -/
  lands : Bool

def NvsWrite.succeeds (io : NvsWrite) : Bool := io.opened = .ok && io.sets && io.commits

def NvsWrite.takes (io : NvsWrite) : Bool :=
  io.opened = .ok && (io.sets && io.commits || io.lands)

namespace Secret

def nvsKeyFor (field : Str) : Option Str := secretNvsKeyFor field 16

/-- The string of a key, where it fits the buffer. -/
def resolve (nvs : Nvs) (io : NvsRead) (key : Str) (fallback : Str) (maxLen : Nat) : Str :=
  let fallback := fallback.take (maxLen - 1)
  if !io.opens || !io.reads then fallback
  else
    match nvs key with
    | none => fallback
    | some value => if maxLen ≤ value.length ∨ value = [] then fallback else value

def has (nvs : Nvs) (io : NvsRead) (field : Str) : Bool :=
  match nvsKeyFor field with
  | none => false
  | some key =>
      if !io.opens || !io.reads then false
      else
        match nvs key with
        | none => false
        | some value => 1 < value.length + 1

def clear (nvs : Nvs) (io : NvsWrite) (field : Str) : Nvs × Bool :=
  match nvsKeyFor field with
  | none => (nvs, false)
  | some key =>
      if io.opened = .notFound then (nvs, true)
      else if io.opened = .failed then (nvs, false)
      else if io.sets && (nvs key).isNone then (nvs, true)
      else (if io.takes then Function.update nvs key none else nvs, io.succeeds)

def set (nvs : Nvs) (io : NvsWrite) (field value : Str) : Nvs × Bool :=
  match nvsKeyFor field with
  | none => (nvs, false)
  | some key =>
      if value = [] then clear nvs io field
      else if MAX_LEN ≤ value.length then (nvs, false)
      else (if io.takes then Function.update nvs key (some value) else nvs, io.succeeds)

/-- The secret of a field, none where its string is empty. -/
def stored (nvs : Nvs) (field : Str) : Option Str :=
  ((nvsKeyFor field).bind nvs).filter fun value => !value.isEmpty

end Secret

/-! ## The form -/

def SSID_CAP : Nat := 33
def LINK_CAP : Nat := 320

def isControl (c : Char) : Bool := c < ' ' || c = '\x7f'

def setupSsidUsable (ssid : Str) : Bool :=
  !ssid.isEmpty && ssid.all (fun c => !isControl c) && ssid.length ≤ 32

def setupPassUsable (pass : Str) : Bool :=
  pass.all (fun c => ' ' ≤ c && c < '\x7f') && 8 ≤ pass.length && pass.length ≤ 63

def setupFormUsable (ssid pass url : Str) : Bool :=
  setupSsidUsable ssid && setupPassUsable pass && enrollUrlUsable url

/-- A form that `submit` takes. -/
structure SetupForm where
  ssid : Str
  pass : Str
  url : Str
  usable : setupFormUsable ssid pass url = true

/-- `wifi.password:` and the network. -/
def SetupForm.field (f : SetupForm) : Str := secretWifiPrefix ++ f.ssid

structure SetupUnit where
  nvs : Nvs
  config : ConfigUnit

/-- What the calls of one form give. A form stores its passphrase once, before or after the
save. -/
structure FormIo where
  has : NvsRead
  set : NvsWrite
  write : WriteIo
  load : LoadIo
  clear : NvsWrite
  code : NvsRead
  deviceId : Option Str

/-- What the page shows. -/
structure FormResult where
  link : Str
  error : Str
  deriving DecidableEq

def FormResult.failed (error : Str) : FormResult := ⟨[], error⟩

def CANNOT_STORE : Str := "could not store the passphrase".toList
def CANNOT_SAVE : Str := "could not save the network".toList

def enrollLoadClaimCode (nvs : Nvs) (io : NvsRead) : Option Str :=
  match Secret.nvsKeyFor "enroll.claim_code".toList with
  | none => none
  | some key =>
      let code := Secret.resolve nvs io key [] MAX_LEN
      if enrollClaimCodeValid code then some code else none

def enrollClaimLink (cap : Nat) (base deviceId code : Str) : Option Str :=
  if !enrollUrlUsable base || !identityDeviceIdValid deviceId || !enrollClaimCodeValid code then
    none
  else
    let link := enrollBase base ++ "/devices/claim?device_id=".toList ++ deviceId ++
      "&code=".toList ++ code
    if cap ≤ link.length then none else some link

/-- The end of `applyForm`, with the network saved. -/
def claimLink (nvs : Nvs) (io : FormIo) (base : Str) : FormResult :=
  match enrollLoadClaimCode nvs io.code with
  | none => .failed "network saved; no claim code is seeded".toList
  | some code =>
      match io.deviceId.filter fun id => identityDeviceIdValid id with
      | none => .failed "network saved; claim link could not be built".toList
      | some id =>
          match enrollClaimLink LINK_CAP base id code with
          | none => .failed "claim link did not fit".toList
          | some link => ⟨link, []⟩

def applyForm (u : SetupUnit) (f : SetupForm) (io : FormIo) : SetupUnit × FormResult :=
  let fieldOk : Bool := f.field.length < secretWifiPrefix.length + 1 + SSID_CAP
  let had := fieldOk && Secret.has u.nvs io.has f.field
  let (nvs, set) :=
    if !fieldOk then (u.nvs, false)
    else if had then (u.nvs, true)
    else Secret.set u.nvs io.set f.field f.pass
  if !set then ({ u with nvs := nvs }, .failed CANNOT_STORE)
  else
    let (config, saved) := u.config.applyForm f.ssid f.url io.write io.load
    if !saved then
      ({ nvs := if had then nvs else (Secret.clear nvs io.clear f.field).1, config },
        .failed CANNOT_SAVE)
    else
      let (nvs, set) := if had then Secret.set nvs io.set f.field f.pass else (nvs, true)
      if !set then ({ nvs, config }, .failed CANNOT_STORE)
      else ({ nvs, config }, claimLink nvs io (enrollBase f.url))

/-! ## The config under a form -/

section

variable {c : ConfigUnit}

/-- A held prefix is short enough for the copy that a save makes. -/
def saveFits (c : ConfigUnit) : Bool :=
  c.held.isNone || (livePrefix c.live).length < TOPIC_PREFIX_CAP

/-- The live document after a save. -/
def savedLive (c : ConfigUnit) : Json :=
  match c.held with
  | none => c.live
  | some h =>
      if TOPIC_PREFIX_CAP ≤ (livePrefix c.live).length then c.live
      else setPrefix (livePrefix c.live) (h.onDisk c.live)

theorem save_result (c : ConfigUnit) (io : WriteIo) :
    (c.save io).2 = (saveFits c && io.lands) ∧ (c.save io).1.live = savedLive c ∧
      (c.save io).1.held = c.held ∧ ((c.save io).2 = false → (c.save io).1.file = c.file) := by
  cases held : c.held with
  | none =>
      rw [save_of_not_held held]
      cases lands : io.lands <;> simp [saveFits, savedLive, held]
  | some h =>
      simp only [ConfigUnit.save, held, writeFile_eq, saveFits, savedLive]
      by_cases long : TOPIC_PREFIX_CAP ≤ (livePrefix c.live).length
      · simp [long, held, Nat.not_lt.mpr long]
      · cases lands : io.lands <;> simp [long, held, Nat.lt_of_not_le long]

/-- The members that a save does not touch when it swaps the prefix. -/
theorem swapPrefix_obj (h : Hold) (p : Str) (ms : List (Str × Json)) :
    ∃ ns, setPrefix p (h.onDisk (.obj ms)) = .obj ns ∧
      ∀ k, k ≠ K_MQTT → getMember k ns = getMember k ms := by
  have disk : ∃ ns, h.onDisk (.obj ms) = .obj ns ∧
      ∀ k, k ≠ K_MQTT → getMember k ns = getMember k ms := by
    unfold Hold.onDisk
    split
    · exact ⟨_, rfl, fun k other => getMember_setMember_ne other _ _⟩
    · cases mqtt : getMember K_MQTT ms with
      | none => exact ⟨ms, by simp only [dropPrefix, within, mqtt], fun _ _ => rfl⟩
      | some m =>
          refine ⟨setMember K_MQTT (m.remove K_TOPIC_PREFIX) ms, ?_, fun k other => ?_⟩
          · simp only [dropPrefix, within, mqtt]
          · exact getMember_setMember_ne other _ _
  obtain ⟨ns, same, others⟩ := disk
  rw [same]
  refine ⟨_, rfl, fun k other => ?_⟩
  rw [getMember_setMember_ne other, others k other]

theorem livePrefix_setForm (ssid url : Str) (doc : Json) :
    livePrefix (setForm ssid url doc) = livePrefix doc := by
  cases doc with
  | obj ms =>
      obtain ⟨ns, form, mqtt⟩ := setForm_obj ssid url ms
      rw [form, livePrefix, livePrefix, member, member, mqtt]
  | _ => rfl

/-- A form shows in the document that it leaves: only one that asks for what is there does not
change it. -/
theorem setForm_shows {ssid url : Str} {ms : List (Str × Json)} {ns : List (Str × Json)}
    (form : setForm ssid url (.obj ms) = .obj ns)
    (wifi : getMember K_WIFI ns = getMember K_WIFI ms)
    (enroll : getMember K_ENROLL ns = getMember K_ENROLL ms) : Json.obj ns = .obj ms := by
  have other : K_ENROLL ≠ K_WIFI := by decide
  have members : ∃ w e, setForm ssid url (.obj ms) =
      .obj (setMember K_ENROLL e (setMember K_WIFI w ms)) := ⟨_, _, rfl⟩
  obtain ⟨w, e, same⟩ := members
  obtain rfl := Json.obj.inj (same.symm.trans form)
  congr 1
  rw [getMember_setMember_ne other.symm, getMember_setMember] at wifi
  rw [setMember_same wifi.symm] at enroll ⊢
  rw [getMember_setMember] at enroll
  exact setMember_same enroll.symm

/-- The form and the prefix of a save are undone together only where neither changes anything. -/
theorem savedLive_setForm_iff (ssid url : Str) :
    savedLive { c with live := setForm ssid url c.live } = c.live ↔
      setForm ssid url c.live = c.live ∧ savedLive c = c.live := by
  constructor
  · intro back
    have same : setForm ssid url c.live = c.live := by
      simp only [savedLive] at back
      split at back
      · exact back
      split at back
      · exact back
      cases live : c.live with
      | obj ms =>
          rw [live] at back
          obtain ⟨ns, form, -⟩ := setForm_obj ssid url ms
          rw [form] at back ⊢
          obtain ⟨ns', swapped, others⟩ := swapPrefix_obj _ (livePrefix (.obj ns)) ns
          rw [swapped] at back
          obtain rfl := Json.obj.inj back
          apply setForm_shows form
          · exact (others _ (by decide)).symm
          · exact (others _ (by decide)).symm
      | _ => rfl
    exact ⟨same, by rwa [same] at back⟩
  · rintro ⟨same, back⟩
    rwa [same]

end

/-! ## The passphrase under a form -/

namespace SetupForm

variable (f : SetupForm)

theorem usable_parts : setupSsidUsable f.ssid = true ∧ setupPassUsable f.pass = true := by
  have usable := f.usable
  simp only [setupFormUsable, Bool.and_eq_true] at usable
  exact usable.1

theorem ssid_length : f.ssid ≠ [] ∧ f.ssid.length ≤ 32 := by
  have usable := f.usable_parts.1
  simp only [setupSsidUsable, Bool.and_eq_true, Bool.not_eq_true', List.isEmpty_eq_false_iff,
    decide_eq_true_eq] at usable
  exact ⟨usable.1.1, usable.2⟩

theorem pass_length : 8 ≤ f.pass.length ∧ f.pass.length ≤ 63 := by
  have usable := f.usable_parts.2
  simp only [setupPassUsable, Bool.and_eq_true, decide_eq_true_eq] at usable
  exact ⟨usable.1.2, usable.2⟩

theorem pass_ne_nil : f.pass ≠ [] := by
  intro none
  have least := f.pass_length.1
  rw [none] at least
  exact absurd least (by decide)

theorem field_fits : f.field.length < secretWifiPrefix.length + 1 + SSID_CAP := by
  have count := f.ssid_length.2
  rw [field, List.length_append, SSID_CAP]
  omega

theorem field_unmapped : Cli.secretKeyMap.lookup f.field = none := by
  rw [List.lookup_eq_none_iff]
  intro entry mem
  have others : ∀ entry ∈ Cli.secretKeyMap, entry.1.take 6 ≠ "wifi.p".toList := by decide
  have start : f.field.take 6 = "wifi.p".toList := by
    rw [field, List.take_append_of_le_length (by decide)]
    decide
  rw [bne_iff_ne]
  intro same
  exact others entry mem (same ▸ start)

theorem secretWifiKey_length (ssid : Str) : (Cli.secretWifiKey ssid).length < 16 := by
  have key : Cli.secretWifiKey ssid =
      "wifi_pw_".toList ++ Cli.hex6 (Cli.fnv1a ssid % 16777216) := rfl
  have start : "wifi_pw_".toList.length = 8 := by decide
  have six : ∀ n, (Cli.hex6 n).length = 6 := fun _ => rfl
  generalize Cli.fnv1a ssid % 16777216 = n at key
  rw [key, List.length_append, start, six]
  decide

/-- Every network has a key. -/
theorem field_key : ∃ key, Secret.nvsKeyFor f.field = some key := by
  have named : secretWifiPrefix.isPrefixOf f.field ∧
      f.field.length ≠ secretWifiPrefix.length := by
    refine ⟨List.isPrefixOf_iff_prefix.mpr (List.prefix_append _ _), ?_⟩
    have some := List.length_pos_iff.mpr f.ssid_length.1
    rw [field, List.length_append]
    omega
  refine ⟨Cli.secretWifiKey (f.field.drop secretWifiPrefix.length), ?_⟩
  rw [Secret.nvsKeyFor, secretNvsKeyFor, field_unmapped]
  simp only [if_pos named]
  exact if_pos (secretWifiKey_length _)

end SetupForm

theorem NvsWrite.takes_of_succeeds {io : NvsWrite} (done : io.succeeds = true) :
    io.takes = true := by
  simp only [NvsWrite.succeeds, Bool.and_eq_true] at done
  simp [NvsWrite.takes, done]

namespace Secret

variable {nvs : Nvs} {f : SetupForm} {key : Str}

theorem stored_update (known : nvsKeyFor f.field = some key) (value : Option Str) :
    stored (Function.update nvs key value) f.field = value.filter fun value => !value.isEmpty := by
  rw [stored, known, Option.bind_some, Function.update_self]

theorem stored_pass (known : nvsKeyFor f.field = some key) :
    stored (Function.update nvs key (some f.pass)) f.field = some f.pass := by
  rw [stored_update known]
  simp [f.pass_ne_nil]

theorem set_pass (nvs : Nvs) (io : NvsWrite) (known : nvsKeyFor f.field = some key) :
    set nvs io f.field f.pass =
      (if io.takes then Function.update nvs key (some f.pass) else nvs, io.succeeds) := by
  have short : ¬MAX_LEN ≤ f.pass.length := by
    have most := f.pass_length.2
    rw [MAX_LEN]
    omega
  simp only [set, known, if_neg f.pass_ne_nil, if_neg short]

/-- What is left of a passphrase that was just stored. -/
theorem stored_clear (io : NvsWrite) (known : nvsKeyFor f.field = some key) :
    stored (clear (Function.update nvs key (some f.pass)) io f.field).1 f.field =
      if io.takes then none else some f.pass := by
  have there : stored (Function.update nvs key (some f.pass)) f.field = some f.pass :=
    stored_pass known
  simp only [clear, known, Function.update_self, Option.isNone_some, Bool.and_false,
    Bool.false_eq_true, if_false]
  cases opens : io.opened with
  | ok =>
      cases takes : io.takes with
      | true => simp [Function.update_idem, stored_update known]
      | false => simp [there]
  | notFound => simp [NvsWrite.takes, opens, there]
  | failed => simp [NvsWrite.takes, opens, there]

end Secret

/-! ## A failed save -/

/-- The form gets as far as the save, and the save fails. -/
def SaveFails (u : SetupUnit) (f : SetupForm) (io : FormIo) : Bool :=
  (Secret.has u.nvs io.has f.field || io.set.succeeds) && !(saveFits u.config && io.write.lands)

section

variable {u : SetupUnit} {f : SetupForm} {io : FormIo}

theorem configForm_result (u : SetupUnit) (f : SetupForm) (io : FormIo) :
    (u.config.applyForm f.ssid f.url io.write io.load).2 =
      (saveFits u.config && io.write.lands) := by
  have saved := (save_result
    { u.config with live := setForm f.ssid (enrollBase f.url) u.config.live } io.write).1
  have fits : saveFits { u.config with live := setForm f.ssid (enrollBase f.url) u.config.live } =
      saveFits u.config := by
    simp only [saveFits, livePrefix_setForm]
  rw [fits] at saved
  rw [← saved, ConfigUnit.applyForm]
  generalize ConfigUnit.save _ io.write = done
  obtain ⟨c, ok⟩ := done
  cases ok <;> rfl

/-- A form whose save fails: the passphrase that it stored is cleared, and the file loaded. -/
theorem applyForm_of_saveFails {key : Str} (known : Secret.nvsKeyFor f.field = some key)
    (fails : SaveFails u f io = true) :
    applyForm u f io =
      ({ nvs :=
          if Secret.has u.nvs io.has f.field then u.nvs
          else (Secret.clear (Function.update u.nvs key (some f.pass)) io.clear f.field).1
         config := (u.config.applyForm f.ssid f.url io.write io.load).1 },
        ⟨[], CANNOT_SAVE⟩) := by
  simp only [SaveFails, Bool.and_eq_true, Bool.not_eq_true', Bool.or_eq_true] at fails
  obtain ⟨begun, fails⟩ := fails
  rw [← configForm_result u f io] at fails
  have fieldOk := decide_eq_true f.field_fits
  cases had : Secret.has u.nvs io.has f.field with
  | true =>
      simp [applyForm, fieldOk, had, fails]
      rfl
  | false =>
      have done : io.set.succeeds = true := by simpa [had] using begun
      simp [applyForm, fieldOk, had, fails, Secret.set_pass _ _ known, done,
        NvsWrite.takes_of_succeeds done]
      rfl

/-- The file that is read back holds the live document; or no file is read, and there is nothing
to undo. -/
def LiveBack (c : ConfigUnit) (f : SetupForm) (io : LoadIo) : Prop :=
  match if io.mounts && io.opens then c.file else none with
  | some text => (if io.reads then text.parse else none).getD .null = c.live
  | none => setForm f.ssid (enrollBase f.url) c.live = c.live ∧ savedLive c = c.live

theorem configForm_failed {c : ConfigUnit}
    (fails : (c.applyForm f.ssid f.url io.write io.load).2 = false) :
    (c.applyForm f.ssid f.url io.write io.load).1.file = c.file ∧
      ((c.applyForm f.ssid f.url io.write io.load).1.live = c.live ↔ LiveBack c f io.load) := by
  have undone := savedLive_setForm_iff (c := c) f.ssid (enrollBase f.url)
  obtain ⟨-, live, -, file⟩ :=
    save_result { c with live := setForm f.ssid (enrollBase f.url) c.live } io.write
  unfold ConfigUnit.applyForm at fails ⊢
  generalize ConfigUnit.save _ io.write = done at fails live file ⊢
  obtain ⟨c', ok⟩ := done
  cases ok with
  | true => exact absurd fails (by simp)
  | false =>
      rw [← live] at undone
      have same : c'.file = c.file := file rfl
      simp only [Bool.false_eq_true, if_false]
      cases mounts : io.load.mounts with
      | false => simp [ConfigUnit.load, LiveBack, mounts, same, undone]
      | true =>
          cases text : c.file with
          | none => simp [ConfigUnit.load, LiveBack, mounts, same, text, undone]
          | some text' =>
              cases opens : io.load.opens with
              | false => simp [ConfigUnit.load, LiveBack, mounts, opens, same, text, undone]
              | true => simp [ConfigUnit.load, LiveBack, mounts, opens, same, text]

/-- A form that does not come to a failed save shows an error unless its passphrase is stored. -/
theorem applyForm_otherwise {key : Str} (known : Secret.nvsKeyFor f.field = some key)
    (lands : SaveFails u f io = false) :
    (applyForm u f io).2.error ≠ CANNOT_SAVE ∧
      ((applyForm u f io).2.error = [] →
        Secret.stored (applyForm u f io).1.nvs f.field = some f.pass) := by
  have store : CANNOT_STORE ≠ CANNOT_SAVE ∧ CANNOT_STORE ≠ [] := by decide
  have linked : ∀ nvs, (claimLink nvs io (enrollBase f.url)).error ≠ CANNOT_SAVE := by
    intro nvs
    unfold claimLink
    split
    · exact show "network saved; no claim code is seeded".toList ≠ CANNOT_SAVE by decide
    split
    · exact show "network saved; claim link could not be built".toList ≠ CANNOT_SAVE by
        decide
    split
    · exact show "claim link did not fit".toList ≠ CANNOT_SAVE by decide
    · exact show [] ≠ CANNOT_SAVE by decide
  have fieldOk := decide_eq_true f.field_fits
  simp only [SaveFails, ← configForm_result u f io] at lands
  cases had : Secret.has u.nvs io.has f.field with
  | true =>
      have saved : (u.config.applyForm f.ssid f.url io.write io.load).2 = true := by
        simpa [had] using lands
      cases done : io.set.succeeds with
      | false => simp [applyForm, fieldOk, had, saved, Secret.set_pass _ _ known, done,
          FormResult.failed, store]
      | true => simp [applyForm, fieldOk, had, saved, Secret.set_pass _ _ known, done, linked,
          NvsWrite.takes_of_succeeds done, Secret.stored_pass known]
  | false =>
      cases done : io.set.succeeds with
      | false => simp [applyForm, fieldOk, had, Secret.set_pass _ _ known, done,
          FormResult.failed, store]
      | true =>
          have saved : (u.config.applyForm f.ssid f.url io.write io.load).2 = true := by
            simpa [had, done] using lands
          simp [applyForm, fieldOk, had, saved, Secret.set_pass _ _ known, done, linked,
            NvsWrite.takes_of_succeeds done, Secret.stored_pass known]

/-- A network that is reported as not saved leaves everything as it was, and one that is saved
with another passphrase than the form's is reported. -/
def Reported (u : SetupUnit) (f : SetupForm) (io : FormIo) : Prop :=
  let done := applyForm u f io
  (done.2.error = CANNOT_SAVE →
      Secret.stored done.1.nvs f.field = Secret.stored u.nvs f.field ∧
        done.1.config.file = u.config.file ∧ done.1.config.live = u.config.live) ∧
    (Secret.stored done.1.nvs f.field ≠ some f.pass → done.2.error ≠ [])

/-- The passphrase was known to be there; or it was not there, and is cleared again. -/
def PassBack (u : SetupUnit) (f : SetupForm) (io : FormIo) : Prop :=
  Secret.has u.nvs io.has f.field = true ∨
    Secret.stored u.nvs f.field = if io.clear.takes then none else some f.pass

theorem applyForm_reported_iff (u : SetupUnit) (f : SetupForm) (io : FormIo) :
    Reported u f io ↔
      (SaveFails u f io = true → PassBack u f io ∧ LiveBack u.config f io.load) := by
  obtain ⟨key, known⟩ := f.field_key
  cases fails : SaveFails u f io with
  | false =>
      have reported := applyForm_otherwise known fails
      refine iff_of_true ⟨fun failed => absurd failed reported.1, fun other none => ?_⟩
        fun fails => Bool.noConfusion fails
      exact other (reported.2 none)
  | true =>
      have result := applyForm_of_saveFails known fails
      have unsaved : (u.config.applyForm f.ssid f.url io.write io.load).2 = false := by
        rw [configForm_result]
        simp only [SaveFails, Bool.and_eq_true, Bool.not_eq_true'] at fails
        exact fails.2
      obtain ⟨file, live⟩ := configForm_failed unsaved
      have loud : CANNOT_SAVE ≠ [] := by decide
      have pass : Secret.stored (applyForm u f io).1.nvs f.field = Secret.stored u.nvs f.field ↔
          PassBack u f io := by
        rw [result, PassBack]
        cases Secret.has u.nvs io.has f.field with
        | true => exact iff_of_true rfl (.inl rfl)
        | false =>
            rw [if_neg Bool.false_ne_true, Secret.stored_clear _ known, eq_comm]
            exact ⟨.inr, fun back => back.resolve_left Bool.false_ne_true⟩
      constructor
      · intro reported _
        obtain ⟨kept, -, same⟩ := reported.1 (by rw [result])
        refine ⟨pass.mp kept, live.mp ?_⟩
        rwa [result] at same
      · intro back
        obtain ⟨kept, same⟩ := back rfl
        refine ⟨fun _ => ⟨pass.mpr kept, ?_, ?_⟩, fun _ => ?_⟩
        · rw [result]
          exact file
        · rw [result]
          exact live.mpr same
        · rw [result]
          exact loud

end

/-- A form for `home`. -/
def homeForm : SetupForm where
  ssid := "home".toList
  pass := "new passphrase".toList
  url := "https://app.lan".toList
  usable := by decide

/-- A unit that has a passphrase for `home` but no network. -/
def homeUnit : SetupUnit where
  nvs key :=
    if some key = Secret.nvsKeyFor homeForm.field then some "old passphrase".toList else none
  config := readUnit (.obj [])

/-- The flash is full of other files: every call works but the write of the config. -/
def fullFlash : FormIo where
  has := ⟨true, true⟩
  set := ⟨.ok, true, true, true⟩
  write := ⟨true, 0, 0, 20, true⟩
  load := ⟨true, true, true⟩
  clear := ⟨.ok, true, true, true⟩
  code := ⟨true, true⟩
  deviceId := none

/-- An open that fails before the save costs the old passphrase, one after it leaves the form in
the live document. -/
theorem applyForm_lossy :
    let unread := { fullFlash with has := ⟨false, true⟩ }
    let unloaded := { fullFlash with load := ⟨true, false, true⟩ }
    (applyForm homeUnit homeForm unread).2.error = CANNOT_SAVE ∧
      Secret.stored homeUnit.nvs homeForm.field = some "old passphrase".toList ∧
      Secret.stored (applyForm homeUnit homeForm unread).1.nvs homeForm.field = none ∧
      ¬Reported homeUnit homeForm unread ∧
      (applyForm homeUnit homeForm unloaded).2.error = CANNOT_SAVE ∧
      (homeUnit.config.live.member K_WIFI).isObject = false ∧
      ((applyForm homeUnit homeForm unloaded).1.config.live.member K_WIFI).isObject = true ∧
      ¬Reported homeUnit homeForm unloaded := by
  intro unread unloaded
  have reported : (applyForm homeUnit homeForm unread).2.error = CANNOT_SAVE ∧
      (applyForm homeUnit homeForm unloaded).2.error = CANNOT_SAVE := by decide
  have before : Secret.stored homeUnit.nvs homeForm.field = some "old passphrase".toList := by
    decide
  have after : Secret.stored (applyForm homeUnit homeForm unread).1.nvs homeForm.field = none := by
    decide
  have closed : (homeUnit.config.live.member K_WIFI).isObject = false := by decide
  have shows :
      ((applyForm homeUnit homeForm unloaded).1.config.live.member K_WIFI).isObject = true := by
    decide
  refine ⟨reported.1, before, after, fun claim => ?_, reported.2, closed, shows, fun claim => ?_⟩
  · have kept := (claim.1 reported.1).1
    rw [before, after] at kept
    exact absurd kept (by decide)
  · have same := (claim.1 reported.2).2.2
    rw [same, closed] at shows
    exact Bool.noConfusion shows

end Thesada.Setup
