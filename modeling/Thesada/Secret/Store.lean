import Mathlib.Logic.Function.Basic
import Thesada.Cli.AuthzPolicy
import Thesada.Library.CString
import Thesada.Library.Machine

/-!
# The secret store

Secrets live under short keys in an NVS namespace; `Secret` maps the name of a field to its key. A
WiFi password is keyed by 24 bits of a hash of its SSID.

What the flash answers is part of a call. A write that `nvs_set_str` or `nvs_erase_key` reports as
done is there for the next read, committed or not; one that fails may be there too.
-/

namespace Thesada.Secret

open CString Machine Cli

def MAX_LEN : Nat := 160

/-- The bits of the hash of an SSID that a key has room for. -/
def ssidHash (ssid : Str) : Nat := fnv1a ssid % 16777216

/-- The key of a field, in the buffer that `Secret` has for it. -/
def nvsKeyFor (field : Str) : Option Str := secretNvsKeyFor field 16

/-! ## The store -/

/-- What the flash answers to a call. -/
structure SecretIo where
  opens : Bool
  /-- `nvs_set_str` or `nvs_erase_key` reports success. -/
  done : Bool
  /-- One that failed took effect. -/
  strays : Bool
  committed : Bool

structure SecretStore where
  /-- The namespace was created. -/
  created : Bool
  nvs : Str → Option Str

namespace SecretStore

def blank : SecretStore := ⟨false, fun _ => none⟩

def write (s : SecretStore) (key : Str) (value : Option Str) (io : SecretIo) : SecretStore :=
  if io.done || io.strays then { s with nvs := Function.update s.nvs key value } else s

def clear (s : SecretStore) (field : Str) (io : SecretIo) : Bool × SecretStore :=
  match nvsKeyFor field with
  | none => (false, s)
  | some key =>
      if !s.created then (true, s)
      else if !io.opens then (false, s)
      else if s.nvs key = none then (true, s)
      else (io.done && io.committed, s.write key none io)

def set (s : SecretStore) (field value : Str) (io : SecretIo) : Bool × SecretStore :=
  match nvsKeyFor field with
  | none => (false, s)
  | some key =>
      if value = [] then s.clear field io
      else if MAX_LEN ≤ value.length then (false, s)
      else if !io.opens then (false, s)
      else (io.done && io.committed, { s with created := true }.write key (some value) io)

/-- A read of a namespace that opens. -/
def resolve (s : SecretStore) (nvsKey fallback : Str) (maxLen : Nat) : Str :=
  match s.nvs nvsKey with
  | some value =>
      if value.length < maxLen ∧ value ≠ [] then value else fallback.take (maxLen - 1)
  | none => fallback.take (maxLen - 1)

def has (s : SecretStore) (field : Str) : Bool :=
  match nvsKeyFor field with
  | none => false
  | some key => (s.nvs key).any fun value => decide (1 < value.length + 1)

end SecretStore

structure SecretCall where
  field : Str
  /-- Empty to clear. -/
  value : Str
  io : SecretIo

/-- `Secret::set`, which clears a field that is set to nothing. -/
def secretStep (s : SecretStore) (c : SecretCall) : SecretStore := (s.set c.field c.value c.io).2

/-! ## Keys -/

theorem digitChar_inj {a b : Nat} (ha : a < 16) (hb : b < 16)
    (same : Nat.digitChar a = Nat.digitChar b) : a = b := by
  have each : ∀ a b : Fin 16, Nat.digitChar a = Nat.digitChar b → a = b := by decide
  exact congrArg Fin.val (each ⟨a, ha⟩ ⟨b, hb⟩ same)

theorem hex6_inj {a b : Nat} (ha : a < 16777216) (hb : b < 16777216) (same : hex6 a = hex6 b) :
    a = b := by
  have digit {x y : Nat} (eq : hexDigit x = hexDigit y) : x % 16 = y % 16 :=
    digitChar_inj (Nat.mod_lt _ (by decide)) (Nat.mod_lt _ (by decide)) eq
  simp only [hex6, List.cons.injEq, and_true] at same
  obtain ⟨h5, h4, h3, h2, h1, h0⟩ := same
  have d5 := digit h5
  have d4 := digit h4
  have d3 := digit h3
  have d2 := digit h2
  have d1 := digit h1
  have d0 := digit h0
  omega

/-- The kinds of fields. -/
inductive Field : Str → Str → Prop
  | scalar {field key : Str} (known : (field, key) ∈ secretKeyMap) : Field field key
  | wifi {ssid : Str} (some : ssid ≠ []) : Field (secretWifiPrefix ++ ssid) (secretWifiKey ssid)

theorem secretWifiKey_length (ssid : Str) : (secretWifiKey ssid).length = 14 := rfl

theorem nvsKeyFor_some {field key : Str} (mapped : nvsKeyFor field = some key) :
    Field field key := by
  unfold nvsKeyFor secretNvsKeyFor at mapped
  cases found : secretKeyMap.lookup field with
  | some k =>
    simp only [found] at mapped
    split at mapped
    · cases mapped
      obtain ⟨before, behind, cut, -⟩ := List.lookup_eq_some_iff.mp found
      exact .scalar (by rw [cut]; simp)
    · cases mapped
  | none =>
    simp only [found] at mapped
    split at mapped
    next network =>
      rw [List.isPrefixOf_iff_prefix] at network
      obtain ⟨⟨ssid, rfl⟩, longer⟩ := network
      rw [List.drop_left] at mapped
      have ssid_some : ssid ≠ [] := by
        rintro rfl
        simp at longer
      split at mapped
      · cases mapped
        exact .wifi ssid_some
      · cases mapped
    next => cases mapped

/-- NVS has room for 15 characters. -/
theorem Field.length_le {field key : Str} (fieldOf : Field field key) : key.length ≤ 15 := by
  cases fieldOf with
  | scalar known =>
    have each : ∀ m ∈ secretKeyMap, m.2.length ≤ 15 := by decide
    exact each _ known
  | wifi _ => exact (secretWifiKey_length _).trans_le (by decide)

/-- Fields that the store cannot tell apart. -/
def Shares (f g : Str) : Prop :=
  f = g ∨ ∃ s t, f = secretWifiPrefix ++ s ∧ g = secretWifiPrefix ++ t ∧ ssidHash s = ssidHash t

theorem secretWifiKey_inj {s t : Str} (same : secretWifiKey s = secretWifiKey t) :
    ssidHash s = ssidHash t :=
  hex6_inj (Nat.mod_lt _ (by decide)) (Nat.mod_lt _ (by decide)) (List.append_cancel_left same)

theorem scalar_ne_wifi {field key ssid : Str} (known : (field, key) ∈ secretKeyMap) :
    key ≠ secretWifiKey ssid := by
  intro same
  have short : ∀ m ∈ secretKeyMap, m.2.take 8 ≠ "wifi_pw_".toList := by decide
  exact short _ known (by rw [same]; rfl)

theorem nvsKeyFor_inj {f g key : Str} (first : nvsKeyFor f = some key)
    (second : nvsKeyFor g = some key) : Shares f g := by
  rcases nvsKeyFor_some first with known | some
  · generalize shared : key = k at second
    rcases nvsKeyFor_some second with known' | _
    · subst shared
      have each : ∀ m ∈ secretKeyMap, ∀ n ∈ secretKeyMap, m.2 = n.2 → m.1 = n.1 := by decide
      exact .inl (each _ known _ known' rfl)
    · exact absurd shared (scalar_ne_wifi known)
  · rename_i s
    generalize shared : secretWifiKey s = k at second
    rcases nvsKeyFor_some second with known' | _
    · exact absurd shared.symm (scalar_ne_wifi known')
    · exact .inr ⟨_, _, rfl, rfl, secretWifiKey_inj shared⟩

/-! ## What a call leaves -/

namespace SecretStore

/-- A namespace that was never created holds nothing. -/
def WellStored (s : SecretStore) : Prop := s.created = false → ∀ key, s.nvs key = none

/-- What is stored under the key of a field once it is set to `value`. -/
def entry (value : Str) : Option Str := if value = [] then none else some value

@[simp] theorem write_created (s : SecretStore) (key : Str) (value : Option Str) (io : SecretIo) :
    (s.write key value io).created = s.created := by
  unfold write
  split <;> rfl

theorem write_nvs (s : SecretStore) (key : Str) (value : Option Str) (io : SecretIo) :
    (s.write key value io).nvs = Function.update s.nvs key value ∨
      io.done = false ∧ (s.write key value io).nvs = s.nvs := by
  unfold write
  cases io.done <;> cases io.strays <;> simp

/-- What a call on the field of `key` may do. -/
structure Leaves (s : SecretStore) (key value : Str) (answer : Bool × SecretStore) : Prop where
  nvs : answer.2.nvs = Function.update s.nvs key (entry value) ∧ value.length < MAX_LEN ∨
    answer.1 = false ∧ answer.2.nvs = s.nvs
  wellStored : answer.2.WellStored

theorem clear_leaves {s : SecretStore} {field key : Str} (stored : s.WellStored)
    (mapped : nvsKeyFor field = some key) (io : SecretIo) :
    s.Leaves key [] (s.clear field io) := by
  have absent (none : s.nvs key = none) : s.nvs = Function.update s.nvs key (entry []) := by
    rw [show entry [] = s.nvs key from none.symm, Function.update_eq_self]
  simp only [clear, mapped]
  split_ifs with uncreated opens empty
  · have nothing : s.nvs key = none := stored (by simpa using uncreated) key
    exact ⟨.inl ⟨absent nothing, by decide⟩, stored⟩
  · exact ⟨.inr ⟨rfl, rfl⟩, stored⟩
  · exact ⟨.inl ⟨absent empty, by decide⟩, stored⟩
  · refine ⟨?_, fun still => absurd still (by simpa using uncreated)⟩
    rcases s.write_nvs key none io with gone | ⟨failed, kept⟩
    · exact .inl ⟨gone, by decide⟩
    · exact .inr ⟨by simp [failed], kept⟩

theorem set_leaves {s : SecretStore} {field key : Str} (stored : s.WellStored)
    (mapped : nvsKeyFor field = some key) (value : Str) (io : SecretIo) :
    s.Leaves key value (s.set field value io) := by
  simp only [set, mapped]
  split_ifs with empty long opens
  · exact empty ▸ clear_leaves stored mapped io
  · exact ⟨.inr ⟨rfl, rfl⟩, stored⟩
  · exact ⟨.inr ⟨rfl, rfl⟩, stored⟩
  · refine ⟨?_, fun still => absurd still (by simp)⟩
    rcases ({ s with created := true } : SecretStore).write_nvs key (some value) io with
      there | ⟨failed, kept⟩
    · exact .inl ⟨by rw [there, entry, if_neg empty], by omega⟩
    · exact .inr ⟨by simp [failed], kept⟩

/-- A field without a key is refused, and a call on another key leaves this one alone. -/
theorem set_frame {s : SecretStore} {field key : Str} (stored : s.WellStored)
    (other : nvsKeyFor field ≠ some key) (value : Str) (io : SecretIo) :
    (s.set field value io).2.nvs key = s.nvs key := by
  cases mapped : nvsKeyFor field with
  | none => simp [set, mapped]
  | some k =>
    rcases (set_leaves stored mapped value io).nvs with ⟨there, _⟩ | ⟨_, kept⟩
    · have apart : key ≠ k := fun same => other (same ▸ mapped)
      rw [there, Function.update_of_ne apart]
    · rw [kept]

theorem set_wellStored {s : SecretStore} (stored : s.WellStored) (c : SecretCall) :
    (secretStep s c).WellStored := by
  cases mapped : nvsKeyFor c.field with
  | none => simpa [secretStep, set, mapped] using stored
  | some key => exact (set_leaves stored mapped c.value c.io).wellStored

theorem run_wellStored {s : SecretStore} (stored : s.WellStored) (cs : List SecretCall) :
    (run secretStep s cs).WellStored := by
  induction cs generalizing s with
  | nil => exact stored
  | cons c cs ih => exact ih (set_wellStored stored c)

theorem run_frame {s : SecretStore} {key : Str} (stored : s.WellStored) {cs : List SecretCall}
    (others : ∀ c ∈ cs, nvsKeyFor c.field ≠ some key) :
    (run secretStep s cs).nvs key = s.nvs key := by
  induction cs generalizing s with
  | nil => rfl
  | cons c cs ih =>
    rw [run_cons, ih (set_wellStored stored c) fun d later => others d (.tail _ later)]
    exact set_frame stored (others c (.head _)) c.value c.io

/-! ## What is read back -/

theorem resolve_congr {s t : SecretStore} {key : Str} (same : s.nvs key = t.nvs key)
    (fallback : Str) (maxLen : Nat) :
    s.resolve key fallback maxLen = t.resolve key fallback maxLen := by
  simp only [resolve, same]

theorem resolve_entry {s : SecretStore} {key value : Str} (holds : s.nvs key = entry value)
    (short : value.length < MAX_LEN) (fallback : Str) :
    s.resolve key fallback MAX_LEN = if value = [] then fallback.take 159 else value := by
  by_cases empty : value = []
  · simp [resolve, holds, entry, empty, MAX_LEN]
  · simp [resolve, holds, entry, empty, short]

theorem has_entry {s : SecretStore} {field key value : Str} (mapped : nvsKeyFor field = some key)
    (holds : s.nvs key = entry value) : s.has field = !value.isEmpty := by
  cases value with
  | nil => simp [has, mapped, holds, entry]
  | cons c rest => simp [has, mapped, holds, entry]

end SecretStore

open SecretStore

def webPassword : SecretCall :=
  ⟨"web.password".toList, "hunter2".toList, ⟨true, true, false, true⟩⟩

def mqttCleared : SecretCall := ⟨"mqtt.password".toList, [], ⟨true, true, false, true⟩⟩

end Thesada.Secret
