import Thesada.Config.GetCommand
import Thesada.Config.HeldPrefix

/-!
# `config.reload`

The command reads the file into the live document and reinitialises the MQTT subscriptions when a
network key has changed. The old values are copied out before the load, into buffers of fixed size
and a `uint16_t`; the new ones are compared as they stand in the document.
-/

namespace Thesada.Config

open CString Json

def MQTT_TOPIC_CAP : Nat := 160

/-- The keys that `config.reload` compares. -/
structure NetworkKeys where
  topicPrefix : Str
  broker : Str
  user : Str
  password : Str
  port : Int
  cmdTopic : Str
  deriving DecidableEq

/-- `cfg[section][key] | text`. -/
def strOr (cfg : Json) (sectionKey key text : String) : Str :=
  ((cfg.member sectionKey.toList).member key.toList).asStr.getD text.toList

/-- `cfg[section][key] | number`. A number that is no `int` is not taken. -/
def intOr (cfg : Json) (sectionKey key : String) (number : Int) : Int :=
  match ((cfg.member sectionKey.toList).member key.toList).asInt with
  | some n => if -2147483648 ≤ n ∧ n ≤ 2147483647 then n else number
  | none => number

/-- The values of a document, with the defaults for what it leaves out. -/
def networkKeys (cfg : Json) : NetworkKeys where
  topicPrefix := strOr cfg "mqtt" "topic_prefix" "thesada/node"
  broker := strOr cfg "mqtt" "broker" ""
  user := strOr cfg "mqtt" "user" ""
  password := strOr cfg "mqtt" "password" ""
  port := intOr cfg "mqtt" "port" 8883
  cmdTopic := strOr cfg "ota" "cmd_topic" ""

/-- The copies of the old values, each in its buffer, and the port in its `uint16_t`. -/
def NetworkKeys.copied (k : NetworkKeys) : NetworkKeys where
  topicPrefix := clipped TOPIC_PREFIX_CAP k.topicPrefix
  broker := clipped 96 k.broker
  user := clipped 64 k.user
  password := clipped 64 k.password
  port := k.port % 65536
  cmdTopic := clipped MQTT_TOPIC_CAP k.cmdTopic

/-- `networkChanged`, from the copies and the new values. -/
def networkChanged (old new : NetworkKeys) : Bool :=
  old.topicPrefix != new.topicPrefix || old.broker != new.broker || old.user != new.user ||
    old.password != new.password || old.cmdTopic != new.cmdTopic || old.port != new.port

structure ReloadRun where
  unit : ConfigUnit
  /-- `reinitSubscriptions` was called. -/
  reinit : Bool
  out : List Str

/-- `cmd_config_reload`. -/
def ConfigUnit.configReload (c : ConfigUnit) (io : LoadIo) : ReloadRun :=
  let old := (networkKeys c.get).copied
  let c := c.load io
  let reinit := networkChanged old (networkKeys c.get)
  { unit := c
    reinit
    out := (if reinit then
        ["Network config changed - reinitializing MQTT subscriptions".toList] else []) ++
      [clipped 96 ("Config reloaded from /config.json (device: ".toList ++
        strOr c.get "device" "name" "?" ++ [')'])] }

/-- The values fit the buffers they are copied to. -/
structure NetworkKeys.Fits (k : NetworkKeys) : Prop where
  topicPrefix : k.topicPrefix.length < TOPIC_PREFIX_CAP
  broker : k.broker.length < 96
  user : k.user.length < 64
  password : k.password.length < 64
  port : 0 ≤ k.port ∧ k.port < 65536
  cmdTopic : k.cmdTopic.length < MQTT_TOPIC_CAP

theorem clipped_eq_iff {cap : Nat} (room : 0 < cap) (text : Str) :
    clipped cap text = text ↔ text.length < cap := by
  rw [clipped]
  constructor
  · intro same
    have size := congrArg List.length same
    rw [List.length_take] at size
    omega
  · intro short
    exact List.take_of_length_le (Nat.le_sub_one_of_lt short)

theorem copied_eq_iff (k : NetworkKeys) : k.copied = k ↔ k.Fits := by
  have clip {cap : Nat} (room : 0 < cap) (text : Str) := clipped_eq_iff room text
  have port : k.port % 65536 = k.port ↔ 0 ≤ k.port ∧ k.port < 65536 := by omega
  constructor
  · intro same
    obtain ⟨topicPrefix, broker, user, password, isPort, cmdTopic⟩ := NetworkKeys.mk.inj same
    refine ⟨?_, ?_, ?_, ?_, port.mp isPort, ?_⟩
    · exact (clip (by decide) _).mp topicPrefix
    · exact (clip (by decide) _).mp broker
    · exact (clip (by decide) _).mp user
    · exact (clip (by decide) _).mp password
    · exact (clip (by decide) _).mp cmdTopic
  · intro fits
    rw [NetworkKeys.copied, (clip (by decide) _).mpr fits.topicPrefix,
      (clip (by decide) _).mpr fits.broker, (clip (by decide) _).mpr fits.user,
      (clip (by decide) _).mpr fits.password, port.mpr fits.port,
      (clip (by decide) _).mpr fits.cmdTopic]

theorem networkChanged_iff (old new : NetworkKeys) : networkChanged old new = true ↔ old ≠ new := by
  cases old
  cases new
  simp only [networkChanged, Bool.or_eq_true, bne_iff_ne, ne_eq, NetworkKeys.mk.injEq]
  tauto

/-- The copies are compared where the values are meant: right for every old value that fits, and
else for new values that are neither the old ones nor their copies. -/
theorem networkChanged_copied_iff (old new : NetworkKeys) :
    (networkChanged old.copied new = true ↔ old ≠ new) ↔
      old.Fits ∨ old ≠ new ∧ new ≠ old.copied := by
  rw [networkChanged_iff, ← copied_eq_iff]
  by_cases fits : old.copied = old
  · rw [fits]
    exact iff_of_true Iff.rfl (.inl rfl)
  · rw [or_iff_right fits]
    by_cases same : old = new
    · rw [← same]
      refine iff_of_false (fun decides => decides.mp fits rfl) fun both => both.1 rfl
    · constructor
      · intro decides
        exact ⟨same, fun copy => decides.mpr same copy.symm⟩
      · rintro ⟨-, noCopy⟩
        exact iff_of_true (fun copy => noCopy copy.symm) same

/-- A document that is no object has the defaults, and so does the null that stands for it. -/
theorem networkKeys_get (c : ConfigUnit) : networkKeys c.get = networkKeys c.live := by
  rw [ConfigUnit.get]
  split
  · rfl
  · next other =>
      cases live : c.live with
      | obj ms => simp [live, isObject] at other
      | _ => rfl

/-- A file that is read is the document that is compared with the live one. -/
theorem load_live {c : ConfigUnit} {io : LoadIo} {disk : Json} (file : c.file = some (.doc disk))
    (lands : io.lands = true) (shallow : disk.depth ≤ ARDUINOJSON_DEFAULT_NESTING_LIMIT) :
    (c.load io).live = disk := by
  simp only [LoadIo.lands, Bool.and_eq_true] at lands
  simp [ConfigUnit.load, lands, file, FileText.parse, shallow]

/-- `config.reload` reinitialises the subscriptions when a network key differs between the live
document and the one it loads, exactly for old values that fit their copies and for new ones that
are neither the old ones nor the copies. A file that can be read is the one it loads. -/
theorem config_reload_iff (c : ConfigUnit) (io : LoadIo) :
    let old := networkKeys c.live
    let new := networkKeys (c.load io).live
    (((c.configReload io).reinit = true ↔ old ≠ new) ↔
      old.Fits ∨ old ≠ new ∧ new ≠ old.copied) ∧
    ∀ disk, c.file = some (.doc disk) → io.lands = true →
      disk.depth ≤ ARDUINOJSON_DEFAULT_NESTING_LIMIT → new = networkKeys disk := by
  constructor
  · rw [ConfigUnit.configReload, networkKeys_get, networkKeys_get]
    exact networkChanged_copied_iff _ _
  · intro disk file lands shallow
    rw [load_live file lands shallow]

def withUser (size : Nat) : Json :=
  .obj [(K_MQTT, .obj [("user".toList, .str (List.replicate size 'u'))])]

theorem config_reload_reads_user :
    networkKeys ((readUnit (withUser 3)).load ⟨true, true, true⟩).live = networkKeys (withUser 3) :=
  (config_reload_iff (readUnit (withUser 3)) ⟨true, true, true⟩).2 (withUser 3) rfl rfl (by decide)

/-- A user name of 64 characters is taken for a changed one in an unchanged file, and a longer one
cut to 63 characters for the same. -/
theorem config_reload_clips :
    let loads : LoadIo := ⟨true, true, true⟩
    let longer : ConfigUnit := { readUnit (withUser 64) with file := some (.doc (withUser 63)) }
    ((readUnit (withUser 64)).configReload loads).reinit = true ∧
      (longer.configReload loads).reinit = false ∧
      networkKeys longer.live ≠ networkKeys (longer.load loads).live := by
  decide +kernel

end Thesada.Config
