import Mathlib.Data.Nat.Bitwise
import Thesada.Library.CString

/-!
# Decisions on the OTA verification path

`ota_verify_policy.h`: the digest compare, the version compare and the fled-release
skip. Each definition keeps its source's name. The C strings handed to these
functions come from `String::c_str()` or a fixed buffer, so the null guards of the
source have no counterpart here.
-/

namespace Thesada.Ota

open CString

/-! ## Digest compare -/

/-- Length of a lowercase-hex SHA256 digest, without the terminator. -/
def OTA_SHA256_HEX_LEN : Nat := 64

/-- Case-insensitive, but length-checked first on both sides. -/
def otaShaMatches (computedHex expectedHex : Str) : Bool :=
  if computedHex.length ≠ OTA_SHA256_HEX_LEN then false
  else if expectedHex.length ≠ OTA_SHA256_HEX_LEN then false
  else strcaseeq computedHex expectedHex

theorem otaShaMatches_iff {computedHex expectedHex : Str} :
    otaShaMatches computedHex expectedHex = true ↔
      expectedHex.length = OTA_SHA256_HEX_LEN ∧
        computedHex.map Char.toLower = expectedHex.map Char.toLower := by
  unfold otaShaMatches
  split
  · rename_i short
    simp only [Bool.false_eq_true, false_iff, not_and]
    intro full same
    exact short (by simpa using (congrArg List.length same).trans (by simpa using full))
  · split
    · simp_all
    · simp_all [strcaseeq_iff]

/-! ## Version compare -/

/-- The digits of one field, up to the first that makes it exceed `INT_MAX`. -/
def otaParseDigits : Nat → Str → Option (Nat × Str)
  | v, [] => some (v, [])
  | v, c :: p =>
    if c.isDigit then
      if v * 10 + digitValue c > 2147483647 then none
      else otaParseDigits (v * 10 + digitValue c) p
    else some (v, c :: p)

/-- One field and the text after it. Leading zeros are fine. -/
def otaParseVersionField : Str → Option (Nat × Str)
  | [] => none
  | c :: p => if c.isDigit then otaParseDigits 0 (c :: p) else none

/-- Exactly three unsigned fields. -/
def otaParseVersion (s : Str) : Option (Nat × Nat × Nat) :=
  match otaParseVersionField s with
  | some (major, '.' :: p) =>
    match otaParseVersionField p with
    | some (minor, '.' :: p) =>
      match otaParseVersionField p with
      | some (patch, []) => some (major, minor, patch)
      | _ => none
    | _ => none
  | _ => none

/-- Both sides parse and the remote one is greater field by field. -/
def otaIsNewer (remote localVer : Str) : Bool :=
  match otaParseVersion remote, otaParseVersion localVer with
  | some (rMajor, rMinor, rPatch), some (lMajor, lMinor, lPatch) =>
    if rMajor ≠ lMajor then rMajor > lMajor
    else if rMinor ≠ lMinor then rMinor > lMinor
    else rPatch > lPatch
  | _, _ => false

/-- `force` re-flashes even when the remote is not newer. -/
def otaShouldUpdate (remote localVer : Str) (force : Bool) : Bool :=
  force || otaIsNewer remote localVer

/-- Equal as `N.N.N`; false when either does not parse. -/
def otaSameVersion (a b : Str) : Bool :=
  match otaParseVersion a, otaParseVersion b with
  | some v, some w => v == w
  | _, _ => false

theorem otaSameVersion_iff {a b : Str} :
    otaSameVersion a b = true ↔ ∃ v, otaParseVersion a = some v ∧ otaParseVersion b = some v := by
  unfold otaSameVersion
  cases otaParseVersion a with
  | none => simp
  | some v =>
      cases otaParseVersion b with
      | none => simp
      | some w => simpa using ⟨Eq.symm, Eq.symm⟩

/-- No version is newer than one it equals. -/
theorem not_otaIsNewer_of_same {remote localVer : Str}
    (same : otaSameVersion remote localVer = true) : otaIsNewer remote localVer = false := by
  obtain ⟨v, left, right⟩ := otaSameVersion_iff.mp same
  simp [otaIsNewer, left, right]

theorem otaSameVersion_comm (a b : Str) : otaSameVersion a b = otaSameVersion b a := by
  rw [Bool.eq_iff_iff, otaSameVersion_iff, otaSameVersion_iff]
  exact exists_congr fun _ => and_comm

theorem otaSameVersion_trans {a b c : Str} (left : otaSameVersion a b = true)
    (right : otaSameVersion b c = true) : otaSameVersion a c = true := by
  obtain ⟨v, ha, hb⟩ := otaSameVersion_iff.mp left
  obtain ⟨w, hb', hc⟩ := otaSameVersion_iff.mp right
  obtain rfl : v = w := Option.some.inj (hb.symm.trans hb')
  exact otaSameVersion_iff.mpr ⟨v, ha, hc⟩

example : otaIsNewer "1.10.0".toList "1.9.08".toList = true := by decide

/-! ## Fled-release skip -/

/-- A fled release is refused for this long, then installed again. -/
def OTA_FLED_SKIP_S : Nat := 24 * 60 * 60

/-- Installs per expired skip. -/
def OTA_FLED_TRIES : Nat := 2

/-- After a boot's first save the skip age is saved at most this often. -/
def OTA_FLED_SAVE_S : Nat := 10 * 60

/-- Most a synced clock adds across one reset. -/
def OTA_FLED_GAP_MAX_S : Nat := 60 * 60

/-- Saved skip state. `seenEpoch` is the synced clock at the save, 0 if unsynced. -/
structure OtaFledAge where
  ageS : Nat
  tries : UInt8
  seenEpoch : UInt32
  deriving DecidableEq, Repr

/-- A fresh record. -/
def OtaFledAge.zero : OtaFledAge := { ageS := 0, tries := 0, seenEpoch := 0 }

/-- One NVS word: the age in the low 24 bits, the tries in the next 8, the clock on top.
The fields do not overlap, so the bitwise or of the source is a sum. -/
def otaFledPack (a : OtaFledAge) : Nat :=
  a.seenEpoch.toNat * 2 ^ 32 + a.tries.toNat * 2 ^ 24 + min a.ageS OTA_FLED_SKIP_S

def otaFledUnpack (v : Nat) : OtaFledAge where
  ageS := v % 2 ^ 24
  tries := UInt8.ofNat (v / 2 ^ 24)
  seenEpoch := UInt32.ofNat (v / 2 ^ 32)

/-- A stored word reads back as it was written, with the age held at the limit. -/
theorem otaFledUnpack_pack (a : OtaFledAge) :
    otaFledUnpack (otaFledPack a) = { a with ageS := min a.ageS OTA_FLED_SKIP_S } := by
  have age : min a.ageS OTA_FLED_SKIP_S < 2 ^ 24 := by unfold OTA_FLED_SKIP_S; omega
  have tries : a.tries.toNat < 2 ^ 8 := a.tries.toNat_lt
  have low : otaFledPack a / 2 ^ 24 = a.seenEpoch.toNat * 2 ^ 8 + a.tries.toNat := by
    unfold otaFledPack; omega
  have high : otaFledPack a / 2 ^ 32 = a.seenEpoch.toNat := by
    unfold otaFledPack; omega
  unfold otaFledUnpack
  rw [low, high]
  congr 1
  · unfold otaFledPack; omega
  · rw [← UInt8.toNat_inj, UInt8.toNat_ofNat']
    omega
  · exact UInt32.ofNat_toNat

@[simp] theorem otaFledUnpack_zero : otaFledUnpack 0 = .zero := rfl

@[simp] theorem otaFledPack_zero : otaFledPack .zero = 0 := rfl

/-- The RTC pair's seconds, capped at two saves; noise reads as 0. -/
def otaFledCarry (value check : UInt32) : Nat :=
  if check ≠ ~~~value then 0 else min value.toNat (2 * OTA_FLED_SAVE_S)

/-- Seconds since the last save; a boot's first save also adds clock time off. -/
def otaFledElapsed (upS : Nat) (firstThisBoot : Bool) (seenEpoch nowEpoch : UInt32) : Nat :=
  if !firstThisBoot || seenEpoch == 0 || nowEpoch ≤ seenEpoch then upS
  else
    let gap := nowEpoch.toNat - seenEpoch.toNat
    if gap ≤ upS then upS
    else upS + min (gap - upS) OTA_FLED_GAP_MAX_S

/-- A boot's first save carries the clock gap; later ones wait `OTA_FLED_SAVE_S`. -/
def otaFledSaveDue (unsavedS : Nat) (firstThisBoot : Bool) : Bool :=
  firstThisBoot || unsavedS ≥ OTA_FLED_SAVE_S

/-- The age, held at `OTA_FLED_SKIP_S`. -/
def otaFledAdvance (ageS elapsedS : Nat) : Nat :=
  if ageS ≥ OTA_FLED_SKIP_S ∨ elapsedS ≥ OTA_FLED_SKIP_S - ageS then OTA_FLED_SKIP_S
  else ageS + elapsedS

theorem otaFledAdvance_eq (ageS elapsedS : Nat) :
    otaFledAdvance ageS elapsedS = min (ageS + elapsedS) OTA_FLED_SKIP_S := by
  unfold otaFledAdvance
  split <;> omega

/-- The skip ages only while it can refuse something. -/
def otaFledAges (fled running : Str) (ageS : Nat) : Bool :=
  (otaParseVersion fled).isSome && (ageS < OTA_FLED_SKIP_S && !otaSameVersion fled running)

inductive OtaFledAction where
  /-- Not the fled release. -/
  | none
  /-- Refuse it. -/
  | skip
  /-- Install it; the next check may install it again. -/
  | retry
  /-- Install it; the skip starts over. -/
  | last
  /-- Install it past the skip. -/
  | forced
  deriving DecidableEq, Repr

/-- What `check` does with a manifest version. -/
def otaFledAction (remote fled : Str) (ageS : Nat) (tries : UInt8) (force : Bool) :
    OtaFledAction :=
  if !otaSameVersion remote fled then .none
  else if force then .forced
  else if ageS < OTA_FLED_SKIP_S then .skip
  else if tries.toNat + 1 < OTA_FLED_TRIES then .retry
  else .last

/-- A try whose save failed does not download. -/
def otaFledMayDownload (action : OtaFledAction) (saved : Bool) : Bool :=
  saved || (action ≠ .retry && action ≠ .last)

/-- The age and tries a fled try leaves. -/
def otaFledAfterTry (action : OtaFledAction) (ageS : Nat) (tries : UInt8) (saved : Bool) :
    OtaFledAge :=
  if saved && action = .last then .zero
  else if saved && action = .retry then { ageS, tries := tries + 1, seenEpoch := 0 }
  else { ageS, tries, seenEpoch := 0 }

/-- Record the build an install boots pending, unless the record names it already. -/
def otaFledRecordsInstall (fled installing : Str) : Bool :=
  (otaParseVersion installing).isSome && !otaSameVersion fled installing

/-! ## URLs and redirects -/

/-- A plain `http` URL needs `ota.allow_insecure`. -/
def otaUrlAllowed (url : Str) (allowInsecure : Bool) : Bool :=
  "https://".toList.isPrefixOf url || (allowInsecure && "http://".toList.isPrefixOf url)

/-- Redirects one GET follows. -/
def OTA_REDIRECT_MAX : Nat := 5

/-- A status the GET follows as a redirect. -/
def otaIsRedirect (code : Int) : Bool :=
  code = 301 || code = 302 || code = 303 || code = 307 || code = 308

/-- The scheme of a URL the OTA client fetches. -/
def otaScheme (url : Str) : Option Str :=
  if "https://".toList.isPrefixOf url then some "https://".toList
  else if "http://".toList.isPrefixOf url then some "http://".toList
  else none

/-- The Location is absolute and keeps the scheme of the URL that redirected. -/
def otaRedirectAllowed (url location : Str) : Bool :=
  match otaScheme url with
  | none => false
  | some scheme =>
      scheme.isPrefixOf location &&
        match location.drop scheme.length with
        | [] => false
        | c :: _ => c != '/'

/-- Whether a URL may be fetched depends on its scheme alone. -/
theorem otaUrlAllowed_scheme (url : Str) (allowInsecure : Bool) :
    otaUrlAllowed url allowInsecure = true ↔
      otaScheme url = some "https://".toList ∨
        (allowInsecure = true ∧ otaScheme url = some "http://".toList) := by
  unfold otaUrlAllowed otaScheme
  cases tls : "https://".toList.isPrefixOf url with
  | true => simp
  | false =>
      cases plain : "http://".toList.isPrefixOf url with
      | true => simp
      | false => simp

/-- An allowed redirect keeps the scheme. -/
theorem otaRedirectAllowed_scheme {url location : Str}
    (allowed : otaRedirectAllowed url location = true) :
    otaScheme location = otaScheme url := by
  unfold otaRedirectAllowed at allowed
  cases scheme : otaScheme url with
  | none => simp [scheme] at allowed
  | some text =>
      have kept : text.isPrefixOf location = true := by
        rw [scheme] at allowed
        exact (Bool.and_eq_true_iff.mp allowed).1
      unfold otaScheme at scheme
      split at scheme
      · obtain rfl := Option.some.inj scheme
        exact if_pos kept
      · split at scheme
        · obtain rfl := Option.some.inj scheme
          obtain ⟨rest, rfl⟩ := List.isPrefixOf_iff_prefix.mp kept
          rfl
        · cases scheme

end Thesada.Ota
