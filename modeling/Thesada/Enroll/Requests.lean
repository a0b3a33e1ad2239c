import Thesada.Config.CmdConfigVerdict
import Thesada.Config.Writers
import Thesada.Enroll.RequestPace
import Thesada.Enroll.StatusMessage
import Thesada.Library.JsonObject

/-!
# What enrollment posts

A request is a URL and a JSON body, printed into buffers of the job. The client of
`Enroll.Client` is told whether both were built; here it is handed what the printing gives.

A request that cannot be built turns enrollment off until the next boot. With the URL of the boot,
the identity of the unit and a signature over the challenge, that does not happen, unless the claim
code is gone. The app rebuilds the signed statement of a status check from the members of the body.
-/

namespace Thesada.Enroll

open CString Machine Thesada.Config Thesada.Identity
open JsonGrammar (Text RfcBody Tree Printed printedObject memberTree MemberFits QUOTE COMMA COLON
  opening closing)

def ENROLL_PATH : Str := "/api/v1/devices/enroll".toList
def ENROLL_STATUS_SUFFIX : Str := "/status".toList
def ENROLL_SIG_HEX_LEN : Nat := 128
/-- `sizeof(EnrollJob::url)`. -/
def JOB_URL_CAP : Nat := ENROLL_URL_CAP + 32
def BODY_CAP : Nat := 384
/-- `char msg[128]`. -/
def MSG_CAP : Nat := 128

def K_DEVICE_ID : Str := "device_id".toList
def K_PUBKEY : Str := "pubkey".toList
def K_CLAIM_TOKEN : Str := "claim_token".toList
def K_SIGNATURE : Str := "signature".toList
def K_SERIAL : Str := "serial".toList
def K_TS : Str := "ts".toList

/-! ## What is printed -/

def stepSuffix : EnrollStep → Str
  | .verify => "/verify".toList
  | .poll => "/cert".toList
  | .ack => "/ack".toList
  | _ => []

def enrollHexValid (s : Str) (len : Nat) : Bool := enrollHexLen s = some len

def enrollEndpoint (cap : Nat) (base suffix : Str) : Option Str :=
  if !enrollUrlUsable base then none
  else
    let out := enrollBase base ++ ENROLL_PATH ++ suffix
    if cap ≤ out.length then none else some out

/-- `{"device_id":"%s","pubkey":"%s`, which both bodies begin with. -/
def bodyHead (deviceId pubkeyHex : Str) : Str :=
  "\x7b\"device_id\":\"".toList ++ deviceId ++ "\",\"pubkey\":\"".toList ++ pubkeyHex

def enrollBody (cap : Nat) (deviceId pubkeyHex key value : Str) : Option Str :=
  if !identityDeviceIdValid deviceId then none
  else if !enrollHexValid pubkeyHex (IDENTITY_PUBKEY_LEN * 2) then none
  else if !((key = K_CLAIM_TOKEN && enrollClaimCodeValid value) ||
      (key = K_SIGNATURE && enrollHexValid value ENROLL_SIG_HEX_LEN)) then none
  else
    let out := bodyHead deviceId pubkeyHex ++ "\",\"".toList ++ key ++ "\":\"".toList ++ value ++
      "\"\x7d".toList
    if cap ≤ out.length then none else some out

def enrollStatusBody (cap : Nat) (deviceId pubkeyHex serial : Str) (ts : Int) (sigHex : Str) :
    Option Str :=
  if !identityDeviceIdValid deviceId || !enrollSerialValid serial then none
  else if !enrollHexValid pubkeyHex (IDENTITY_PUBKEY_LEN * 2) then none
  else if !enrollHexValid sigHex ENROLL_SIG_HEX_LEN || ts < ENROLL_STATUS_MIN_EPOCH then none
  else
    let out := bodyHead deviceId pubkeyHex ++ "\",\"serial\":\"".toList ++ serial ++
      "\",\"ts\":".toList ++ Nat.toDigits 10 ts.toNat ++ ",\"signature\":\"".toList ++ sigHex ++
      "\"\x7d".toList
    if cap ≤ out.length then none else some out

/-! ## The unit that posts -/

/-- The identity of a unit. The signature scheme is a parameter, with the length of what it
writes. -/
structure UnitKeys where
  deviceId : Str
  valid : identityDeviceIdValid deviceId = true
  pk : Bytes
  pk_length : pk.length = IDENTITY_PUBKEY_LEN
  sign : Str → Bytes
  sign_length : ∀ msg, (sign msg).length = 64

/-- What a request is for, with what was signed for it. -/
inductive Purpose where
  | claims (step : EnrollStep) (code : Str)
  | verifies (challenge : Str)
  | checks (serial : Str) (ts : Int)

def Purpose.suffix : Purpose → Str
  | .claims step _ => stepSuffix step
  | .verifies _ => stepSuffix .verify
  | .checks _ _ => ENROLL_STATUS_SUFFIX

/-- What a status check signs. -/
def statement (deviceId serial : Str) (ts : Int) : Str :=
  ENROLL_STATUS_DOMAIN ++ '\n' :: deviceId ++ '\n' :: serial ++ '\n' :: Nat.toDigits 10 ts.toNat

def textMember (name value : Str) : JsonGrammar.Bytes × Printed := (ascii name, .str (ascii value))

/-- The members of the body after the id. -/
def Purpose.members (k : UnitKeys) (p : Purpose) : List (JsonGrammar.Bytes × Printed) :=
  textMember K_PUBKEY (hexOf k.pk) ::
    match p with
    | .claims _ code => [textMember K_CLAIM_TOKEN code]
    | .verifies challenge => [textMember K_SIGNATURE (hexOf (k.sign challenge))]
    | .checks serial ts =>
        [textMember K_SERIAL serial, (ascii K_TS, .number (ascii (Nat.toDigits 10 ts.toNat))),
          textMember K_SIGNATURE (hexOf (k.sign (statement k.deviceId serial ts)))]

structure Posted where
  base : Str
  purpose : Purpose
  url : Str
  body : Str

/-- The URL is that of the request, and the body is one JSON text with these members. -/
structure Posted.Whole (k : UnitKeys) (p : Posted) : Prop where
  usable : enrollUrlUsable p.base = true
  url : p.url = enrollBase p.base ++ ENROLL_PATH ++ p.purpose.suffix
  reads : ∀ d t, Text RfcBody (d + 1) (ascii p.body) t ↔
    t = .node true ((textMember K_DEVICE_ID k.deviceId :: p.purpose.members k).map memberTree)

structure Sender where
  unit : EnrollUnit
  /-- `_url`. -/
  url : Str
  sigHex : Str
  /-- What `sigHex` is a signature of. -/
  challenge : Str
  /-- Newest first. -/
  posts : List Posted

/-- An event of the client, with what `enrollLoadClaimCode` finds and the time in it. -/
structure SendEvent where
  event : EnrollEvent
  code : Option Str
  ts : Int

namespace Sender

variable (deserializeJson : Reader) (tls : Mqtt.Mbedtls) (serialOf : Str → Option Str)
variable (k : UnitKeys)

def off (stores : EnrollStores) (load : Config.LoadIo) : Sender :=
  ⟨EnrollUnit.poweredUp stores load, [], [], [], []⟩

/-- The request of `startJob`. -/
def stepPost (s : Sender) (code : Option Str) : Option Posted :=
  (enrollEndpoint JOB_URL_CAP s.url (stepSuffix s.unit.step)).bind fun url =>
    if s.unit.step = .verify then
      (enrollBody BODY_CAP k.deviceId (hexOf k.pk) K_SIGNATURE s.sigHex).map
        (⟨s.url, .verifies s.challenge, url, ·⟩)
    else
      (code.filter fun c => enrollClaimCodeValid c).bind fun code =>
        (enrollBody BODY_CAP k.deviceId (hexOf k.pk) K_CLAIM_TOKEN code).map
          (⟨s.url, .claims s.unit.step code, url, ·⟩)

/-- The request of `startCheck`. -/
def checkPost (s : Sender) (io : TurnIo) (ts : Int) : Option Posted :=
  (EnrollUnit.readSerial serialOf s.unit.stores.cert.nvs io.serial).bind fun raw =>
    (enrollSerialCanonical raw ENROLL_SERIAL_HEX_CAP).bind fun serial =>
      (enrollStatusMessage MSG_CAP k.deviceId serial ts).bind fun msg =>
        if !io.signs then none
        else
          (identityHexEncode (k.sign msg) (ENROLL_SIG_HEX_LEN + 1)).bind fun sigHex =>
            (enrollEndpoint JOB_URL_CAP s.url ENROLL_STATUS_SUFFIX).bind fun url =>
              (enrollStatusBody BODY_CAP k.deviceId (hexOf k.pk) serial ts sigHex).map
                (⟨s.url, .checks serial ts, url, ·⟩)

def post (s : Sender) (e : SendEvent) (io : TurnIo) : Option Posted :=
  if s.unit.active then s.stepPost k e.code else s.checkPost serialOf k io e.ts

/-- The answer to an enrollment request that a turn takes. -/
def taken (u : EnrollUnit) : Option EnrollJob :=
  if u.reapStale.stale.isSome then none else u.job.filter fun job => job.done && !job.isStatusCheck

/-- The challenge that `onChallenge` signs in a turn. -/
def signed (u : EnrollUnit) (io : TurnIo) : Option Str :=
  (taken u).bind fun job =>
    if u.step = .announce ∧ job.status = 200 ∧
        EnrollUnit.onChallenge deserializeJson job.reply io.signs = true then
      (deserializeJson job.reply).toOption.map fun doc => strMember doc "challenge"
    else none

/-- `_sigHex` after a turn, and what it is a signature of. -/
def afterTurn (s : Sender) (io : TurnIo) : Str × Str :=
  match signed deserializeJson s.unit io with
  | some challenge =>
      ((identityHexEncode (k.sign challenge) (ENROLL_SIG_HEX_LEN + 1)).getD [], challenge)
  | none =>
      if (taken s.unit).isSome ∧ s.unit.step = .verify then ([], s.challenge)
      else (s.sigHex, s.challenge)

/-- A turn with the request that it would post. -/
def withPost (io : TurnIo) (post : Option Posted) : TurnIo :=
  { io with start := { io.start with builds := post.isSome } }

def step (s : Sender) (e : SendEvent) : Sender :=
  match e.event with
  | .boot io =>
      { s with
        unit := enrollStep deserializeJson tls serialOf s.unit (.boot io)
        url := if io.hasIdentity && enrollUrlUsable io.url then io.url else []
        sigHex := []
        challenge := [] }
  | .loop io =>
      let post := s.post serialOf k e io
      let unit := s.unit.loop deserializeJson tls serialOf (withPost io post)
      let (sigHex, challenge) := s.afterTurn deserializeJson k io
      { s with
        unit
        sigHex
        challenge
        posts := if s.unit.job.isNone && unit.job.isSome then post.toList ++ s.posts else s.posts }
  | event => { s with unit := enrollStep deserializeJson tls serialOf s.unit event }

end Sender

/-! ## The text of a body -/

section

variable {deviceId pubkeyHex key value serial sigHex out : Str} {cap : Nat} {ts : Int}

theorem ascii_append (s t : Str) : ascii (s ++ t) = ascii s ++ ascii t := List.map_append

theorem isIdHex_plain {c : Char} (hex : isIdHex c = true) : plainAscii c = true := by
  have table : ∀ n : Fin 128, isIdHex (Char.ofNat n) = true → plainAscii (Char.ofNat n) = true := by
    decide
  have small : c.toNat < 128 := by
    simp only [isIdHex, Char.isDigit, Bool.or_eq_true, Bool.and_eq_true, decide_eq_true_eq] at hex
    obtain ⟨-, high⟩ | ⟨-, high⟩ := hex
    · exact (UInt32.le_iff_toNat_le.mp high).trans_lt (by decide)
    · exact (UInt32.le_iff_toNat_le.mp high).trans_lt (by decide)
  simpa using table ⟨c.toNat, small⟩ (by simpa using hex)

theorem rfcBody_of_plain {s : Str} (plain : s.all plainAscii = true) : RfcBody (ascii s) :=
  ⟨_, decodes_ascii plain⟩

theorem plain_of_isIdHex {s : Str} (hex : s.all isIdHex = true) : s.all plainAscii = true :=
  List.all_eq_true.mpr fun c mem => isIdHex_plain (List.all_eq_true.mp hex c mem)

theorem plain_of_claimCode (valid : enrollClaimCodeValid value = true) :
    value.all plainAscii = true := by
  rw [enrollClaimCodeValid, Bool.and_eq_true, List.all_eq_true] at valid
  refine plain_of_isIdHex (List.all_eq_true.mpr fun c mem => ?_)
  have digit := valid.1 c mem
  simp only [Bool.and_eq_true, decide_eq_true_eq] at digit
  simp only [isIdHex, Char.isDigit, Bool.or_eq_true, Bool.and_eq_true, decide_eq_true_eq]
  exact .inl digit

theorem deviceId_plain (valid : identityDeviceIdValid deviceId = true) :
    deviceId.all plainAscii = true := by
  rw [identityDeviceIdValid] at valid
  split at valid
  · cases valid
  · rename_i named
    have named : IDENTITY_ID_PREFIX <+: deviceId := by simpa using named
    obtain ⟨hex, rfl⟩ := named
    rw [List.drop_left, Bool.and_eq_true] at valid
    rw [List.all_append, Bool.and_eq_true]
    exact ⟨by decide, plain_of_isIdHex valid.1⟩

theorem enrollHexValid_iff {s : Str} {len : Nat} :
    enrollHexValid s len = true ↔ s.all isIdHex = true ∧ s.length = len := by
  rw [enrollHexValid, enrollHexLen, decide_eq_true_eq]
  by_cases hex : s.all isIdHex = true <;> simp [hex]

theorem length_hexOf (octets : Identity.Bytes) : (hexOf octets).length = 2 * octets.length := by
  rw [hexOf_eq_nibbles, List.length_map, nibbles, List.length_flatMap]
  simp [Nat.mul_comm]

theorem hexOf_valid {octets : Identity.Bytes} {len : Nat} (sized : 2 * octets.length = len) :
    enrollHexValid (hexOf octets) len = true :=
  enrollHexValid_iff.mpr ⟨all_isIdHex_hexOf octets, (length_hexOf octets).trans sized⟩

/-- A positive number is spelled without a zero in front. -/
theorem toDigits_intPart {n : Nat} (pos : 0 < n) :
    ∃ c ds, ascii (Nat.toDigits 10 n) = c :: ds ∧ JsonGrammar.isDigit c = true ∧ c ≠ 0x30 ∧
      ∀ d ∈ ds, JsonGrammar.isDigit d = true := by
  induction n using Nat.strongRecOn with
  | ind n ih =>
      have digit (m : Nat) (small : m < 10) :
          JsonGrammar.isDigit (Nat.digitChar m).toUInt8 = true ∧
            (m ≠ 0 → (Nat.digitChar m).toUInt8 ≠ 0x30) := by
        have table : ∀ m : Fin 10, JsonGrammar.isDigit (Nat.digitChar m).toUInt8 = true ∧
            (m.val ≠ 0 → (Nat.digitChar m).toUInt8 ≠ 0x30) := by decide
        exact table ⟨m, small⟩
      by_cases small : n < 10
      · refine ⟨(Nat.digitChar n).toUInt8, [], by rw [Nat.toDigits_of_lt_base small]; rfl,
          (digit n small).1, (digit n small).2 (by omega), by simp⟩
      · obtain ⟨c, ds, front, isDigit, zero, digits⟩ := ih (n / 10) (by omega) (by omega)
        refine ⟨c, ds ++ [(Nat.digitChar (n % 10)).toUInt8], ?_, isDigit, zero, fun d mem => ?_⟩
        · rw [Nat.toDigits_of_base_le (by decide) (by omega), ascii_append, front]
          rfl
        · obtain front | last := List.mem_append.mp mem
          · exact digits d front
          · rw [List.mem_singleton.mp last]
            exact (digit (n % 10) (by omega)).1

theorem toDigits_number {n : Nat} (pos : 0 < n) :
    JsonGrammar.Number (ascii (Nat.toDigits 10 n)) := by
  obtain ⟨c, ds, same, int⟩ := toDigits_intPart pos
  rw [same]
  exact ⟨[], c :: ds, [], [], by simp, .inl rfl, .inr ⟨c, ds, rfl, int⟩, .inl rfl, .inl rfl⟩

/-- The parts of the format strings. -/
theorem format_parts :
    ascii "\x7b\"device_id\":\"".toList =
        opening true :: QUOTE :: (ascii K_DEVICE_ID ++ [QUOTE, COLON, QUOTE]) ∧
      ascii "\",\"pubkey\":\"".toList =
        QUOTE :: COMMA :: QUOTE :: (ascii K_PUBKEY ++ [QUOTE, COLON, QUOTE]) ∧
      ascii "\",\"".toList = [QUOTE, COMMA, QUOTE] ∧
      ascii "\":\"".toList = [QUOTE, COLON, QUOTE] ∧
      ascii "\"\x7d".toList = [QUOTE, closing true] ∧
      ascii "\",\"serial\":\"".toList =
        QUOTE :: COMMA :: QUOTE :: (ascii K_SERIAL ++ [QUOTE, COLON, QUOTE]) ∧
      ascii "\",\"ts\":".toList = QUOTE :: COMMA :: QUOTE :: (ascii K_TS ++ [QUOTE, COLON]) ∧
      ascii ",\"signature\":\"".toList =
        COMMA :: QUOTE :: (ascii K_SIGNATURE ++ [QUOTE, COLON, QUOTE]) := by
  decide

/-- The names of the members. -/
def NAMES : List Str := [K_DEVICE_ID, K_PUBKEY, K_CLAIM_TOKEN, K_SIGNATURE, K_SERIAL, K_TS]

theorem names_plain : ∀ name ∈ NAMES, name.all plainAscii = true ∧ name.length ≤ 11 := by
  decide

theorem ascii_bodyHead (deviceId pubkeyHex : Str) :
    ascii (bodyHead deviceId pubkeyHex) =
      opening true :: QUOTE :: (ascii K_DEVICE_ID ++ [QUOTE, COLON, QUOTE]) ++ ascii deviceId ++
        (QUOTE :: COMMA :: QUOTE :: (ascii K_PUBKEY ++ [QUOTE, COLON, QUOTE])) ++
        ascii pubkeyHex := by
  obtain ⟨id, pubkey, -⟩ := format_parts
  rw [← id, ← pubkey, ← ascii_append, ← ascii_append, ← ascii_append]
  rfl

/-- The body of a step. -/
theorem enrollBody_some (built : enrollBody cap deviceId pubkeyHex key value = some out) :
    (key = K_CLAIM_TOKEN ∧ enrollClaimCodeValid value = true ∨
      key = K_SIGNATURE ∧ enrollHexValid value ENROLL_SIG_HEX_LEN = true) ∧
      ascii out = printedObject (textMember K_DEVICE_ID deviceId)
        [textMember K_PUBKEY pubkeyHex, textMember key value] := by
  simp only [enrollBody, Option.ite_none_left_eq_some, Option.some.injEq] at built
  obtain ⟨-, -, keyed, -, rfl⟩ := built
  simp only [Bool.not_eq_true', Bool.not_eq_false, Bool.or_eq_true, Bool.and_eq_true,
    decide_eq_true_eq] at keyed
  refine ⟨keyed, ?_⟩
  have text : ascii (bodyHead deviceId pubkeyHex ++ "\",\"".toList ++ key ++ "\":\"".toList ++
      value ++ "\"\x7d".toList) = ascii (bodyHead deviceId pubkeyHex) ++ [QUOTE, COMMA, QUOTE] ++
        ascii key ++ [QUOTE, COLON, QUOTE] ++ ascii value ++ [QUOTE, closing true] := by
    obtain ⟨-, -, next, value, close, -⟩ := format_parts
    rw [← next, ← value, ← close, ← ascii_append, ← ascii_append, ← ascii_append,
      ← ascii_append, ← ascii_append]
  rw [text, ascii_bodyHead]
  simp [printedObject, JsonGrammar.printedMember, JsonGrammar.printedMore, textMember,
    Printed.bytes]

/-- The body of a status check. -/
theorem enrollStatusBody_some
    (built : enrollStatusBody cap deviceId pubkeyHex serial ts sigHex = some out) :
    ascii out = printedObject (textMember K_DEVICE_ID deviceId)
      [textMember K_PUBKEY pubkeyHex, textMember K_SERIAL serial,
        (ascii K_TS, .number (ascii (Nat.toDigits 10 ts.toNat))),
        textMember K_SIGNATURE sigHex] := by
  simp only [enrollStatusBody, Option.ite_none_left_eq_some, Option.some.injEq] at built
  obtain ⟨-, -, -, -, rfl⟩ := built
  have text : ascii (bodyHead deviceId pubkeyHex ++ "\",\"serial\":\"".toList ++ serial ++
      "\",\"ts\":".toList ++ Nat.toDigits 10 ts.toNat ++ ",\"signature\":\"".toList ++ sigHex ++
      "\"\x7d".toList) = ascii (bodyHead deviceId pubkeyHex) ++
        (QUOTE :: COMMA :: QUOTE :: (ascii K_SERIAL ++ [QUOTE, COLON, QUOTE])) ++ ascii serial ++
        (QUOTE :: COMMA :: QUOTE :: (ascii K_TS ++ [QUOTE, COLON])) ++
        ascii (Nat.toDigits 10 ts.toNat) ++
        (COMMA :: QUOTE :: (ascii K_SIGNATURE ++ [QUOTE, COLON, QUOTE])) ++ ascii sigHex ++
        [QUOTE, closing true] := by
    obtain ⟨-, -, -, -, close, serial, ts, signature⟩ := format_parts
    rw [← serial, ← ts, ← signature, ← close, ← ascii_append,
      ← ascii_append, ← ascii_append, ← ascii_append, ← ascii_append, ← ascii_append,
      ← ascii_append]
  rw [text, ascii_bodyHead]
  simp [printedObject, JsonGrammar.printedMember, JsonGrammar.printedMore, textMember,
    Printed.bytes]

theorem textMember_fits {name : Str} (known : name ∈ NAMES)
    (plain : value.all plainAscii = true) : MemberFits RfcBody (textMember name value) :=
  ⟨rfcBody_of_plain (names_plain name known).1, rfcBody_of_plain plain⟩

theorem enrollEndpoint_some {base suffix url : Str}
    (built : enrollEndpoint cap base suffix = some url) :
    enrollUrlUsable base = true ∧ url = enrollBase base ++ ENROLL_PATH ++ suffix := by
  simp only [enrollEndpoint, Option.ite_none_left_eq_some, Option.some.injEq] at built
  obtain ⟨usable, -, rfl⟩ := built
  exact ⟨by simpa using usable, rfl⟩

end

/-! ## One request -/

namespace Sender

variable {deserializeJson : Reader} {tls : Mqtt.Mbedtls} {serialOf : Str → Option Str}
variable {k : UnitKeys} {s : Sender} {code : Option Str} {io : TurnIo} {ts : Int} {p : Posted}

/-- The stored signature is one over the challenge that was signed last. -/
def Signed (k : UnitKeys) (s : Sender) : Prop :=
  s.sigHex = [] ∨ s.sigHex = hexOf (k.sign s.challenge)

theorem pubkey_fits (k : UnitKeys) : MemberFits RfcBody (textMember K_PUBKEY (hexOf k.pk)) :=
  textMember_fits (by simp [NAMES]) (plain_of_isIdHex (all_isIdHex_hexOf k.pk))

theorem signature_fits (k : UnitKeys) (msg : Str) :
    MemberFits RfcBody (textMember K_SIGNATURE (hexOf (k.sign msg))) :=
  textMember_fits (by simp [NAMES]) (plain_of_isIdHex (all_isIdHex_hexOf (k.sign msg)))

/-- A text that prints the members of its purpose reads as them. -/
theorem reads_of_printed {purpose : Purpose} {body : Str}
    (printed : ascii body = printedObject (textMember K_DEVICE_ID k.deviceId) (purpose.members k))
    (fits : ∀ m ∈ purpose.members k, MemberFits RfcBody m) (d : Nat) (t : Tree) :
    Text RfcBody (d + 1) (ascii body) t ↔
      t = .node true ((textMember K_DEVICE_ID k.deviceId :: purpose.members k).map memberTree) := by
  rw [printed]
  refine JsonGrammar.printedObject_reads _ _ fun m mem => ?_
  obtain rfl | later := List.mem_cons.mp mem
  · exact textMember_fits (by simp [NAMES]) (deviceId_plain k.valid)
  · exact fits m later

theorem signature_ne : K_SIGNATURE ≠ K_CLAIM_TOKEN := by decide

theorem stepPost_whole (signed : s.Signed k) (posted : s.stepPost k code = some p) :
    p.Whole k := by
  simp only [stepPost, Option.bind_eq_some_iff] at posted
  obtain ⟨url, endpoint, posted⟩ := posted
  obtain ⟨usable, joined⟩ := enrollEndpoint_some endpoint
  split at posted
  · rename_i verify
    obtain ⟨body, built, rfl⟩ := Option.map_eq_some_iff.mp posted
    obtain ⟨keyed, printed⟩ := enrollBody_some built
    have full : s.sigHex = hexOf (k.sign s.challenge) := by
      obtain none | full := signed
      · obtain ⟨other, -⟩ | ⟨-, valid⟩ := keyed
        · exact absurd other signature_ne
        · rw [none] at valid
          exact absurd valid (by decide)
      · exact full
    rw [full] at printed
    refine ⟨usable, by rw [joined, verify]; rfl, reads_of_printed printed fun m mem => ?_⟩
    obtain rfl | rfl := List.mem_pair.mp mem
    · exact pubkey_fits k
    · exact signature_fits k s.challenge
  · obtain ⟨code, -, posted⟩ := Option.bind_eq_some_iff.mp posted
    obtain ⟨body, built, rfl⟩ := Option.map_eq_some_iff.mp posted
    obtain ⟨keyed, printed⟩ := enrollBody_some built
    refine ⟨usable, joined, reads_of_printed printed fun m mem => ?_⟩
    obtain rfl | rfl := List.mem_pair.mp mem
    · exact pubkey_fits k
    · obtain ⟨-, valid⟩ | ⟨other, -⟩ := keyed
      · exact textMember_fits (by simp [NAMES]) (plain_of_claimCode valid)
      · exact absurd other.symm signature_ne

theorem checkPost_whole (posted : s.checkPost serialOf k io ts = some p) : p.Whole k := by
  simp only [checkPost, Option.bind_eq_some_iff, Option.ite_none_left_eq_some] at posted
  obtain ⟨raw, -, serial, -, msg, signs, -, sigHex, encoded, url, endpoint, posted⟩ := posted
  obtain ⟨body, built, rfl⟩ := Option.map_eq_some_iff.mp posted
  obtain ⟨usable, joined⟩ := enrollEndpoint_some endpoint
  obtain ⟨-, hex, real, same⟩ := enrollStatusMessage_some signs
  have signature : sigHex = hexOf (k.sign (statement k.deviceId serial ts)) := by
    rw [identityHexEncode_some encoded, same, statement]
  rw [signature] at built
  refine ⟨usable, joined, reads_of_printed (enrollStatusBody_some built) fun m mem => ?_⟩
  have positive : 0 < ts.toNat := by
    simp only [ENROLL_STATUS_MIN_EPOCH] at real
    omega
  simp only [Purpose.members, List.mem_cons, List.not_mem_nil, or_false] at mem
  obtain rfl | rfl | rfl | rfl := mem
  · exact pubkey_fits k
  · exact textMember_fits (by simp [NAMES]) (plain_of_isIdHex (enrollSerialValid_iff.mp hex).1)
  · exact ⟨rfcBody_of_plain (names_plain K_TS (by simp [NAMES])).1, toDigits_number positive⟩
  · exact signature_fits k _

theorem post_whole {e : SendEvent} (signed : s.Signed k)
    (posted : s.post serialOf k e io = some p) : p.Whole k := by
  rw [post] at posted
  split at posted
  · exact stepPost_whole signed posted
  · exact checkPost_whole posted

/-! ### What can be built -/

theorem length_enrollBase (url : Str) : (enrollBase url).length ≤ url.length := by
  rw [enrollBase, List.length_reverse]
  exact (List.dropWhile_suffix _).length_le.trans (List.length_reverse).le

theorem usable_length {url : Str} (usable : enrollUrlUsable url = true) :
    url.length < ENROLL_URL_CAP := by
  rw [enrollUrlUsable] at usable
  split at usable
  · cases usable
  split at usable
  · cases usable
  · rename_i fits
    exact Nat.not_le.mp fits

theorem format_lengths : "\x7b\"device_id\":\"".toList.length = 14 ∧
    "\",\"pubkey\":\"".toList.length = 12 ∧ "\",\"".toList.length = 3 ∧
    "\":\"".toList.length = 3 ∧ "\"\x7d".toList.length = 2 := by
  decide

theorem enrollEndpoint_fits {base : Str} (usable : enrollUrlUsable base = true)
    (step : EnrollStep) :
    enrollEndpoint JOB_URL_CAP base (stepSuffix step) =
      some (enrollBase base ++ ENROLL_PATH ++ stepSuffix step) := by
  have short : (stepSuffix step).length ≤ 7 := by cases step <;> decide
  have path : ENROLL_PATH.length = 22 := by decide
  have host := (length_enrollBase base).trans_lt (usable_length usable)
  simp only [ENROLL_URL_CAP] at host
  simp only [enrollEndpoint, usable, Bool.not_true, Bool.false_eq_true, if_false]
  rw [if_neg]
  simp only [List.length_append, path, JOB_URL_CAP, ENROLL_URL_CAP]
  omega

theorem length_body {deviceId pubkeyHex key value a b c d e : Str}
    (parts : a.length = 14 ∧ b.length = 12 ∧ c.length = 3 ∧ d.length = 3 ∧ e.length = 2)
    (id : deviceId.length < IDENTITY_ID_CAP) (pubkey : pubkeyHex.length = IDENTITY_PUBKEY_LEN * 2)
    (keyed : key.length ≤ 11 ∧ value.length ≤ 128) :
    (a ++ deviceId ++ b ++ pubkeyHex ++ c ++ key ++ d ++ value ++ e).length < BODY_CAP := by
  simp only [IDENTITY_ID_CAP, IDENTITY_PUBKEY_LEN] at id pubkey
  simp only [List.length_append, BODY_CAP]
  omega

theorem enrollBody_fits {key value : Str}
    (keyed : key = K_CLAIM_TOKEN ∧ enrollClaimCodeValid value = true ∨
      key = K_SIGNATURE ∧ enrollHexValid value ENROLL_SIG_HEX_LEN = true) :
    (enrollBody BODY_CAP k.deviceId (hexOf k.pk) key value).isSome = true := by
  have pubkey : enrollHexValid (hexOf k.pk) (IDENTITY_PUBKEY_LEN * 2) = true :=
    hexOf_valid (by rw [k.pk_length]; rfl)
  have id := identityDeviceIdValid_length k.valid
  have pubkeyLength := (enrollHexValid_iff.mp pubkey).2
  have lengths : key.length ≤ 11 ∧ value.length ≤ 128 := by
    obtain ⟨rfl, valid⟩ | ⟨rfl, valid⟩ := keyed
    · rw [enrollClaimCodeValid, Bool.and_eq_true, decide_eq_true_eq] at valid
      refine ⟨(names_plain K_CLAIM_TOKEN (by simp [NAMES])).2, ?_⟩
      rw [valid.2]
      decide
    · refine ⟨(names_plain K_SIGNATURE (by simp [NAMES])).2, ?_⟩
      rw [(enrollHexValid_iff.mp valid).2]
      decide
  have known : (!((key = K_CLAIM_TOKEN && enrollClaimCodeValid value) ||
      (key = K_SIGNATURE && enrollHexValid value ENROLL_SIG_HEX_LEN))) = false := by
    simpa only [Bool.not_eq_false', Bool.or_eq_true, Bool.and_eq_true, decide_eq_true_eq]
      using keyed
  simp only [enrollBody, k.valid, pubkey, known, Bool.not_true, Bool.false_eq_true, if_false]
  rw [if_neg]
  · rfl
  · exact Nat.not_le.mpr (length_body format_lengths id pubkeyLength lengths)

/-- Only a claim code that does not load stops the client. -/
theorem stepPost_isSome (usable : enrollUrlUsable s.url = true)
    (verify : s.unit.step = .verify → s.sigHex = hexOf (k.sign s.challenge))
    (loads : s.unit.step ≠ .verify → ∃ c, code = some c ∧ enrollClaimCodeValid c = true) :
    (s.stepPost k code).isSome = true := by
  rw [stepPost, enrollEndpoint_fits usable, Option.bind_some]
  split
  · rename_i at_verify
    rw [Option.isSome_map]
    refine enrollBody_fits (.inr ⟨rfl, ?_⟩)
    rw [verify at_verify]
    exact hexOf_valid (by rw [k.sign_length]; rfl)
  · rename_i other
    obtain ⟨c, rfl, valid⟩ := loads other
    rw [Option.filter_some, if_pos valid, Option.bind_some, Option.isSome_map]
    exact enrollBody_fits (.inl ⟨rfl, valid⟩)

end Sender

/-! ## A turn -/

namespace EnrollUnit

variable {deserializeJson : Reader} {tls : Mqtt.Mbedtls} {serialOf : Str → Option Str}
variable {u : EnrollUnit} {io : TurnIo}

theorem loop_active (on : (u.loop deserializeJson tls serialOf io).active = true) :
    u.active = true := by
  cases loop_turn deserializeJson tls serialOf u io with
  | keeps same => rwa [← same.active]
  | answered _ _ _ _ next _ => exact (next.active on).1
  | unsent _ _ _ next => exact (next.active on).1
  | sent _ _ _ _ active _ _ => exact active
  | stops inactive _ _ =>
      rw [inactive] at on
      cases on
  | sessionUp _ _ _ _ same _ _ => rwa [← same]

theorem advance_step (status : Int) (now rnd : Nat) :
    (u.advance status now rnd).step = (enrollOnResponse u.step status u.failures rnd).next := by
  simp only [advance, scheduleCheck]
  split <;> rfl

theorem advance_off {status : Int} {now rnd : Nat} (on : u.active = true)
    (off : (u.advance status now rnd).active = false) :
    (u.advance status now rnd).step = .done := by
  simp only [advance, scheduleCheck] at off ⊢
  split at off
  · rename_i done
    rw [if_pos done]
    exact done
  · rw [on] at off
    cases off

/-- Only an accepted announcement is followed by a verification. -/
theorem follows_verify {step : EnrollStep} {status : Int} {failures rnd : Nat}
    (verify : (enrollOnResponse step status failures rnd).next = .verify) :
    step = .announce ∧ status = 200 := by
  cases step with
  | announce =>
      simp only [enrollOnResponse] at verify
      split at verify
      · rename_i ok
        exact ⟨rfl, ok⟩
      · cases verify
  | verify | poll | ack =>
      simp only [enrollOnResponse] at verify
      repeat' split at verify
      all_goals cases verify
  | awaitMtls | done => cases verify

theorem finishEnroll_verify {job : EnrollJob}
    (verify : (u.finishEnroll deserializeJson tls job io).step = .verify) :
    u.step = .announce ∧ job.status = 200 ∧
      onChallenge deserializeJson job.reply io.signs = true := by
  simp only [finishEnroll] at verify
  split at verify
  · rename_i answered
    have same : Keeps u (u.onOk deserializeJson tls job.reply io).1 := onOk_keeps job.reply io
    obtain ⟨announce, applied⟩ := follows_verify ((advance_step _ _ _).symm.trans verify)
    have announce : u.step = .announce := same.step.symm.trans announce
    refine ⟨announce, answered, ?_⟩
    have ok : (u.onOk deserializeJson tls job.reply io).2 = true := by
      by_contra refused
      rw [if_neg refused] at applied
      exact absurd applied (by decide)
    simpa [onOk, announce] using ok
  · rename_i other
    exact absurd (follows_verify ((advance_step _ _ _).symm.trans verify)).2 other

theorem finishEnroll_off {job : EnrollJob} (on : u.active = true)
    (off : (u.finishEnroll deserializeJson tls job io).active = false) :
    (u.finishEnroll deserializeJson tls job io).step = .done := by
  have same : Keeps u (u.onOk deserializeJson tls job.reply io).1 := onOk_keeps job.reply io
  simp only [finishEnroll] at off ⊢
  split at off
  · rename_i answered
    rw [if_pos answered]
    exact advance_off (same.active.trans on) off
  · rename_i other
    rw [if_neg other]
    exact advance_off on off

theorem overran_verify {job : EnrollJob} (verify : (u.overran job io).step = .verify) :
    u.step = .verify := by
  simp only [overran] at verify
  split at verify
  · exact verify
  · exact absurd (follows_verify ((advance_step _ _ _).symm.trans verify)).2 (by decide)

theorem overran_off {job : EnrollJob} (on : u.active = true)
    (off : (u.overran job io).active = false) : (u.overran job io).step = .done := by
  simp only [overran] at off ⊢
  split at off
  · exact absurd (on.symm.trans off) (by decide)
  · rename_i check
    rw [if_neg check]
    exact advance_off on off

theorem idleTurn_verify (idle : u.job = none)
    (verify : (u.idleTurn serialOf io).step = .verify) : u.step = .verify := by
  have turn : Turn u io (u.idleTurn serialOf io) := idleTurn_turn io idle
  cases turn with
  | keeps same => exact same.step.symm.trans verify
  | answered _ _ running _ _ _ =>
      rw [requesting, idle] at running
      cases running
  | unsent _ _ _ next =>
      obtain ⟨failures, rnd, step, -⟩ := next.follows
      exact absurd (follows_verify (step.symm.trans verify)).2 (by decide)
  | sent _ _ _ _ _ step _ => exact step.symm.trans verify
  | stops _ step _ => exact step.symm.trans verify
  | sessionUp _ _ step _ _ _ _ =>
      rw [verify] at step
      cases step

theorem startJob_off (on : u.active = true) (off : (u.startJob io).active = false) :
    (u.startJob io).step = .done ∨ io.start.builds = false := by
  have still : u.active ≠ false := by simp [on]
  simp only [startJob] at off ⊢
  split at off
  · exact absurd off still
  rename_i room
  split at off
  · rename_i fails
    rw [if_neg room, if_pos fails]
    exact .inl (advance_off on off)
  rename_i allocates
  split at off
  · rename_i fails
    exact .inr (by simpa using fails)
  rename_i builds
  split at off
  · rename_i fails
    rw [if_neg room, if_neg allocates, if_neg builds, if_pos fails]
    exact .inl (advance_off on off)
  · exact absurd off still

theorem idleTurn_off (on : u.active = true) (off : (u.idleTurn serialOf io).active = false) :
    (u.idleTurn serialOf io).step = .done ∨ io.start.builds = false := by
  have still : u.active ≠ false := by simp [on]
  have enrolling : ¬(!u.active) = true := by simp [on]
  simp only [idleTurn, if_neg enrolling] at off ⊢
  split at off
  · split at off
    · exact absurd off still
    · exact absurd off still
  rename_i waits
  split at off
  · exact absurd off still
  rename_i connected
  split at off
  · exact absurd off still
  rename_i due
  rw [if_neg waits, if_neg connected, if_neg due]
  exact startJob_off on off

end EnrollUnit

namespace Sender

variable {deserializeJson : Reader} {tls : Mqtt.Mbedtls} {serialOf : Str → Option Str}
variable {u : EnrollUnit} {io : TurnIo}

/-- A turn that ends before a verification took a challenge, or began there. -/
theorem loop_verify (verify : (u.loop deserializeJson tls serialOf io).step = .verify) :
    taken u = none ∧ u.step = .verify ∨
      ∃ job, taken u = some job ∧ u.step = .announce ∧ job.status = 200 ∧
        EnrollUnit.onChallenge deserializeJson job.reply io.signs = true := by
  have reaped : u.reapStale.job = u.job ∧ u.reapStale.step = u.step := by
    obtain ⟨stale, same⟩ := EnrollUnit.reapStale_keeps u
    rw [same]
    exact ⟨rfl, rfl⟩
  rw [taken, ← reaped.1, ← reaped.2]
  simp only [EnrollUnit.loop] at verify
  generalize u.reapStale = v at verify ⊢
  split at verify
  · rename_i held
    exact .inl ⟨if_pos held, verify⟩
  rename_i free
  rw [if_neg free]
  cases running : v.job with
  | none =>
      rw [running] at verify
      exact .inl ⟨rfl, EnrollUnit.idleTurn_verify running verify⟩
  | some job =>
      rw [running] at verify
      rw [Option.filter_some]
      simp only at verify
      split at verify
      · rename_i done
        simp only [EnrollUnit.finishJob] at verify
        split at verify
        · rename_i check
          exact .inl ⟨by simp [check],
            (EnrollUnit.finishCheck_keeps (u := { v with job := none }) job io).step.symm.trans
              verify⟩
        · rename_i check
          obtain ⟨announce, answered, signs⟩ := EnrollUnit.finishEnroll_verify verify
          exact .inr ⟨job, by simp [done, check], announce, answered, signs⟩
      · rename_i going
        refine .inl ⟨by simp [going], ?_⟩
        split at verify
        · exact EnrollUnit.overran_verify verify
        · exact verify

/-- What turns the client off. -/
theorem loop_off (on : u.active = true)
    (off : (u.loop deserializeJson tls serialOf io).active = false) :
    (u.loop deserializeJson tls serialOf io).step = .done ∨ io.start.builds = false := by
  have still : u.reapStale.active = true := by
    obtain ⟨stale, same⟩ := EnrollUnit.reapStale_keeps u
    rw [same]
    exact on
  simp only [EnrollUnit.loop] at off ⊢
  generalize u.reapStale = v at still off ⊢
  have kept : v.active ≠ false := by simp [still]
  split at off
  · exact absurd off kept
  rename_i free
  rw [if_neg free]
  cases running : v.job with
  | none =>
      rw [running] at off
      exact EnrollUnit.idleTurn_off still off
  | some job =>
      rw [running] at off
      simp only at off ⊢
      split at off
      · rename_i done
        rw [if_pos done]
        simp only [EnrollUnit.finishJob] at off ⊢
        split at off
        · have same : EnrollUnit.Keeps { v with job := none }
              ({ v with job := none }.finishCheck deserializeJson job io) :=
            EnrollUnit.finishCheck_keeps job io
          exact absurd (same.active.symm.trans off) kept
        · rename_i check
          rw [if_neg check]
          exact .inl (EnrollUnit.finishEnroll_off still off)
      · rename_i going
        rw [if_neg going]
        split at off
        · rename_i late
          rw [if_pos late]
          exact .inl (EnrollUnit.overran_off still off)
        · exact absurd off kept

end Sender

/-! ## Every run -/

namespace Sender

variable {deserializeJson : Reader} {tls : Mqtt.Mbedtls} {serialOf : Str → Option Str}
variable {k : UnitKeys} {s : Sender} {io : TurnIo} {code : Option Str} {ts : Int}

/-- What holds of the sender between any two events. -/
structure Sound (k : UnitKeys) (s : Sender) : Prop where
  whole : ∀ p ∈ s.posts, p.Whole k
  signed : s.Signed k
  usable : s.unit.active = true → enrollUrlUsable s.url = true
  verify : s.unit.step = .verify → s.sigHex = hexOf (k.sign s.challenge)

theorem sign_encoded (k : UnitKeys) (msg : Str) :
    identityHexEncode (k.sign msg) (ENROLL_SIG_HEX_LEN + 1) = some (hexOf (k.sign msg)) := by
  simp [identityHexEncode, k.sign_length, ENROLL_SIG_HEX_LEN]

/-- A turn stores a signature, drops the stored one or keeps it. -/
theorem afterTurn_signed (signed : s.Signed k) :
    (s.afterTurn deserializeJson k io).1 = [] ∨ (s.afterTurn deserializeJson k io).1 =
      hexOf (k.sign (s.afterTurn deserializeJson k io).2) := by
  simp only [afterTurn]
  split
  · rw [sign_encoded, Option.getD_some]
    exact .inr rfl
  · split
    · exact .inl rfl
    · exact signed

theorem afterTurn_verify (sound : s.Sound k) {io' : TurnIo} (same : io'.signs = io.signs)
    (verify : (s.unit.loop deserializeJson tls serialOf io').step = .verify) :
    (s.afterTurn deserializeJson k io).1 =
      hexOf (k.sign (s.afterTurn deserializeJson k io).2) := by
  obtain ⟨untaken, before⟩ | ⟨job, took, announce, answered, signs⟩ := loop_verify verify
  · have none : signed deserializeJson s.unit io = none := by rw [signed, untaken, Option.bind_none]
    simp only [afterTurn, none, untaken, Option.isSome_none, Bool.false_eq_true, false_and,
      if_false]
    exact sound.verify before
  · rw [same] at signs
    have some : ∃ challenge, signed deserializeJson s.unit io = some challenge := by
      rw [signed, took, Option.bind_some, if_pos ⟨announce, answered, signs⟩]
      rw [EnrollUnit.onChallenge] at signs
      cases read : deserializeJson job.reply with
      | error e =>
          rw [read] at signs
          cases signs
      | ok doc => exact ⟨_, rfl⟩
    obtain ⟨challenge, some⟩ := some
    simp only [afterTurn, some]
    rw [sign_encoded, Option.getD_some]

/-- A boot that turns the client on has found the URL. -/
theorem boot_active {stores : EnrollStores} {io : BootIo}
    (on : ((EnrollUnit.poweredUp stores io.load).begin io).active = true) :
    (if io.hasIdentity && enrollUrlUsable io.url then io.url else []) = io.url ∧
      enrollUrlUsable io.url = true := by
  rw [EnrollUnit.begin] at on
  split at on
  · cases on
  rename_i identity
  have identity : io.hasIdentity = true := by simpa using identity
  simp only at on
  split at on
  · split at on <;> cases on
  split at on
  · cases on
  rename_i found
  have usable : enrollUrlUsable io.url = true := by
    simp only [Bool.not_eq_true', Bool.not_eq_false, Bool.and_eq_true] at found
    exact found.1
  exact ⟨if_pos (by rw [identity, usable]; rfl), usable⟩

theorem boot_step (stores : EnrollStores) (io : BootIo) :
    ((EnrollUnit.poweredUp stores io.load).begin io).step ≠ .verify := by
  have start (hasCert ackPending : Bool) : enrollStartStep hasCert ackPending ≠ .verify := by
    cases hasCert <;> cases ackPending <;> decide
  simp only [EnrollUnit.begin]
  split
  · intro verify
    cases verify
  · repeat' split
    all_goals exact start _ _

theorem Sound.step (sound : s.Sound k) (e : SendEvent) :
    (step deserializeJson tls serialOf k s e).Sound k := by
  obtain ⟨event, code, ts⟩ := e
  cases event with
  | boot io =>
      refine ⟨sound.whole, .inl rfl, fun on => ?_, fun verify => ?_⟩
      · obtain ⟨url, usable⟩ := boot_active on
        simp only [Sender.step]
        rw [url]
        exact usable
      · exact absurd verify (boot_step s.unit.stores io)
  | loop io =>
      refine ⟨fun p mem => ?_, afterTurn_signed sound.signed, fun on => ?_, fun verify => ?_⟩
      · simp only [Sender.step] at mem
        split at mem
        · obtain new | old := List.mem_append.mp mem
          · exact post_whole sound.signed (Option.mem_toList.mp new)
          · exact sound.whole p old
        · exact sound.whole p mem
      · exact sound.usable (EnrollUnit.loop_active on)
      · have before : (s.unit.loop deserializeJson tls serialOf
            (withPost io (s.post serialOf k ⟨.loop io, code, ts⟩ io))).step = .verify := verify
        refine afterTurn_verify sound ?_ before
        rfl
  | answer | lateAnswer | certSet | certApply | certClear =>
      exact ⟨sound.whole, sound.signed, sound.usable, sound.verify⟩

theorem off_sound (stores : EnrollStores) (load : Config.LoadIo) : (off stores load).Sound k :=
  ⟨by simp [off], .inl rfl, fun on => absurd on (by simp [off, EnrollUnit.poweredUp]),
    fun verify => absurd verify (by simp [off, EnrollUnit.poweredUp])⟩

theorem run_sound (stores : EnrollStores) (load : Config.LoadIo) (es : List SendEvent) :
    (run (step deserializeJson tls serialOf k) (off stores load) es).Sound k :=
  run_invariant (fun _ e sound => sound.step e) (off_sound stores load) es

end Sender

/-- Every request of a run goes to its endpoint, and its body is one JSON text that reads as the
members of its purpose, with a signature over the challenge or over the statement of the same
serial and time. -/
theorem enroll_requests_whole (deserializeJson : Reader) (tls : Mqtt.Mbedtls)
    (serialOf : Str → Option Str) (k : UnitKeys) (stores : EnrollStores) (load : Config.LoadIo)
    (es : List SendEvent) :
    ∀ p ∈ (run (Sender.step deserializeJson tls serialOf k) (.off stores load) es).posts,
      p.Whole k :=
  (Sender.run_sound stores load es).whole

/-- A unit whose key and signatures are zeros. -/
def sampleKeys : UnitKeys where
  deviceId := sampleId
  valid := by decide
  pk := List.replicate 32 0
  pk_length := rfl
  sign _ := List.replicate 64 0
  sign_length _ := rfl

/-- A boot and the turn that announces the unit. -/
def announces : List SendEvent :=
  [⟨.boot bootsEnrollable, none, 0⟩, ⟨.loop (turnAt 0), some "12345678".toList, 0⟩]

theorem enroll_requests_whole_announced :
    ∃ p ∈ (run (Sender.step challengeReads Mqtt.sampleTls sampleSerialOf sampleKeys)
      (.off freshStores ⟨true, true, true⟩) announces).posts, p.Whole sampleKeys := by
  have posted : (run (Sender.step challengeReads Mqtt.sampleTls sampleSerialOf sampleKeys)
      (.off freshStores ⟨true, true, true⟩) announces).posts.isEmpty = false := by
    decide +kernel
  obtain ⟨p, mem⟩ := List.exists_mem_of_ne_nil _ (List.isEmpty_eq_false_iff.mp posted)
  exact ⟨p, mem, enroll_requests_whole _ _ _ _ _ _ announces p mem⟩

/-- After any run a turn leaves the client on, unless it was off, enrollment is done, or the claim
code of a request that needs it does not load. -/
theorem enroll_stays_on (deserializeJson : Reader) (tls : Mqtt.Mbedtls)
    (serialOf : Str → Option Str) (k : UnitKeys) (stores : EnrollStores) (load : Config.LoadIo)
    (es : List SendEvent) (io : TurnIo) (code : Option Str) (ts : Int) :
    let s := run (Sender.step deserializeJson tls serialOf k) (.off stores load) es
    let s' := Sender.step deserializeJson tls serialOf k s ⟨.loop io, code, ts⟩
    s'.unit.active = true ∨ s.unit.active = false ∨ s'.unit.step = .done ∨
      s.unit.step ≠ .verify ∧ code.filter (fun c => enrollClaimCodeValid c) = none := by
  intro s s'
  have sound : s.Sound k := Sender.run_sound stores load es
  cases on : s.unit.active with
  | false => exact .inr (.inl rfl)
  | true =>
      cases still : s'.unit.active with
      | true => exact .inl rfl
      | false =>
          refine .inr (.inr ?_)
          obtain done | unbuilt := Sender.loop_off on still
          · exact .inl done
          · right
            have unposted : s.post serialOf k ⟨.loop io, code, ts⟩ io = none := by
              simpa [Sender.withPost] using unbuilt
            rw [Sender.post, if_pos on] at unposted
            have built (loads : s.unit.step ≠ .verify →
                ∃ c, code = some c ∧ enrollClaimCodeValid c = true) :
                (s.stepPost k code).isSome = true :=
              Sender.stepPost_isSome (sound.usable on) sound.verify loads
            rw [unposted] at built
            refine ⟨fun verify => ?_, ?_⟩
            · exact absurd (built fun other => absurd verify other) (by decide)
            · cases loads : code.filter fun c => enrollClaimCodeValid c with
              | none => rfl
              | some c =>
                  obtain ⟨same, valid⟩ := Option.filter_eq_some_iff.mp loads
                  exact absurd (built fun _ => ⟨c, same, valid⟩) (by decide)

end Thesada.Enroll
