import Thesada.Config.Store
import Thesada.Net.HttpUrl
import Thesada.Ota.Fled

/-!
# The GETs of an update check

A check fetches the manifest and, when its version is wanted, the binary the manifest names.
Over WiFi each GET follows redirects by hand, one hop at a time. What the server and the network
answer to a hop is part of the environment, so a statement about every answer covers every
chain of redirects.

The fetch of the binary is followed to the end of its GET; what becomes of the image is in
`Thesada.Ota.Session`.
-/

namespace Thesada.Ota

open CString Config Net

def OTA_MANIFEST_CAP : Nat := 8 * 1024

/-- The host buffer of a hop. -/
def OTA_HOST_CAP : Nat := 128

def HTTPC_ERROR_CONNECTION_REFUSED : Int := -1

def K_OTA : Str := "ota".toList
def K_MANIFEST_URL : Str := "manifest_url".toList
def K_ALLOW_INSECURE : Str := "allow_insecure".toList
def K_VERSION : Str := "version".toList
def K_URL : Str := "url".toList
def K_SHA256 : Str := "sha256".toList
def K_SIZE : Str := "size".toList

/-- What a hop meets. -/
structure HopAnswer where
  /-- `WiFi.hostByName`. -/
  resolves : Bool
  /-- `http.GET()`: a status, or a negative transport error. -/
  code : Int
  location : Str
  /-- `http.getSize()`. -/
  size : Int
  /-- The body as the stream hands it over, until it ends or the cap of five minutes does. -/
  pieces : List Str

/-- What a GET leaves; `requests` notes the URL of each request it sent. -/
structure Fetch (σ : Type*) where
  status : Int
  total : Nat
  writer : σ
  requests : List Str

section Get

variable {σ : Type*} (writeCallback : Str → σ → Bool × σ)

/-- The body loop of a hop: whether no piece was refused, the bytes read and the writer. -/
def readBody (size : Int) : List Str → Nat → σ → Bool × Nat × σ
  | [], total, w => (true, total, w)
  | piece :: pieces, total, w =>
      let total := total + piece.length
      match writeCallback piece w with
      | (false, w) => (false, total, w)
      | (true, w) =>
          if 0 < size ∧ size ≤ total then (true, total, w) else readBody size pieces total w

/-- One hop: whether the transport held, the Location to go on to, and the fetch. -/
def otaHttpGetWiFiHop (url : Str) (answer : HopAnswer) (f : Fetch σ) : Bool × Str × Fetch σ :=
  if (httpUrlSplit url OTA_HOST_CAP).isNone || !answer.resolves then
    (false, [], { f with status := HTTPC_ERROR_CONNECTION_REFUSED })
  else
    let f := { f with status := answer.code, requests := f.requests ++ [url] }
    if otaIsRedirect answer.code && decide (0 < answer.location.length) then
      (true, answer.location, f)
    else if answer.code ≠ 200 then (decide (0 < answer.code), [], f)
    else
      let (whole, total, writer) := readBody writeCallback answer.size answer.pieces 0 f.writer
      (whole, [], { f with total, writer })

/-- The hops from `next` on, with `turns` of them left. -/
def otaHops (answers : Nat → HopAnswer) : (turns hop : Nat) → (next : Str) → Fetch σ →
    Bool × Fetch σ
  | 0, _, _, f => (true, f)
  | turns + 1, hop, next, f =>
      let (ok, redirect, f) := otaHttpGetWiFiHop writeCallback (cstr next) (answers hop) f
      if redirect.length = 0 then (ok, f)
      else if !otaRedirectAllowed (cstr next) (cstr redirect) then (true, f)
      else otaHops answers turns (hop + 1) redirect f

/-- `otaHttpGetWiFi`: a 3xx that is not followed stays in the status. -/
def otaHttpGetWiFi (url : Str) (answers : Nat → HopAnswer) (w : σ) : Bool × Fetch σ :=
  otaHops writeCallback answers (OTA_REDIRECT_MAX + 1) 0 url
    { status := 0, total := 0, writer := w, requests := [] }

end Get

/-! ## What one GET requests -/

/-- The schemes end before a terminator can come. -/
theorem otaScheme_cstr (url : Str) : otaScheme (cstr url) = otaScheme url := by
  have kept (scheme : Str) (plain : ∀ c ∈ scheme, c ≠ '\x00') :
      scheme.isPrefixOf (cstr url) = scheme.isPrefixOf url := by
    rw [Bool.eq_iff_iff, List.isPrefixOf_iff_prefix, List.isPrefixOf_iff_prefix]
    constructor
    · intro front
      exact front.trans (List.takeWhile_prefix _)
    · rintro ⟨rest, rfl⟩
      refine ⟨rest.takeWhile (· ≠ '\x00'), ?_⟩
      exact (List.takeWhile_append_of_pos fun c hc => decide_eq_true (plain c hc)).symm
  unfold otaScheme
  rw [kept, kept]
  · simp
  · simp

section Get

variable {σ : Type*} (writeCallback : Str → σ → Bool × σ)

/-- A hop requests its URL or nothing, and goes on only after a request. -/
theorem otaHttpGetWiFiHop_requests (url : Str) (answer : HopAnswer) (f : Fetch σ) :
    ∃ sent, (otaHttpGetWiFiHop writeCallback url answer f).2.2.requests = f.requests ++ sent ∧
      (sent = [url] ∨ sent = [] ∧ (otaHttpGetWiFiHop writeCallback url answer f).2.1 = []) := by
  unfold otaHttpGetWiFiHop
  split
  · exact ⟨[], (List.append_nil _).symm, Or.inr ⟨rfl, rfl⟩⟩
  · refine ⟨[url], ?_, Or.inl rfl⟩
    dsimp only
    split
    · rfl
    · split <;> rfl

/-- The requests of a chain of hops: one a turn, the first for `next`, all of its scheme. -/
theorem otaHops_requests (answers : Nat → HopAnswer) (turns hop : Nat) (next : Str) (f : Fetch σ) :
    ∃ sent, (otaHops writeCallback answers turns hop next f).2.requests = f.requests ++ sent ∧
      sent.length ≤ turns ∧ (∀ u ∈ sent, otaScheme u = otaScheme next) ∧
      ∀ first ∈ sent.head?, first = cstr next := by
  induction turns generalizing hop next f with
  | zero => exact ⟨[], (List.append_nil _).symm, Nat.le_refl _, by simp, by simp⟩
  | succ turns ih =>
      obtain ⟨one, requests, kind⟩ :=
        otaHttpGetWiFiHop_requests writeCallback (cstr next) (answers hop) f
      have short : one.length ≤ turns + 1 := by
        obtain rfl | ⟨rfl, -⟩ := kind
        · exact Nat.le_add_left 1 turns
        · exact Nat.zero_le _
      have scheme : ∀ u ∈ one, otaScheme u = otaScheme next := by
        obtain rfl | ⟨rfl, -⟩ := kind
        · intro u hu
          rw [List.mem_singleton.mp hu]
          exact otaScheme_cstr next
        · simp
      have first : ∀ u ∈ one.head?, u = cstr next := by
        obtain rfl | ⟨rfl, -⟩ := kind
        · simp
        · simp
      unfold otaHops
      dsimp only
      split
      · exact ⟨one, requests, short, scheme, first⟩
      next redirected =>
      split
      · exact ⟨one, requests, short, scheme, first⟩
      next allowed =>
      -- the hop asked for its URL, and the chain goes on from an allowed Location
      obtain rfl : one = [cstr next] := by
        obtain asked | ⟨-, empty⟩ := kind
        · exact asked
        · exact absurd (congrArg List.length empty) redirected
      generalize redirect :
        (otaHttpGetWiFiHop writeCallback (cstr next) (answers hop) f).2.1 = location at *
      have kept : otaScheme location = otaScheme next := by
        have same := otaRedirectAllowed_scheme (by simpa using allowed)
        rwa [otaScheme_cstr, otaScheme_cstr] at same
      obtain ⟨rest, more, bound, rest_scheme, -⟩ := ih (hop + 1) location
        (otaHttpGetWiFiHop writeCallback (cstr next) (answers hop) f).2.2
      refine ⟨cstr next :: rest, ?_, Nat.succ_le_succ bound, ?_, ?_⟩
      · rw [more, requests, List.append_assoc, List.singleton_append]
      · intro u hu
        obtain rfl | later := List.mem_cons.mp hu
        · exact otaScheme_cstr next
        · rw [rest_scheme u later, kept]
      · intro u hu
        exact (Option.some.inj hu).symm

/-- One GET sends at most `OTA_REDIRECT_MAX + 1` requests, the first for the URL it was asked
for, all of its scheme. -/
theorem otaHttpGetWiFi_requests (url : Str) (answers : Nat → HopAnswer) (w : σ) :
    let f := (otaHttpGetWiFi writeCallback url answers w).2
    f.requests.length ≤ OTA_REDIRECT_MAX + 1 ∧ (∀ u ∈ f.requests, otaScheme u = otaScheme url) ∧
      ∀ first ∈ f.requests.head?, first = cstr url := by
  obtain ⟨sent, requests, bound, scheme, first⟩ :=
    otaHops_requests writeCallback answers (OTA_REDIRECT_MAX + 1) 0 url
      { status := 0, total := 0, writer := w, requests := [] }
  have all : (otaHttpGetWiFi writeCallback url answers w).2.requests = sent := requests
  intro f
  rw [all]
  exact ⟨bound, scheme, first⟩

end Get

/-! ## The check -/

/-- A GET over WiFi: the URL it was asked for and those it requested. -/
structure WiFiGet where
  url : Str
  requests : List Str
  deriving DecidableEq

/-- What a GET over another transport comes to, with the pieces of its body. -/
structure OtherGet where
  ok : Bool
  status : Int
  pieces : List Str

structure Manifest where
  version : Str
  binUrl : Str
  sha256 : Str
  size : Nat

/-- What a check meets. -/
structure CheckEnv where
  anyTransportUp : Bool
  /-- What `loadCaCert` leaves. -/
  otaCaCert : Str
  /-- The session is up and the largest free block is under 40000 bytes. -/
  heapTight : Bool
  onCellular : Bool
  wifiAtManifest : Bool
  manifestAnswers : Nat → HopAnswer
  manifestElsewhere : OtherGet
  fled : FledEnv
  updateBegins : Bool
  wifiAtBinary : Bool
  binaryAnswers : Nat → HopAnswer
  binaryElsewhere : OtherGet
  /-- Whether the `n`-th `Update.write` takes its whole piece. -/
  flashes : Nat → Bool

/-- The writer of the manifest fetch. -/
def manifestWrite (piece body : Str) : Bool × Str :=
  if body.length + piece.length ≤ OTA_MANIFEST_CAP then (true, body ++ piece) else (false, body)

/-- The writer of the binary. -/
structure BinaryWriter where
  calls : Nat
  written : Nat
  writeOk : Bool

def binaryWrite (flashes : Nat → Bool) (piece : Str) (w : BinaryWriter) : Bool × BinaryWriter :=
  if !w.writeOk then (false, w)
  else if !flashes w.calls then (false, { w with calls := w.calls + 1, writeOk := false })
  else (true, { w with calls := w.calls + 1, written := w.written + piece.length })

/-- `otaManifestValid`. -/
def otaManifestValid (version url sha256 : Str) : Bool :=
  version ≠ [] && url ≠ [] && sha256 ≠ []

/-- `doc[key] | ""`. -/
def strOr (doc : Json) (key : Str) : Str := (doc.member key).asStr.getD []

/-- `cfg["ota"]["allow_insecure"] | false`. -/
def allowInsecureOf (cfg : Json) : Bool :=
  match (cfg.member K_OTA).member K_ALLOW_INSECURE with
  | .bool b => b
  | _ => false

/-- `doc["size"] | (size_t)0`. -/
def manifestSize (doc : Json) : Nat :=
  match doc.member K_SIZE with
  | .int n => if 0 ≤ n ∧ n < 2 ^ 32 then n.toNat else 0
  | _ => 0

/-- The manifest in a body. -/
def readManifest (deserializeJson : Reader) (body : Str) : Option Manifest :=
  match deserializeJson body with
  | .error _ => none
  | .ok doc =>
      if !otaManifestValid (strOr doc K_VERSION) (strOr doc K_URL) (strOr doc K_SHA256) then none
      else some { version := strOr doc K_VERSION, binUrl := strOr doc K_URL,
                  sha256 := strOr doc K_SHA256, size := manifestSize doc }

/-- `fetchManifest`: the manifest and the GET, when it went over WiFi. -/
def fetchManifest (deserializeJson : Reader) (url : Str) (env : CheckEnv) :
    Option Manifest × List WiFiGet :=
  if env.wifiAtManifest then
    let (ok, f) := otaHttpGetWiFi manifestWrite url env.manifestAnswers []
    (if !ok || f.status ≠ 200 then none else readManifest deserializeJson f.writer,
      [{ url, requests := f.requests }])
  else
    let (taken, _, body) := readBody manifestWrite 0 env.manifestElsewhere.pieces 0 []
    (if !(env.manifestElsewhere.ok && taken) || env.manifestElsewhere.status ≠ 200 then none
      else readManifest deserializeJson body, [])

/-- The download of `applyUpdate`: whether the whole image was taken, and the GET. -/
def download (m : Manifest) (env : CheckEnv) : Bool × List WiFiGet :=
  let w : BinaryWriter := { calls := 0, written := 0, writeOk := true }
  let whole (ok : Bool) (status : Int) (w : BinaryWriter) : Bool :=
    ok && status = 200 && w.writeOk && w.written ≠ 0 && !(0 < m.size && w.written < m.size)
  if !env.updateBegins then (false, [])
  else if env.wifiAtBinary then
    let (ok, f) := otaHttpGetWiFi (binaryWrite env.flashes) m.binUrl env.binaryAnswers w
    (whole ok f.status f.writer, [{ url := m.binUrl, requests := f.requests }])
  else
    let (taken, _, w) := readBody (binaryWrite env.flashes) 0 env.binaryElsewhere.pieces 0 w
    (whole (env.binaryElsewhere.ok && taken) env.binaryElsewhere.status w, [])

inductive CheckOutcome where
  /-- The reason `publishOtaRefusal` reports. -/
  | refused (reason : Str)
  | upToDate
  | downloaded (whole : Bool)

/-- What a check leaves, with its GETs over WiFi. -/
structure CheckRun where
  outcome : CheckOutcome
  gets : List WiFiGet
  fled : FledState

/-- `OTAUpdate::check` up to the end of the download. `allow_insecure` is read once. -/
def checkGets (deserializeJson : Reader) (cfg : Json) (manifestOverride : Option Str)
    (force : Bool) (env : CheckEnv) (s : FledState) : CheckRun :=
  let refuse (reason : String) (gets : List WiFiGet) (s : FledState) : CheckRun :=
    { outcome := .refused reason.toList, gets, fled := s }
  if !env.anyTransportUp then refuse "no-transport" [] s
  else
    let url := manifestOverride.getD (strOr (cfg.member K_OTA) K_MANIFEST_URL)
    if url.length = 0 then refuse "no-manifest-url" [] s
    else
      let allowInsecure := allowInsecureOf cfg
      if env.otaCaCert.isEmpty && !allowInsecure then refuse "no-ca" [] s
      else if !otaUrlAllowed url allowInsecure then refuse "insecure-url" [] s
      else if env.heapTight && (!force && !env.onCellular) then refuse "heap-low" [] s
      else
        match fetchManifest deserializeJson url env with
        | (none, gets) => refuse "manifest-fetch-failed" gets s
        | (some m, gets) =>
            if !otaShouldUpdate m.version s.running force then
              { outcome := .upToDate, gets, fled := s }
            else if !otaUrlAllowed m.binUrl allowInsecure then refuse "insecure-url" gets s
            else
              match fledGate s env.fled m.version force with
              | (.download _, s) =>
                  let (whole, binary) := download m env
                  { outcome := .downloaded whole, gets := gets ++ binary, fled := s }
              | (_, s) => refuse "fled-release" gets s

/-! ## Every URL of a check is allowed -/

/-- A GET whose every request is allowed, of the scheme it was asked for, and within the
redirect limit. -/
structure WiFiGet.Allowed (get : WiFiGet) (allowInsecure : Bool) : Prop where
  allowed : ∀ u ∈ get.requests, otaUrlAllowed u allowInsecure = true
  scheme : ∀ u ∈ get.requests, otaScheme u = otaScheme get.url
  asked : ∀ first ∈ get.requests.head?, first = cstr get.url
  bounded : get.requests.length ≤ OTA_REDIRECT_MAX + 1

/-- The check of the first URL covers the chain, because the scheme is kept. -/
theorem otaHttpGetWiFi_allowed {σ : Type*} (writeCallback : Str → σ → Bool × σ) {url : Str}
    {allowInsecure : Bool} (allowed : otaUrlAllowed url allowInsecure = true)
    (answers : Nat → HopAnswer) (w : σ) :
    WiFiGet.Allowed { url, requests := (otaHttpGetWiFi writeCallback url answers w).2.requests }
      allowInsecure := by
  obtain ⟨bounded, scheme, asked⟩ := otaHttpGetWiFi_requests writeCallback url answers w
  refine ⟨?_, scheme, asked, bounded⟩
  intro u hu
  rw [otaUrlAllowed_scheme, scheme u hu, ← otaUrlAllowed_scheme]
  exact allowed

theorem fetchManifest_allowed (deserializeJson : Reader) {url : Str} {allowInsecure : Bool}
    (allowed : otaUrlAllowed url allowInsecure = true) (env : CheckEnv) :
    ∀ get ∈ (fetchManifest deserializeJson url env).2, get.Allowed allowInsecure := by
  intro get mem
  unfold fetchManifest at mem
  split at mem
  · obtain rfl := List.mem_singleton.mp mem
    exact otaHttpGetWiFi_allowed manifestWrite allowed env.manifestAnswers []
  · cases mem

theorem download_allowed {m : Manifest} {allowInsecure : Bool}
    (allowed : otaUrlAllowed m.binUrl allowInsecure = true) (env : CheckEnv) :
    ∀ get ∈ (download m env).2, get.Allowed allowInsecure := by
  intro get mem
  unfold download at mem
  dsimp only at mem
  split at mem
  · cases mem
  · split at mem
    · obtain rfl := List.mem_singleton.mp mem
      exact otaHttpGetWiFi_allowed (binaryWrite env.flashes) allowed env.binaryAnswers _
    · cases mem

/-- Whatever the servers answer, every URL a check requests over WiFi is allowed under the
configured `allow_insecure`, every hop keeps the scheme of the first URL of its GET, and no GET
sends more than `OTA_REDIRECT_MAX + 1` requests. -/
theorem checkGets_allowed (deserializeJson : Reader) (cfg : Json) (manifestOverride : Option Str)
    (force : Bool) (env : CheckEnv) (s : FledState) :
    ∀ get ∈ (checkGets deserializeJson cfg manifestOverride force env s).gets,
      get.Allowed (allowInsecureOf cfg) := by
  intro get mem
  unfold checkGets at mem
  dsimp only at mem
  split at mem
  · cases mem
  split at mem
  · cases mem
  split at mem
  · cases mem
  split at mem
  · cases mem
  next url_ok =>
  split at mem
  · cases mem
  have manifest := fetchManifest_allowed deserializeJson (by simpa using url_ok) env
  split at mem
  · next gets fetched =>
      rw [fetched] at manifest
      exact manifest get mem
  next m gets fetched =>
  rw [fetched] at manifest
  split at mem
  · exact manifest get mem
  split at mem
  · exact manifest get mem
  next binary_ok =>
  split at mem
  · obtain first | second := List.mem_append.mp mem
    · exact manifest get first
    · exact download_allowed (by simpa using binary_ok) env get second
  · exact manifest get mem

/-- A check whose manifest moved to another host, which does not have it. -/
def movedCheck : CheckEnv where
  anyTransportUp := true
  otaCaCert := ['c']
  heapTight := false
  onCellular := false
  wifiAtManifest := true
  manifestAnswers := fun hop =>
    { resolves := true, code := if hop = 0 then 302 else 404, location := "https://k/m".toList,
      size := 0, pieces := [] }
  manifestElsewhere := { ok := false, status := 0, pieces := [] }
  fled := { readOk := true, writeOk := true, epoch := 0 }
  updateBegins := true
  wifiAtBinary := true
  binaryAnswers := fun _ =>
    { resolves := false, code := 0, location := [], size := 0, pieces := [] }
  binaryElsewhere := { ok := false, status := 0, pieces := [] }
  flashes := fun _ => true

theorem checkGets_allowed_moved :
    WiFiGet.Allowed
      { url := "https://h/m".toList, requests := ["https://h/m".toList, "https://k/m".toList] }
      false :=
  checkGets_allowed (fun _ => .error .null) .null (some "https://h/m".toList) false movedCheck
    (FledTrace.recorded [] [] (0, 0) 0).state _ (List.mem_singleton.mpr (by decide +kernel))

end Thesada.Ota
