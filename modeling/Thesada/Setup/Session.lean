import Thesada.Library.Machine
import Thesada.Setup.ApplyForm

/-!
# The session of the setup page

The network task takes a form and sets it pending, the main loop applies it and sets its result.
Between the end of a form and its result the network task may come in, so the turn of the loop is
two events. The page is up while the access point is, and no station is saved or a result is held.
-/

namespace Thesada.Setup

open CString Json Machine Thesada.Config Thesada.Enroll
open Thesada.Identity (identityDeviceIdValid)

def PASS_CAP : Nat := 64

def setupPortalOpen (apActive : Bool) (stationNetworks : Nat) (holdingResult : Bool) : Bool :=
  apActive && (stationNetworks = 0 || holdingResult)

/-- Saved station networks. -/
def stationNetworks (doc : Json) : Nat :=
  match (doc.member K_WIFI).member K_NETWORKS with
  | .arr items => items.length
  | _ => 0

/-- Text for the body of a page, without controls and what is not ASCII. -/
def htmlText (s : Str) : Str :=
  s.flatMap fun c =>
    if c = '&' then "&amp;".toList
    else if c = '<' then "&lt;".toList
    else if c = '>' then "&gt;".toList
    else if c = '"' then "&quot;".toList
    else if ' ' ≤ c && c < '\x7f' then [c]
    else []

structure Portal where
  unit : SetupUnit
  /-- `WiFiManager::isAPActive`. -/
  apActive : Bool
  pageOpen : Bool
  pending : Option SetupForm
  /-- `_pass`. -/
  pass : Str
  resultReady : Bool
  result : FormResult
  /-- Of a turn of the loop under way, whether it applied a form. -/
  turn : Option Bool
  accepted : List SetupForm
  applied : List SetupForm

/-- What `GET /setup` sends. -/
inductive Page where
  | notFound
  | wait
  | link (text : Str)
  | form (error : Str)
  deriving DecidableEq

/-- A field of the `POST`, none when it does not fit its buffer. -/
def copyPostField (value : Option Str) (cap : Nat) : Option Str :=
  value.filter fun v => v.length < cap

inductive PortalEvent where
  /-- `POST /setup`. -/
  | post (ssid pass url : Option Str)
  /-- `SetupPortal::loop` up to the end of the form. -/
  | loopApply (io : FormIo)
  /-- The rest of `SetupPortal::loop`. -/
  | loopSettle
  | accessPoint (up : Bool)
  /-- The secrets or the configuration change outside of the page. -/
  | changes (unit : SetupUnit)

namespace Portal

def boot (unit : SetupUnit) : Portal where
  unit
  apActive := false
  pageOpen := false
  pending := none
  pass := []
  resultReady := false
  result := ⟨[], []⟩
  turn := none
  accepted := []
  applied := []

def hasLink (s : Portal) : Bool := s.resultReady && !s.result.link.isEmpty

/-- `sendSetupPage`. -/
def page (s : Portal) : Page :=
  if !s.pageOpen then .notFound
  else if s.pending.isSome then .wait
  else if s.hasLink then .link (htmlText s.result.link)
  else .form (htmlText s.result.error)

def submit (s : Portal) (ssid pass url : Str) : Portal × Bool :=
  if !s.pageOpen || s.pending.isSome then (s, false)
  else if s.hasLink then (s, false)
  else if usable : setupFormUsable ssid pass url = true then
    ({ s with
        pending := some ⟨ssid, pass, url, usable⟩
        pass
        result := ⟨[], []⟩
        accepted := s.accepted ++ [⟨ssid, pass, url, usable⟩] }, true)
  else (s, false)

/-- `POST /setup`, with the status of its reply. -/
def post (s : Portal) (ssid pass url : Option Str) : Portal × Nat :=
  if !s.pageOpen then (s, 404)
  else
    match copyPostField ssid SSID_CAP, copyPostField pass PASS_CAP,
      copyPostField url ENROLL_URL_CAP with
    | some ssid, some pass, some url =>
        let (s, queued) := s.submit ssid pass url
        (s, if queued then 200 else 400)
    | _, _, _ => (s, 400)

/-- A form is wiped before it is no longer pending. -/
def loopApply (s : Portal) (io : FormIo) : Portal :=
  match s.turn, s.pending with
  | some _, _ => s
  | none, none => { s with turn := some false }
  | none, some f =>
      let (unit, result) := applyForm s.unit f io
      { s with unit, result, pass := [], pending := none, turn := some true
               applied := s.applied ++ [f] }

/-- Every form that was applied has a result to hold. -/
def loopSettle (s : Portal) : Portal :=
  match s.turn with
  | none => s
  | some ended =>
      let resultReady := ended || s.resultReady
      { s with
        resultReady
        pageOpen :=
          setupPortalOpen s.apActive (stationNetworks s.unit.config.live) resultReady
        turn := none }

end Portal

def portalStep (s : Portal) : PortalEvent → Portal
  | .post ssid pass url => (s.post ssid pass url).1
  | .loopApply io => s.loopApply io
  | .loopSettle => s.loopSettle
  | .accessPoint up => { s with apActive := up }
  | .changes unit => { s with unit }

/-! ## Text of a page -/

/-- What a browser shows for the text. -/
def htmlRead : Str → Str
  | '&' :: 'a' :: 'm' :: 'p' :: ';' :: s => '&' :: htmlRead s
  | '&' :: 'l' :: 't' :: ';' :: s => '<' :: htmlRead s
  | '&' :: 'g' :: 't' :: ';' :: s => '>' :: htmlRead s
  | '&' :: 'q' :: 'u' :: 'o' :: 't' :: ';' :: s => '"' :: htmlRead s
  | c :: s => c :: htmlRead s
  | [] => []

def Printable (s : Str) : Prop := ∀ c ∈ s, ' ' ≤ c ∧ c < '\x7f'

theorem printable_of_all {s : Str} (all : s.all (fun c => ' ' ≤ c && c < '\x7f') = true) :
    Printable s := by
  simpa [Printable] using all

theorem printable_between {low high c : Char} (first : ' ' ≤ low) (below : low ≤ c)
    (above : c ≤ high) (last : high < '\x7f') : ' ' ≤ c ∧ c < '\x7f' :=
  ⟨Char.le_trans first below, Nat.lt_of_le_of_lt above last⟩

theorem htmlRead_amp (s : Str) : htmlRead ("&amp;".toList ++ s) = '&' :: htmlRead s := rfl

theorem htmlRead_lt (s : Str) : htmlRead ("&lt;".toList ++ s) = '<' :: htmlRead s := rfl

theorem htmlRead_gt (s : Str) : htmlRead ("&gt;".toList ++ s) = '>' :: htmlRead s := rfl

theorem htmlRead_quot (s : Str) : htmlRead ("&quot;".toList ++ s) = '"' :: htmlRead s := rfl

theorem htmlRead_plain {c : Char} (plain : c ≠ '&') (s : Str) :
    htmlRead (c :: s) = c :: htmlRead s := by
  rw [htmlRead] <;> simp [plain]

theorem htmlRead_htmlText {s : Str} (printable : Printable s) : htmlRead (htmlText s) = s := by
  induction s with
  | nil => rfl
  | cons c s ih =>
      obtain ⟨first, rest⟩ := List.forall_mem_cons.mp printable
      have tail : htmlRead (htmlText s) = s := ih rest
      rw [htmlText] at tail
      rw [htmlText, List.flatMap_cons]
      split_ifs with amp lt gt quot ascii
      · rw [htmlRead_amp, tail, amp]
      · rw [htmlRead_lt, tail, lt]
      · rw [htmlRead_gt, tail, gt]
      · rw [htmlRead_quot, tail, quot]
      · rw [List.singleton_append, htmlRead_plain amp, tail]
      · simp [first] at ascii

theorem Printable.append {s t : Str} (first : Printable s) (second : Printable t) :
    Printable (s ++ t) := List.forall_mem_append.mpr ⟨first, second⟩

theorem Printable.sublist {s t : Str} (printable : Printable t) (sub : s.Sublist t) :
    Printable s := fun c mem => printable c (sub.subset mem)

theorem enrollUrlUsable_printable {url : Str} (usable : enrollUrlUsable url = true) :
    Printable url := by
  have inside (c : Char) (ok : ('!' ≤ c && c ≤ '~' && c ≠ '?' && c ≠ '#' && c ≠ '@') = true) :
      ' ' ≤ c ∧ c < '\x7f' := by
    simp only [Bool.and_eq_true, decide_eq_true_eq] at ok
    obtain ⟨⟨⟨⟨low, high⟩, -⟩, -⟩, -⟩ := ok
    exact printable_between (by decide) low high (by decide)
  unfold enrollUrlUsable at usable
  split_ifs at usable
  split at usable
  · cases usable
  · split_ifs at usable
    exact fun c mem => inside c (List.all_eq_true.mp usable c mem)

theorem identityDeviceIdValid_printable {id : Str} (valid : identityDeviceIdValid id = true) :
    Printable id := by
  unfold identityDeviceIdValid at valid
  split_ifs at valid with start
  rw [Bool.not_eq_true', Bool.not_eq_false, List.isPrefixOf_iff_prefix] at start
  obtain ⟨hex, rfl⟩ := start
  rw [List.drop_left, Bool.and_eq_true] at valid
  refine Printable.append (printable_of_all (by decide)) fun c mem => ?_
  have digit := List.all_eq_true.mp valid.1 c mem
  simp only [Identity.isIdHex, Bool.or_eq_true, Bool.and_eq_true, decide_eq_true_eq, Char.isDigit]
    at digit
  obtain ⟨low, high⟩ | ⟨low, high⟩ := digit
  · exact printable_between (by decide) low high (by decide)
  · exact printable_between (by decide) low high (by decide)

theorem enrollClaimCodeValid_printable {code : Str} (valid : enrollClaimCodeValid code = true) :
    Printable code := by
  rw [enrollClaimCodeValid, Bool.and_eq_true] at valid
  intro c mem
  have digit := List.all_eq_true.mp valid.1 c mem
  simp only [Bool.and_eq_true, decide_eq_true_eq] at digit
  exact printable_between (by decide) digit.1 digit.2 (by decide)

/-- A claim link goes through the page as it is. -/
theorem enrollClaimLink_printable {cap : Nat} {base id code link : Str}
    (built : enrollClaimLink cap base id code = some link) : Printable link := by
  unfold enrollClaimLink at built
  simp only at built
  split_ifs at built with unusable
  obtain rfl := Option.some.inj built
  simp only [Bool.or_eq_true, Bool.not_eq_true', not_or, Bool.not_eq_false] at unusable
  obtain ⟨⟨url, id⟩, code⟩ := unusable
  have stripped : (enrollBase base).Sublist base := by
    have tail := (List.dropWhile_sublist (· = '/') (l := base.reverse)).reverse
    rwa [List.reverse_reverse] at tail
  refine .append (.append (.append (.append ?_ ?_) ?_) ?_) ?_
  · exact (enrollUrlUsable_printable url).sublist stripped
  · exact printable_of_all (by decide)
  · exact identityDeviceIdValid_printable id
  · exact printable_of_all (by decide)
  · exact enrollClaimCodeValid_printable code

/-! ## Runs -/

/-- The link is the claim link for the URL of the form. -/
def LinkOf (f : SetupForm) (link : Str) : Prop :=
  ∃ id code, enrollClaimLink LINK_CAP (enrollBase f.url) id code = some link

theorem applyForm_link {u : SetupUnit} {f : SetupForm} {io : FormIo}
    (some_ : (applyForm u f io).2.link ≠ []) : LinkOf f (applyForm u f io).2.link := by
  have claim (nvs : Nvs) (some_ : (claimLink nvs io (enrollBase f.url)).link ≠ []) :
      LinkOf f (claimLink nvs io (enrollBase f.url)).link := by
    unfold claimLink at some_ ⊢
    split at some_
    · exact absurd rfl some_
    · split at some_
      · exact absurd rfl some_
      · split at some_
        · exact absurd rfl some_
        next code _ _ id _ _ link built => exact ⟨id, code, built⟩
  unfold applyForm at some_ ⊢
  simp only at some_ ⊢
  split_ifs at some_ ⊢ <;> first | exact claim _ some_ | exact absurd rfl some_

structure PortalInv (s : Portal) : Prop where
  queue : s.accepted = s.applied ++ s.pending.toList
  wiped : s.pass = (s.pending.map SetupForm.pass).getD []
  link : s.result.link ≠ [] → s.pending = none ∧
    ∃ f, s.applied.getLast? = some f ∧ LinkOf f s.result.link

/-- What a `POST` leaves. -/
theorem post_cases (s : Portal) (ssid pass url : Option Str) :
    (s.post ssid pass url).1 = s ∨ s.pageOpen = true ∧ s.pending = none ∧ s.hasLink = false ∧
      ∃ f : SetupForm, ssid = some f.ssid ∧ pass = some f.pass ∧ url = some f.url ∧
        (s.post ssid pass url).1 =
          { s with pending := some f, pass := f.pass, result := ⟨[], []⟩
                   accepted := s.accepted ++ [f] } := by
  unfold Portal.post
  split
  · exact .inl rfl
  next opened =>
    rw [Bool.not_eq_true', Bool.not_eq_false] at opened
    split
    next ssid' pass' url' hasSsid hasPass hasUrl =>
      simp only [copyPostField, Option.filter_eq_some_iff] at hasSsid hasPass hasUrl
      simp only [Portal.submit, opened, Bool.not_true, Bool.false_or]
      split_ifs with busy linked usable
      · exact .inl rfl
      · exact .inl rfl
      · refine .inr ⟨trivial, by simpa using busy, by simpa using linked,
          ⟨ssid', pass', url', usable⟩, hasSsid.1, hasPass.1, hasUrl.1, rfl⟩
      · exact .inl rfl
    · exact .inl rfl

theorem PortalInv.apply {s : Portal} (h : PortalInv s) {f : SetupForm} (io : FormIo)
    (pending : s.pending = some f) :
    PortalInv
      { s with
        unit := (applyForm s.unit f io).1
        result := (applyForm s.unit f io).2
        pass := []
        pending := none
        turn := some true
        applied := s.applied ++ [f] } where
  queue := by
    rw [h.queue, pending]
    simp
  wiped := rfl
  link := fun some_ => ⟨rfl, f, by simp, applyForm_link some_⟩

theorem portalStep_inv (s : Portal) (e : PortalEvent) (h : PortalInv s) :
    PortalInv (portalStep s e) := by
  cases e with
  | post ssid pass url =>
      obtain same | ⟨-, idle, -, f, -, -, -, taken⟩ := post_cases s ssid pass url
      · simp only [portalStep, same]
        exact h
      · simp only [portalStep, taken]
        refine ⟨?_, rfl, fun link => absurd rfl link⟩
        simp [h.queue, idle]
  | loopApply io =>
      simp only [portalStep, Portal.loopApply]
      split
      · exact h
      · exact ⟨h.queue, h.wiped, h.link⟩
      next f _ pending => exact h.apply io pending
  | loopSettle =>
      simp only [portalStep, Portal.loopSettle]
      split
      · exact h
      · exact ⟨h.queue, h.wiped, h.link⟩
  | accessPoint | changes => exact ⟨h.queue, h.wiped, h.link⟩

/-- A link that is held stays, and no form is taken any more. -/
structure Final (first s : Portal) : Prop where
  inv : PortalInv s
  held : s.hasLink = true
  result : s.result = first.result
  accepted : s.accepted = first.accepted

theorem portalStep_final {first : Portal} (s : Portal) (e : PortalEvent) (h : Final first s) :
    Final first (portalStep s e) := by
  have inv := portalStep_inv s e h.inv
  obtain ⟨ready, some_⟩ : s.resultReady = true ∧ s.result.link ≠ [] := by
    simpa [Portal.hasLink] using h.held
  cases e with
  | post ssid pass url =>
      obtain same | ⟨-, -, none_, -⟩ := post_cases s ssid pass url
      · simp only [portalStep, same] at inv ⊢
        exact h
      · exact nomatch h.held.symm.trans none_
  | loopApply io =>
      have idle := (h.inv.link some_).1
      simp only [portalStep, Portal.loopApply, idle] at inv ⊢
      split at inv
      · exact h
      · exact ⟨inv, h.held, h.result, h.accepted⟩
      next found => cases found
  | loopSettle =>
      simp only [portalStep, Portal.loopSettle] at inv ⊢
      split at inv
      · exact h
      · refine ⟨inv, ?_, h.result, h.accepted⟩
        simpa [Portal.hasLink, ready] using some_
  | accessPoint | changes => exact ⟨inv, h.held, h.result, h.accepted⟩

end Thesada.Setup
