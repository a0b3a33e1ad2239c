import Mathlib.Algebra.BigOperators.Ring.List
import Mathlib.Algebra.Group.Action.Defs
import Mathlib.Algebra.Order.BigOperators.Group.List
import Mathlib.Algebra.Order.Group.Nat
import Mathlib.Algebra.Ring.Nat
import Mathlib.Data.Int.Order.Basic
import Mathlib.Data.List.Infix
import Thesada.Library.ExchangeSort
import Thesada.Library.Word32
import Thesada.Secret.Store

/-!
# The WiFi manager

A scan picks at most eight of the configured networks, the strongest signal first, and tries each
for its share of a budget. When none connects, the fallback access point comes up, if its
passphrase is fit for one.

What a wait finds is a stream of looks. `took` is the time from one look to the next: the sleep of
one step at least, and with the console behind it less than the counter of milliseconds has room
for.
-/

namespace Thesada.Wifi

open CString Machine Cli Secret

/-! ## Fed waits -/

def WAIT_STEP_MAX_MS : Nat := 1000

def WIFI_POLL_STEP_MS : Nat := 250

def waitStepMs (ms : Nat) : Nat :=
  if ms < 1 then 1 else if WAIT_STEP_MAX_MS < ms then WAIT_STEP_MAX_MS else ms

def wifiSsidTimeoutMs (s : Int) : Nat :=
  let s := if s < 1 then 1 else s
  let s := if 60 < s then 60 else s
  s.toNat * 1000

def wifiRetries (r : Int) : Nat :=
  if r < 1 then 1 else if 5 < r then 5 else r.toNat

def wifiConnectBudgetMs (retries ssids timeoutS : Int) : Nat :=
  let ssids := if ssids < 0 then 0 else ssids
  let ssids := if 8 < ssids then 8 else ssids
  wifiRetries retries * ssids.toNat * wifiSsidTimeoutMs timeoutS

structure Look where
  /-- `WL_CONNECTED`. -/
  connected : Bool
  took : Nat

structure Looks where
  look : Nat → Look
  slept : ∀ i, waitStepMs WIFI_POLL_STEP_MS ≤ (look i).took
  counted : ∀ i, (look i).took < 4294907296

theorem wifiSsidTimeoutMs_le (s : Int) : wifiSsidTimeoutMs s ≤ 60000 := by
  unfold wifiSsidTimeoutMs
  grind

/-- No step wraps a wait that is not over. -/
theorem Looks.add_took (link : Looks) {timeoutS : Int} {spent : Nat} (i : Nat)
    (left : spent < wifiSsidTimeoutMs timeoutS) :
    Word32.add spent (link.look i).took = spent + (link.look i).took ∧
      250 ≤ (link.look i).took := by
  have most := wifiSsidTimeoutMs_le timeoutS
  have counted := link.counted i
  refine ⟨Word32.add_of_lt ?_, link.slept i⟩
  have room : spent + (link.look i).took < 4294967296 := by omega
  exact room

/-- The loop of `tryConnect`, with `millis() - start` and the steps taken so far. -/
def connectWait (link : Looks) (timeoutS : Int) (spent steps : Nat) : Bool × Nat :=
  if (link.look steps).connected then (true, steps)
  else if wifiSsidTimeoutMs timeoutS ≤ spent then (false, steps)
  else connectWait link timeoutS (Word32.add spent (link.look steps).took) (steps + 1)
termination_by wifiSsidTimeoutMs timeoutS - spent
decreasing_by
  have left : spent < wifiSsidTimeoutMs timeoutS := by omega
  have ⟨exact, slept⟩ := link.add_took steps left
  omega

/-- Whether the link came up, and the fed steps that took. -/
def tryConnect (link : Looks) (timeoutS : Int) : Bool × Nat := connectWait link timeoutS 0 0

/-! ## Candidates -/

/-- What a scan reports. An SSID has at most 32 bytes. -/
structure Seen where
  ssid : Str
  rssi : Int
  short : ssid.length ≤ 32

structure Network where
  ssid : Str
  password : Str

structure Candidate where
  ssid : Str
  password : Str
  rssi : Int

def INT32_MIN : Int := -2147483648

def bestRssi (found : List Seen) (ssid : Str) : Int :=
  found.foldl (fun best s => if s.ssid = ssid ∧ best < s.rssi then s.rssi else best) INT32_MIN

/-- One turn of the loop over the configured networks. -/
def addCandidate (secrets : SecretStore) (found : List Seen) (cs : List Candidate)
    (net : Network) : List Candidate :=
  if net.ssid.length = 0 ∨ 8 ≤ cs.length then cs
  else if bestRssi found net.ssid = INT32_MIN then cs
  else
    let password := secrets.resolve (secretWifiKey net.ssid) net.password MAX_LEN
    cs ++ [⟨net.ssid.take 32, password, bestRssi found net.ssid⟩]

def candidates (secrets : SecretStore) (found : List Seen) (networks : List Network) :
    List Candidate :=
  networks.foldl (addCandidate secrets found) []

def ranked (cs : List Candidate) : List Candidate := ExchangeSort.sort Candidate.rssi cs

/-! ## Attempts -/

structure Attempt where
  candidate : Candidate
  connected : Bool
  steps : Nat

/-- One pass over the candidates, which ends at the first that connects. `links` is what each
attempt finds, and `k` attempts came before. -/
def tryEach (links : Nat → Looks) (timeoutS : Int) (k : Nat) : List Candidate → List Attempt
  | [] => []
  | c :: cs =>
      let tried := tryConnect (links k) timeoutS
      if tried.1 then [⟨c, true, tried.2⟩]
      else ⟨c, false, tried.2⟩ :: tryEach links timeoutS (k + 1) cs

def tryPasses (links : Nat → Looks) (timeoutS : Int) (cs : List Candidate) :
    (passes k : Nat) → List Attempt
  | 0, _ => []
  | passes + 1, k =>
      let tried := tryEach links timeoutS k cs
      if tried.any Attempt.connected then tried
      else tried ++ tryPasses links timeoutS cs passes (k + tried.length)

/-- What starting the access point reads. The console runs while a link is awaited, so this may be
newer than what the scan read. -/
structure ApEnv where
  secrets : SecretStore
  apPassword : Str
  apTimeoutS : Int
  deviceId : Str
  nodeName : Str
  now : Nat

structure WifiEnv where
  networks : List Network
  timeoutPerSsidS : Int
  retries : Int
  secrets : SecretStore
  found : List Seen
  links : Nat → Looks
  /-- `WiFi.status()` says connected. -/
  linkUp : Bool
  now : Nat
  ap : ApEnv

def WifiEnv.candidates (env : WifiEnv) : List Candidate :=
  Wifi.candidates env.secrets env.found env.networks

def WifiEnv.attempts (env : WifiEnv) : List Attempt :=
  tryPasses env.links env.timeoutPerSsidS (ranked env.candidates) (wifiRetries env.retries) 0

/-! ## The access point -/

def apPasswordUsable (pass : Str) : Bool :=
  if pass = [] then false else if pass = "changeme".toList then false else decide (8 ≤ pass.length)

def apMayStart (pass : Str) : Bool := apPasswordUsable pass

def apSsidFor (cap : Nat) (deviceId fallbackName : Str) : Option Str :=
  let base := if deviceId ≠ [] then deviceId else fallbackName
  if base = [] then none
  else if cap ≤ base.length + 6 then none
  else some (base ++ "-setup".toList)

inductive WiFiStatus where
  | connected
  | scanning
  | allFailed
deriving DecidableEq

structure WiFiManager where
  status : WiFiStatus
  apActive : Bool
  /-- SSID and passphrase of the access point that the radio runs. -/
  radio : Option (Str × Str)
  apStartTime : Nat
  apTimeoutMs : Nat

namespace WiFiManager

def boot : WiFiManager := ⟨.scanning, false, none, 0, 300000⟩

def startFallbackAP (s : WiFiManager) (env : ApEnv) : WiFiManager :=
  if s.apActive then s
  else
    let apPass := env.secrets.resolve "ap_password".toList env.apPassword MAX_LEN
    let s := { s with apTimeoutMs := (env.apTimeoutS * 1000 % 4294967296).toNat }
    if !apMayStart apPass then s
    else
      match apSsidFor 32 env.deviceId env.nodeName with
      | none => s
      | some apSSID =>
          { s with
            radio := some (apSSID, apPass)
            apActive := true
            apStartTime := env.now % Word32.size }

def stopFallbackAP (s : WiFiManager) : WiFiManager :=
  if !s.apActive then s else { s with radio := none, apActive := false }

def scanAndConnect (s : WiFiManager) (env : WifiEnv) : WiFiManager :=
  let s := { s with status := .scanning }
  if env.networks = [] then s.startFallbackAP env.ap
  else if env.candidates = [] then { s.startFallbackAP env.ap with status := .allFailed }
  else if env.attempts.any Attempt.connected then
    { s with status := .connected, apActive := false }
  else { s with status := .allFailed }.startFallbackAP env.ap

def begin (env : WifiEnv) : WiFiManager := boot.scanAndConnect env

def loop (s : WiFiManager) (env : WifiEnv) : WiFiManager :=
  if s.apActive then
    if 0 < s.apTimeoutMs ∧ s.apTimeoutMs ≤ Word32.sub (env.now % Word32.size) s.apStartTime then
      s.stopFallbackAP.scanAndConnect env
    else s
  else if s.status = .allFailed then s
  else if !env.linkUp then s.scanAndConnect env
  else s

end WiFiManager

/-! ## Waits -/

/-- The time that the first steps of a wait take. -/
def Looks.waited (link : Looks) (steps : Nat) : Nat :=
  ((List.range steps).map fun i => (link.look i).took).sum

theorem Looks.waited_succ (link : Looks) (steps : Nat) :
    link.waited (steps + 1) = link.waited steps + (link.look steps).took := by
  simp [Looks.waited, List.range_succ]

/-- A wait ends at the look that finds the link up, or at one behind its timeout, and is never
longer than the timeout has fed steps. -/
structure Waits (link : Looks) (timeoutS : Int) (connected : Bool) (steps : Nat) : Prop where
  looked : (link.look steps).connected = connected
  whole : connected = false → wifiSsidTimeoutMs timeoutS ≤ link.waited steps
  fed : 250 * steps ≤ wifiSsidTimeoutMs timeoutS

theorem connectWait_waits (link : Looks) (timeoutS : Int) (spent steps : Nat)
    (counted : spent = link.waited steps) (slept : 250 * steps ≤ spent)
    (fed : 250 * steps ≤ wifiSsidTimeoutMs timeoutS) :
    let tried := connectWait link timeoutS spent steps
    Waits link timeoutS tried.1 tried.2 := by
  induction spent, steps using connectWait.induct link timeoutS with
  | case1 spent steps up =>
      rw [connectWait, if_pos up]
      exact ⟨up, nofun, fed⟩
  | case2 spent steps down ended =>
      rw [connectWait, if_neg down, if_pos ended]
      exact ⟨by simpa using down, fun _ => counted ▸ ended, fed⟩
  | case3 spent steps down left ih =>
      rw [connectWait, if_neg down, if_neg left]
      have ⟨exact, took⟩ := link.add_took steps (not_le.mp left)
      have whole : ∃ seconds, wifiSsidTimeoutMs timeoutS = seconds * 1000 := ⟨_, rfl⟩
      obtain ⟨seconds, whole⟩ := whole
      refine ih ?_ ?_ ?_
      · rw [exact, link.waited_succ, counted]
      · omega
      · omega

theorem tryConnect_waits (link : Looks) (timeoutS : Int) :
    Waits link timeoutS (tryConnect link timeoutS).1 (tryConnect link timeoutS).2 :=
  connectWait_waits link timeoutS 0 0 rfl (Nat.le_refl _) (Nat.zero_le _)

/-! ## Attempts in order -/

/-- The attempts that are made when the candidates of `order` are tried until one connects. -/
structure Tries (links : Nat → Looks) (timeoutS : Int) (k : Nat) (order : List Candidate)
    (tried : List Attempt) : Prop where
  inOrder : tried.map Attempt.candidate <+: order
  all : (∀ a ∈ tried, a.connected = false) → tried.map Attempt.candidate = order
  before : ∀ a ∈ tried.dropLast, a.connected = false
  waits : ∀ i a, tried[i]? = some a → Waits (links (k + i)) timeoutS a.connected a.steps

namespace Tries

variable {links : Nat → Looks} {timeoutS : Int} {k : Nat} {order more : List Candidate}
  {tried rest : List Attempt}

theorem nil : Tries links timeoutS k [] [] :=
  ⟨List.prefix_refl _, fun _ => rfl, nofun, nofun⟩

/-- One that connects ends the attempts. -/
theorem stop (tries : Tries links timeoutS k order tried)
    (up : tried.any Attempt.connected = true) : Tries links timeoutS k (order ++ more) tried where
  inOrder := tries.inOrder.trans (List.prefix_append _ _)
  all none := by
    obtain ⟨a, mem, connected⟩ := List.any_eq_true.mp up
    exact absurd connected (by simp [none a mem])
  before := tries.before
  waits := tries.waits

theorem append (tries : Tries links timeoutS k order tried)
    (down : ∀ a ∈ tried, a.connected = false)
    (later : Tries links timeoutS (k + tried.length) more rest) :
    Tries links timeoutS k (order ++ more) (tried ++ rest) where
  inOrder := by
    rw [List.map_append, tries.all down]
    exact (List.prefix_append_right_inj _).mpr later.inOrder
  all none := by
    have none' : ∀ a ∈ rest, a.connected = false := fun a mem =>
      none a (List.mem_append_right _ mem)
    rw [List.map_append, tries.all down, later.all none']
  before a mem := by
    rcases List.eq_nil_or_concat' rest with rfl | ⟨_, _, rfl⟩
    · exact down a (List.mem_of_mem_dropLast (by simpa using mem))
    · rw [List.dropLast_append_of_ne_nil (by simp)] at mem
      rcases List.mem_append.mp mem with first | second
      · exact down a first
      · exact later.before a second
  waits i a found := by
    rcases Nat.lt_or_ge i tried.length with first | second
    · rw [List.getElem?_append_left first] at found
      exact tries.waits i a found
    · rw [List.getElem?_append_right second] at found
      have waited := later.waits _ a found
      rwa [Nat.add_assoc, Nat.add_sub_cancel' second] at waited

theorem single (c : Candidate) :
    let tried := tryConnect (links k) timeoutS
    Tries links timeoutS k [c] [⟨c, tried.1, tried.2⟩] where
  inOrder := List.prefix_refl _
  all _ := rfl
  before := nofun
  waits i a found := by
    obtain ⟨first, rfl⟩ := List.getElem?_eq_some_iff.mp found
    obtain rfl : i = 0 := by simpa using first
    exact tryConnect_waits _ _

theorem steps_le (tries : Tries links timeoutS k order tried) :
    250 * (tried.map Attempt.steps).sum ≤ order.length * wifiSsidTimeoutMs timeoutS := by
  have each : ∀ ms ∈ tried.map fun a => 250 * a.steps, ms ≤ wifiSsidTimeoutMs timeoutS := by
    intro ms mem
    obtain ⟨a, here, rfl⟩ := List.mem_map.mp mem
    obtain ⟨i, found⟩ := List.getElem?_of_mem here
    exact (tries.waits i a found).fed
  have total := List.sum_le_card_nsmul _ _ each
  rw [List.sum_map_mul_left tried Attempt.steps 250, List.length_map, smul_eq_mul] at total
  have fewer : tried.length ≤ order.length := by simpa using tries.inOrder.length_le
  exact total.trans (Nat.mul_le_mul_right _ fewer)

end Tries

theorem tryEach_tries (links : Nat → Looks) (timeoutS : Int) (k : Nat) (cs : List Candidate) :
    Tries links timeoutS k cs (tryEach links timeoutS k cs) := by
  induction cs generalizing k with
  | nil => exact .nil
  | cons c cs ih =>
      have first : Tries links timeoutS k [c] _ := .single c
      simp only [tryEach]
      split
      next up =>
        rw [up] at first
        exact first.stop rfl
      next down =>
        rw [Bool.not_eq_true _ |>.mp down] at first
        exact first.append (by simp) (ih (k + 1))

theorem tryPasses_tries (links : Nat → Looks) (timeoutS : Int) (cs : List Candidate)
    (passes k : Nat) :
    Tries links timeoutS k (List.replicate passes cs).flatten
      (tryPasses links timeoutS cs passes k) := by
  induction passes generalizing k with
  | zero => exact .nil
  | succ passes ih =>
      have first := tryEach_tries links timeoutS k cs
      rw [List.replicate_succ, List.flatten_cons]
      simp only [tryPasses]
      split
      next up => exact first.stop up
      next down =>
        refine first.append (fun a mem => ?_) (ih _)
        simpa using mt (fun up => List.any_eq_true.mpr ⟨a, mem, up⟩) down

/-! ## Ranking -/

theorem bestRssi_spec (found : List Seen) (ssid : Str) :
    (∀ s ∈ found, s.ssid = ssid → s.rssi ≤ bestRssi found ssid) ∧
      (bestRssi found ssid = INT32_MIN ∨
        ∃ s ∈ found, s.ssid = ssid ∧ s.rssi = bestRssi found ssid) := by
  unfold bestRssi
  induction found using List.reverseRecOn with
  | nil => exact ⟨nofun, .inl rfl⟩
  | append_singleton found last ih =>
      obtain ⟨above, reached⟩ := ih
      rw [List.foldl_append, List.foldl_cons, List.foldl_nil]
      split
      next better =>
        refine ⟨fun s mem same => ?_, .inr ⟨last, by simp, better.1, rfl⟩⟩
        rcases List.mem_append.mp mem with before | here
        · exact (above s before same).trans (le_of_lt better.2)
        · rw [List.mem_singleton.mp here]
      next notBetter =>
        refine ⟨fun s mem same => ?_, ?_⟩
        · rcases List.mem_append.mp mem with before | here
          · exact above s before same
          · rw [List.mem_singleton.mp here] at same ⊢
            exact not_lt.mp fun less => notBetter ⟨same, less⟩
        · refine reached.imp_right fun ⟨s, mem, same⟩ => ⟨s, ?_, same⟩
          exact List.mem_append_left _ mem

/-- A configured network that the scan saw. -/
def inRange (found : List Seen) (net : Network) : Bool :=
  decide (net.ssid ≠ []) && decide (bestRssi found net.ssid ≠ INT32_MIN)

def candidateOf (secrets : SecretStore) (found : List Seen) (net : Network) : Candidate :=
  ⟨net.ssid, secrets.resolve (secretWifiKey net.ssid) net.password MAX_LEN,
    bestRssi found net.ssid⟩

theorem addCandidate_inRange {secrets : SecretStore} {found : List Seen} {cs : List Candidate}
    {net : Network} (seen : inRange found net = true) (room : cs.length < 8) :
    addCandidate secrets found cs net = cs ++ [candidateOf secrets found net] := by
  rw [inRange, Bool.and_eq_true, decide_eq_true_iff, decide_eq_true_iff] at seen
  have named : ¬(net.ssid.length = 0 ∨ 8 ≤ cs.length) := by
    rw [List.length_eq_zero_iff]
    exact not_or.mpr ⟨seen.1, not_le.mpr room⟩
  -- A match equals a scanned SSID, so the copy is whole.
  have whole : net.ssid.length ≤ 32 := by
    rcases (bestRssi_spec found net.ssid).2 with none | ⟨s, _, same, _⟩
    · exact absurd none seen.2
    · exact same ▸ s.short
  simp only [addCandidate, if_neg named, if_neg seen.2, candidateOf, List.take_of_length_le whole]

theorem addCandidate_foldl (secrets : SecretStore) (found : List Seen) (networks : List Network)
    (cs : List Candidate) (room : cs.length ≤ 8) :
    networks.foldl (addCandidate secrets found) cs =
      cs ++ ((networks.filter (inRange found)).take (8 - cs.length)).map
        (candidateOf secrets found) := by
  induction networks generalizing cs with
  | nil => simp
  | cons net rest ih =>
      rw [List.foldl_cons]
      by_cases full : 8 ≤ cs.length
      · have same : addCandidate secrets found cs net = cs := by simp [addCandidate, full]
        rw [same, ih cs room, Nat.sub_eq_zero_of_le full, List.take_zero, List.take_zero]
      · rw [not_le] at full
        cases seen : inRange found net with
        | true =>
            rw [addCandidate_inRange seen full, ih _ (by simp; omega), List.filter_cons_of_pos seen]
            have next : 8 - cs.length = 8 - (cs.length + 1) + 1 := by omega
            rw [next, List.take_succ_cons]
            simp
        | false =>
            have same : addCandidate secrets found cs net = cs := by
              simp only [inRange, Bool.and_eq_false_iff, decide_eq_false_iff_not, not_not] at seen
              rcases seen with unnamed | unseen
              · simp [addCandidate, unnamed]
              · simp [addCandidate, unseen]
            rw [same, ih cs room, List.filter_cons_of_neg (by simp [seen])]

theorem candidates_picked (env : WifiEnv) :
    env.candidates = ((env.networks.filter (inRange env.found)).take 8).map
      (candidateOf env.secrets env.found) :=
  addCandidate_foldl env.secrets env.found env.networks [] (by simp)

/-- The first eight of the configured networks that the scan saw, each at its strongest signal, are
tried in the order of their signals. -/
theorem wifi_scan_ranks (env : WifiEnv) :
    env.candidates = ((env.networks.filter (inRange env.found)).take 8).map
        (candidateOf env.secrets env.found) ∧
      (ranked env.candidates).Perm env.candidates ∧
      (ranked env.candidates).Pairwise (fun a b => b.rssi ≤ a.rssi) ∧
      ∀ c ∈ env.candidates,
        (∀ s ∈ env.found, s.ssid = c.ssid → s.rssi ≤ c.rssi) ∧
        ∃ s ∈ env.found, s.ssid = c.ssid ∧ s.rssi = c.rssi := by
  refine ⟨candidates_picked env, ExchangeSort.sort_perm _, ExchangeSort.sort_pairwise _, ?_⟩
  intro c mem
  rw [candidates_picked] at mem
  obtain ⟨net, taken, rfl⟩ := List.mem_map.mp mem
  have seen := (List.mem_filter.mp (List.mem_of_mem_take taken)).2
  simp only [inRange, Bool.and_eq_true, decide_eq_true_iff] at seen
  have best := bestRssi_spec env.found net.ssid
  exact ⟨best.1, best.2.resolve_left seen.2⟩

/-- The attempts go through the ranking once for each retry and stop at the first link that comes
up, and together they take no more fed steps than the budget has room for. -/
theorem wifi_connect_attempts (env : WifiEnv) :
    let order := (List.replicate (wifiRetries env.retries) (ranked env.candidates)).flatten
    Tries env.links env.timeoutPerSsidS 0 order env.attempts ∧
      250 * (env.attempts.map Attempt.steps).sum ≤
        wifiConnectBudgetMs env.retries env.candidates.length env.timeoutPerSsidS := by
  intro order
  have tries : Tries env.links env.timeoutPerSsidS 0 order env.attempts :=
    tryPasses_tries _ _ _ _ _
  refine ⟨tries, ?_⟩
  have atMost : env.candidates.length ≤ 8 := by
    rw [candidates_picked, List.length_map, List.length_take]
    exact Nat.min_le_left _ _
  have budget : wifiConnectBudgetMs env.retries env.candidates.length env.timeoutPerSsidS =
      order.length * wifiSsidTimeoutMs env.timeoutPerSsidS := by
    have length : order.length = wifiRetries env.retries * env.candidates.length := by
      simp [order, ranked, (ExchangeSort.sort_perm env.candidates).length_eq]
    rw [length]
    unfold wifiConnectBudgetMs
    grind
  exact budget ▸ tries.steps_le

/-! ## Runs of the manager -/

theorem apMayStart_spec {pass : Str} (may : apMayStart pass = true) :
    8 ≤ pass.length ∧ pass ≠ "changeme".toList := by
  unfold apMayStart apPasswordUsable at may
  split_ifs at may with _ placeholder
  exact ⟨of_decide_eq_true may, placeholder⟩

theorem apSsidFor_some {cap : Nat} {deviceId name ssid : Str}
    (fits : apSsidFor cap deviceId name = some ssid) :
    ssid.length < cap ∧ ∃ base, base ≠ [] ∧ ssid = base ++ "-setup".toList := by
  simp only [apSsidFor] at fits
  generalize (if deviceId ≠ [] then deviceId else name) = base at fits
  split_ifs at fits with empty long
  obtain rfl : base ++ "-setup".toList = ssid := Option.some.inj fits
  refine ⟨?_, base, empty, rfl⟩
  have six : "-setup".toList.length = 6 := rfl
  rw [List.length_append, six]
  omega

namespace WiFiManager

structure Guarded (s : WiFiManager) : Prop where
  active : s.apActive = s.radio.isSome
  keyed : ∀ ap, s.radio = some ap → 8 ≤ ap.2.length ∧ ap.2 ≠ "changeme".toList
  named : ∀ ap, s.radio = some ap →
    ap.1.length < 32 ∧ ∃ base, base ≠ [] ∧ ap.1 = base ++ "-setup".toList
  alone : s.radio.isSome = true → s.status ≠ .connected

/-- Nothing is on the air. -/
def Quiet (s : WiFiManager) : Prop := s.apActive = false ∧ s.radio = none

theorem Quiet.guarded {s : WiFiManager} (quiet : s.Quiet) : s.Guarded where
  active := by rw [quiet.1, quiet.2]; rfl
  keyed ap on := by simp [quiet.2] at on
  named ap on := by simp [quiet.2] at on
  alone on := by simp [quiet.2] at on

theorem startFallbackAP_guarded {s : WiFiManager} (quiet : s.Quiet)
    (offline : s.status ≠ .connected) (env : ApEnv) :
    (s.startFallbackAP env).Guarded ∧ (s.startFallbackAP env).status = s.status := by
  simp only [startFallbackAP, quiet.1, Bool.false_eq_true, if_false]
  split_ifs with refused
  · exact ⟨Quiet.guarded ⟨rfl, quiet.2⟩, rfl⟩
  · split
    · exact ⟨Quiet.guarded ⟨rfl, quiet.2⟩, rfl⟩
    next apSSID fits =>
      have may := apMayStart_spec (by simpa using refused)
      refine ⟨⟨rfl, ?_, ?_, fun _ => offline⟩, rfl⟩
      · rintro _ ⟨⟩
        exact may
      · rintro _ ⟨⟩
        exact apSsidFor_some fits

theorem scanAndConnect_guarded {s : WiFiManager} (quiet : s.Quiet) (env : WifiEnv) :
    (s.scanAndConnect env).Guarded := by
  have scanning : Quiet { s with status := .scanning } := quiet
  simp only [scanAndConnect]
  split_ifs
  · exact (startFallbackAP_guarded scanning nofun env.ap).1
  · have ⟨guarded, _⟩ := startFallbackAP_guarded scanning nofun env.ap
    exact ⟨guarded.active, guarded.keyed, guarded.named, fun _ => nofun⟩
  · exact Quiet.guarded ⟨rfl, quiet.2⟩
  · have failed : Quiet { s with status := .allFailed } := quiet
    exact (startFallbackAP_guarded failed nofun env.ap).1

theorem stopFallbackAP_quiet {s : WiFiManager} (guarded : s.Guarded) : s.stopFallbackAP.Quiet := by
  unfold stopFallbackAP
  split
  next off =>
    have off : s.apActive = false := by simpa using off
    refine ⟨off, ?_⟩
    simpa [off] using guarded.active
  next => exact ⟨rfl, rfl⟩

theorem loop_guarded {s : WiFiManager} (guarded : s.Guarded) (env : WifiEnv) :
    (s.loop env).Guarded := by
  unfold loop
  split_ifs with active
  · exact scanAndConnect_guarded (stopFallbackAP_quiet guarded) env
  · exact guarded
  · exact guarded
  · have off : s.apActive = false := by simpa using active
    refine scanAndConnect_guarded ⟨off, ?_⟩ env
    simpa [off] using guarded.active
  · exact guarded

theorem run_guarded {s : WiFiManager} (guarded : s.Guarded) (envs : List WifiEnv) :
    (run loop s envs).Guarded := by
  induction envs generalizing s with
  | nil => exact guarded
  | cons env envs ih => exact ih (loop_guarded guarded env)

/-- Nothing ends the wait of a manager that gave up without an access point. -/
theorem run_stuck {s : WiFiManager} (quiet : s.Quiet) (failed : s.status = .allFailed)
    (envs : List WifiEnv) : run loop s envs = s := by
  induction envs with
  | nil => rfl
  | cons env envs ih =>
      have same : s.loop env = s := by simp [loop, quiet.1, failed]
      rw [run_cons, same, ih]

end WiFiManager

open WiFiManager

/-- Whatever the configuration, the secrets and the radio do, an access point on the air has a
passphrase of its own and a whole name, and no station link beside it. Once every SSID has failed
and no access point could start, the manager does nothing more. -/
theorem wifi_ap_runs (first : WifiEnv) (envs : List WifiEnv) :
    let s := run loop (begin first) envs
    s.apActive = s.radio.isSome ∧
      (∀ ssid pass, s.radio = some (ssid, pass) →
        8 ≤ pass.length ∧ pass ≠ "changeme".toList ∧ ssid.length < 32 ∧
          (∃ base, base ≠ [] ∧ ssid = base ++ "-setup".toList) ∧ s.status ≠ .connected) ∧
      (s.status = .allFailed → s.radio = none → ∀ more, run loop s more = s) := by
  intro s
  have guarded : s.Guarded := run_guarded (scanAndConnect_guarded ⟨rfl, rfl⟩ first) envs
  refine ⟨guarded.active, fun ssid pass on => ?_, fun failed off more => ?_⟩
  · obtain ⟨long, own⟩ := guarded.keyed _ on
    obtain ⟨whole, named⟩ := guarded.named _ on
    exact ⟨long, own, whole, named, guarded.alone (by simp [on])⟩
  · refine run_stuck ⟨?_, off⟩ failed more
    rw [guarded.active, off]
    rfl

end Thesada.Wifi
