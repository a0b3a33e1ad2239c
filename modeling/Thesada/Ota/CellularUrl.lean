import Mathlib.Algebra.Group.Nat.Defs
import Mathlib.Data.List.TakeWhile
import Thesada.Net.HttpUrl

/-!
# The two URL splits of an update over cellular

The manifest is fetched with `otaHttpGetCellular`, which cuts its URL by hand, and the binary with
`downloadBinaryChunkedCellular`, which calls `httpUrlSplit`. Both have 128 bytes for the host.
-/

namespace Thesada.Ota

open CString Thesada.Net

/-- `char host[128]`. -/
def CELLULAR_HOST_CAP : Nat := 128

/-- What a client connects to: the host, the port and the path. -/
abbrev Endpoint := Str × Nat × Str

/-- The host and the port of a text before the path; `atoi` is cut to a `uint16_t`. -/
def cellularHostPort (host : Str) (port : Nat) : Str × Nat :=
  (host.idxOf? ':').elim (host, port) fun colon =>
    (host.take colon, ((strtol (host.drop (colon + 1))).1 % 65536).toNat)

/-- The cut of `otaHttpGetCellular`. A text without a scheme is cut from its start. -/
def otaHttpGetCellular (url : Str) : Option Endpoint :=
  let (p, port) := ((httpScheme url).map fun s => (s.1, s.2.1)).getD (url, 443)
  let slash := p.idxOf? '/'
  let hostEnd := slash.getD p.length
  if hostEnd = 0 ∨ hostEnd ≥ CELLULAR_HOST_CAP then none
  else
    let (host, port) := cellularHostPort (p.take hostEnd) port
    some (host, port, if slash.isSome then p.drop hostEnd else ['/'])

/-- The split before the chunks of `downloadBinaryChunkedCellular`. -/
def chunksEndpoint (url : Str) : Option Endpoint :=
  (httpUrlSplit url CELLULAR_HOST_CAP).map fun t => (t.host, t.port, t.path)

/-! ## Where the two agree -/

/-- The text before the first `c`. -/
def upTo (c : Char) (s : Str) : Str := s.takeWhile (· ≠ c)

/-- A number from 1 to 65535, as `strtol` reads it. -/
def PortText (text : Str) : Prop :=
  (strtol text).2 = [] ∧ 1 ≤ (strtol text).1 ∧ (strtol text).1 ≤ 65535

instance (text : Str) : Decidable (PortText text) :=
  inferInstanceAs (Decidable (_ = _ ∧ _ ≤ _ ∧ _ ≤ _))

/-- A host, with a port behind its first colon where it has one. -/
def GoodHost (host : Str) : Prop :=
  upTo ':' host ≠ [] ∧ (':' ∈ host → PortText (host.drop ((upTo ':' host).length + 1)))

/-- A text that does not fit the buffer of a host, or is none. -/
def Unfit (host : Str) : Prop := host = [] ∨ CELLULAR_HOST_CAP ≤ host.length

/-- Without a scheme, both refuse the URL only for its first segment. With one, and no query
before the path, the text before the path is unfit or a good host; a query there is refused by
both or not at all. -/
def SameEndpoint (url : Str) : Prop :=
  match httpScheme url with
  | none => Unfit (upTo '/' url)
  | some (p, _, _) =>
      let host := upTo '/' p
      if '?' ∈ host then
        Unfit host ∧ (Unfit (upTo '?' host) ∨ ¬GoodHost (upTo '?' host))
      else Unfit host ∨ GoodHost host

/-! ## Cuts -/

theorem idxOf?_eq (c : Char) (s : Str) :
    s.idxOf? c = if c ∈ s then some (upTo c s).length else none := by
  induction s with
  | nil => rfl
  | cons d s ih =>
      rw [List.idxOf?_cons, ih]
      by_cases same : d = c
      · simp [same, upTo]
      · by_cases later : c ∈ s
        · simp [same, upTo, later]
        · simp [same, later, Ne.symm same]

theorem take_upTo (c : Char) (s : Str) : s.take (upTo c s).length = upTo c s := by
  have parts : s = upTo c s ++ s.dropWhile (· ≠ c) := List.takeWhile_append_dropWhile.symm
  conv => lhs; arg 2; rw [parts]
  exact List.take_left

theorem upTo_of_not_mem {c : Char} {s : Str} (absent : c ∉ s) : upTo c s = s := by
  apply List.takeWhile_eq_self_iff.mpr
  intro d mem
  rw [decide_eq_true_eq]
  rintro rfl
  exact absent mem

theorem head_drop_upTo {c : Char} {s : Str} (mem : c ∈ s) :
    (s.drop (upTo c s).length).head? = some c := by
  induction s with
  | nil => cases mem
  | cons d s ih =>
      by_cases same : d = c
      · simp [upTo, same]
      · have later : c ∈ s := (List.mem_cons.mp mem).resolve_left (Ne.symm same)
        simpa [upTo, same] using ih later

/-- The end of the host by hand: the first slash, or the end of the text. -/
theorem hostEnd_eq (p : Str) : (p.idxOf? '/').getD p.length = (upTo '/' p).length := by
  rw [idxOf?_eq]
  split
  · rfl
  · next absent => rw [upTo_of_not_mem absent, Option.getD_none]

/-- The host and the port of the split, when it takes them. -/
def splitHostPort (host : Str) (port : Nat) : Option (Str × Nat) :=
  (httpPort host port).filter fun t => t.1 ≠ []

theorem splitHostPort_of_not_mem {host : Str} (port : Nat) (noColon : ':' ∉ host) :
    splitHostPort host port = if host = [] then none else some (host, port) := by
  have whole : httpPort host port = some (host, port) := by
    rw [httpPort, idxOf?_eq, if_neg noColon]
  rw [splitHostPort, whole]
  by_cases empty : host = []
  · simp [empty]
  · simp [empty]

theorem splitHostPort_of_mem {host : Str} (port : Nat) (colon : ':' ∈ host) :
    splitHostPort host port =
      if upTo ':' host ≠ [] ∧ PortText (host.drop ((upTo ':' host).length + 1)) then
        some (upTo ':' host, (strtol (host.drop ((upTo ':' host).length + 1))).1.toNat)
      else none := by
  obtain ⟨text, isText⟩ : ∃ t, host.drop ((upTo ':' host).length + 1) = t := ⟨_, rfl⟩
  have parsed : httpPort host port =
      if PortText text then some (upTo ':' host, (strtol text).1.toNat) else none := by
    rw [httpPort, idxOf?_eq, if_pos colon]
    simp only [isText, take_upTo]
    by_cases good : PortText text
    · have stopped : (strtol text).2.length ≠ text.length := by
        -- an empty text spells no number
        intro same
        have empty : text = [] := by
          rw [good.1] at same
          exact List.eq_nil_of_length_eq_zero same.symm
        have one := good.2.1
        rw [empty] at one
        exact absurd one (by decide)
      rw [if_pos good, if_neg]
      rintro (same | more | low | high)
      · exact stopped same
      · exact more good.1
      · exact absurd good.2.1 (by omega)
      · exact absurd good.2.2 (by omega)
    · rw [if_neg good, if_pos]
      by_contra taken
      simp only [not_or, Classical.not_not] at taken
      exact good ⟨taken.2.1, Int.not_lt.mp taken.2.2.1, Int.not_lt.mp taken.2.2.2⟩
  rw [splitHostPort, parsed, isText]
  by_cases good : PortText text
  · by_cases empty : upTo ':' host = []
    · simp [good, empty]
    · simp [good, empty]
  · simp [good]

/-- A good host gives both the same host and port. -/
theorem splitHostPort_good {host : Str} {port : Nat} (good : GoodHost host) :
    splitHostPort host port = some (cellularHostPort host port) := by
  by_cases colon : ':' ∈ host
  · have number := good.2 colon
    rw [splitHostPort_of_mem port colon, if_pos ⟨good.1, number⟩, cellularHostPort, idxOf?_eq,
      if_pos colon, Option.elim_some]
    simp only [take_upTo, Option.some.injEq, Prod.mk.injEq, true_and]
    have low := number.2.1
    have high := number.2.2
    rw [Int.emod_eq_of_lt (by omega) (by omega)]
  · have nonempty : host ≠ [] := by
      rw [← upTo_of_not_mem colon]
      exact good.1
    rw [splitHostPort_of_not_mem port colon, if_neg nonempty, cellularHostPort, idxOf?_eq,
      if_neg colon, Option.elim_none]

/-- The split refuses every other host. -/
theorem splitHostPort_bad {host : Str} {port : Nat} (bad : ¬GoodHost host) :
    splitHostPort host port = none := by
  by_cases colon : ':' ∈ host
  · rw [splitHostPort_of_mem port colon, if_neg]
    exact fun both => bad ⟨both.1, fun _ => both.2⟩
  · rw [splitHostPort_of_not_mem port colon, if_pos]
    by_contra nonempty
    refine bad ⟨?_, fun mem => absurd mem colon⟩
    rwa [upTo_of_not_mem colon]

theorem splitHostPort_eq_none {host : Str} {port : Nat} :
    splitHostPort host port = none ↔ ¬GoodHost host := by
  constructor
  · intro none good
    rw [splitHostPort_good good] at none
    cases none
  · exact splitHostPort_bad

/-! ## The two cuts of the text behind the scheme -/

/-- What is left of a cut at `cut`: the host with its port, and the path. -/
def endpointAt (ported : Str → Option (Str × Nat)) (p : Str) (cut : Nat) (path : Str) :
    Option Endpoint :=
  if cut = 0 ∨ cut ≥ CELLULAR_HOST_CAP then none
  else (ported (p.take cut)).map fun t => (t.1, t.2, path)

theorem take_end {p host : Str} {cut : Nat} (isHost : p.take cut = host) (inside : cut ≤ p.length) :
    (cut = 0 ∨ cut ≥ CELLULAR_HOST_CAP) ↔ Unfit host := by
  have size : host.length = cut := by rw [← isHost, List.length_take, Nat.min_eq_left inside]
  rw [Unfit, ← List.length_eq_zero_iff, size]

theorem upTo_length_le (c : Char) (s : Str) : (upTo c s).length ≤ s.length :=
  (List.takeWhile_prefix _).length_le

/-- The cut by hand goes to the first slash. -/
theorem otaHttpGetCellular_eq {url p : Str} {port : Nat} {https : Bool}
    (scheme : httpScheme url = some (p, port, https)) :
    otaHttpGetCellular url =
      endpointAt (fun host => some (cellularHostPort host port)) p (upTo '/' p).length
        (if '/' ∈ p then p.drop (upTo '/' p).length else ['/']) := by
  simp only [otaHttpGetCellular, scheme, Option.map_some, Option.getD_some, hostEnd_eq, endpointAt]
  have slash : (p.idxOf? '/').isSome = true ↔ '/' ∈ p := by
    rw [idxOf?_eq]
    split
    · next mem => simp [mem]
    · next mem => simp [mem]
  simp only [slash]

/-- The split with the host's end and the path it finds. -/
theorem chunksEndpoint_eq {url p : Str} {port : Nat} {https : Bool} {slash query : Option Nat}
    (scheme : httpScheme url = some (p, port, https)) (isQuery : p.idxOf? '?' = query)
    (isSlash : ((p.idxOf? '/').filter fun s => query.all fun q => s < q) = slash) :
    chunksEndpoint url =
      endpointAt (splitHostPort · port) p ((slash.or query).getD p.length)
        (if slash.isSome ∨ query.isSome then p.drop ((slash.or query).getD p.length)
          else ['/']) := by
  rw [chunksEndpoint, httpUrlSplit, if_neg (by decide), scheme]
  simp only [isQuery, isSlash, endpointAt, splitHostPort]
  split
  · rfl
  · cases found : httpPort (p.take ((slash.or query).getD p.length)) port with
    | none => rfl
    | some t =>
        by_cases empty : t.1 = []
        · simp [empty, Option.filter]
        · simp [empty, Option.filter]

theorem endpointAt_unfit {ported : Str → Option (Str × Nat)} {p host path : Str} {cut : Nat}
    (isHost : p.take cut = host) (inside : cut ≤ p.length) (unfit : Unfit host) :
    endpointAt ported p cut path = none :=
  if_pos ((take_end isHost inside).mpr unfit)

theorem endpointAt_fit {ported : Str → Option (Str × Nat)} {p host path : Str} {cut : Nat}
    (isHost : p.take cut = host) (inside : cut ≤ p.length) (fit : ¬Unfit host) :
    endpointAt ported p cut path = (ported host).map fun t => (t.1, t.2, path) := by
  rw [endpointAt, if_neg fun outside => fit ((take_end isHost inside).mp outside), isHost]

theorem endpointAt_eq_none {ported : Str → Option (Str × Nat)} {p host path : Str} {cut : Nat}
    (isHost : p.take cut = host) (inside : cut ≤ p.length) :
    endpointAt ported p cut path = none ↔ Unfit host ∨ ported host = none := by
  by_cases unfit : Unfit host
  · exact iff_of_true (endpointAt_unfit isHost inside unfit) (.inl unfit)
  · rw [endpointAt_fit isHost inside unfit, Option.map_eq_none_iff, or_iff_right unfit]

theorem endpointAt_path {ported : Str → Option (Str × Nat)} {p path : Str} {cut : Nat}
    {e : Endpoint} (taken : endpointAt ported p cut path = some e) : e.2.2 = path := by
  rw [endpointAt] at taken
  split at taken
  · cases taken
  · obtain ⟨t, -, isEndpoint⟩ := Option.map_eq_some_iff.mp taken
    rw [← isEndpoint]

/-- A text cut at the first `c` of a shorter cut is cut at its own first `c`. -/
theorem upTo_upTo {c d : Char} {s : Str} (mem : c ∈ upTo d s) :
    upTo c s = upTo c (upTo d s) := by
  induction s with
  | nil => rfl
  | cons e s ih =>
      by_cases stop : e = d
      · simp [upTo, stop] at mem
      · have step : upTo d (e :: s) = e :: upTo d s := by simp [upTo, stop]
        rw [step] at mem ⊢
        by_cases here : e = c
        · simp [upTo, here]
        · have later : c ∈ upTo d s := (List.mem_cons.mp mem).resolve_left (Ne.symm here)
          have rest := ih later
          simp only [upTo] at rest ⊢
          rw [List.takeWhile_cons_of_pos (by simpa using here),
            List.takeWhile_cons_of_pos (by simpa using here), rest]

/-- The first `d` stands before the first `c` when no `c` stands before it. -/
theorem upTo_lt {c d : Char} {s : Str} (differ : d ≠ c) (mem : d ∈ s) (absent : c ∉ upTo d s) :
    (upTo d s).length < (upTo c s).length := by
  induction s with
  | nil => cases mem
  | cons e s ih =>
      by_cases stop : e = d
      · simp [upTo, stop, differ]
      · have step : upTo d (e :: s) = e :: upTo d s := by simp [upTo, stop]
        rw [step] at absent ⊢
        simp only [List.mem_cons, not_or] at absent
        have next : upTo c (e :: s) = e :: upTo c s := by simp [upTo, Ne.symm absent.1]
        rw [next]
        have later : d ∈ s := (List.mem_cons.mp mem).resolve_left (Ne.symm stop)
        exact Nat.succ_lt_succ (ih later absent.2)

/-! ## The three kinds of URL -/

section Scheme

variable {url p : Str} {port : Nat} {https : Bool}

/-- Without a query before the path both cut at the same place. -/
theorem chunksEndpoint_plain (scheme : httpScheme url = some (p, port, https))
    (plain : '?' ∉ upTo '/' p) :
    chunksEndpoint url =
      endpointAt (splitHostPort · port) p (upTo '/' p).length
        (if '/' ∈ p then p.drop (upTo '/' p).length else ['/']) := by
  by_cases slash : '/' ∈ p
  · have first : ((p.idxOf? '/').filter fun s => (p.idxOf? '?').all fun q => s < q) =
        some (upTo '/' p).length := by
      rw [idxOf?_eq '/', if_pos slash]
      apply Option.filter_eq_some_iff.mpr
      refine ⟨rfl, ?_⟩
      rw [idxOf?_eq]
      split
      · simpa using upTo_lt (by decide) slash plain
      · rfl
    rw [chunksEndpoint_eq scheme rfl first, if_pos slash]
    rfl
  · have whole : upTo '/' p = p := upTo_of_not_mem slash
    rw [whole] at plain ⊢
    have noQuery : p.idxOf? '?' = none := by rw [idxOf?_eq, if_neg plain]
    have noSlash : ((p.idxOf? '/').filter fun s => (none : Option Nat).all fun q => s < q) =
        none := by
      rw [idxOf?_eq, if_neg slash]
      rfl
    rw [chunksEndpoint_eq scheme noQuery noSlash, if_neg slash]
    rfl

/-- With one the split cuts at the query. -/
theorem chunksEndpoint_query (scheme : httpScheme url = some (p, port, https))
    (query : '?' ∈ upTo '/' p) :
    chunksEndpoint url =
      endpointAt (splitHostPort · port) p (upTo '?' p).length (p.drop (upTo '?' p).length) := by
  have mem : '?' ∈ p := (List.takeWhile_prefix _).subset query
  have found : p.idxOf? '?' = some (upTo '?' p).length := by rw [idxOf?_eq, if_pos mem]
  have noSlash : ((p.idxOf? '/').filter fun s =>
      (some (upTo '?' p).length).all fun q => s < q) = none := by
    rw [idxOf?_eq]
    split
    · next slash =>
        have shorter : (upTo '?' p).length ≤ (upTo '/' p).length := by
          rw [upTo_upTo query]
          exact upTo_length_le _ _
        simpa [Option.filter] using shorter
    · rfl
  rw [chunksEndpoint_eq scheme found noSlash]
  rfl

/-! ## Where they agree -/

theorem same_of_no_scheme (scheme : httpScheme url = none) :
    otaHttpGetCellular url = chunksEndpoint url ↔ Unfit (upTo '/' url) := by
  have split : chunksEndpoint url = none := by
    rw [chunksEndpoint, httpUrlSplit, if_neg (by decide), scheme]
    rfl
  rw [split, ← take_end (take_upTo '/' url) (upTo_length_le _ _)]
  simp only [otaHttpGetCellular, scheme, Option.map_none, Option.getD_none, hostEnd_eq]
  split
  · next outside => exact ⟨fun _ => outside, fun _ => rfl⟩
  · next inside => exact ⟨fun taken => by simp at taken, fun outside => absurd outside inside⟩

theorem same_of_plain (scheme : httpScheme url = some (p, port, https))
    (plain : '?' ∉ upTo '/' p) :
    otaHttpGetCellular url = chunksEndpoint url ↔
      Unfit (upTo '/' p) ∨ GoodHost (upTo '/' p) := by
  have inside := upTo_length_le '/' p
  rw [otaHttpGetCellular_eq scheme, chunksEndpoint_plain scheme plain]
  by_cases unfit : Unfit (upTo '/' p)
  · simp [endpointAt_unfit (take_upTo _ _) inside unfit, unfit]
  · simp only [endpointAt_fit (take_upTo _ _) inside unfit]
    by_cases good : GoodHost (upTo '/' p)
    · simp [splitHostPort_good good, good]
    · simp [splitHostPort_bad good, unfit, good]

/-- A query before the path: one path starts with the slash, the other with the query. -/
theorem same_of_query (scheme : httpScheme url = some (p, port, https))
    (query : '?' ∈ upTo '/' p) :
    otaHttpGetCellular url = chunksEndpoint url ↔
      Unfit (upTo '/' p) ∧ (Unfit (upTo '?' p) ∨ ¬GoodHost (upTo '?' p)) := by
  have hand : otaHttpGetCellular url = none ↔ Unfit (upTo '/' p) := by
    rw [otaHttpGetCellular_eq scheme, endpointAt_eq_none (take_upTo _ _) (upTo_length_le _ _)]
    simp
  have split : chunksEndpoint url = none ↔ Unfit (upTo '?' p) ∨ ¬GoodHost (upTo '?' p) := by
    rw [chunksEndpoint_query scheme query,
      endpointAt_eq_none (take_upTo _ _) (upTo_length_le _ _), splitHostPort_eq_none]
  rw [← hand, ← split]
  constructor
  · intro same
    cases taken : otaHttpGetCellular url with
    | none => exact ⟨rfl, same.symm.trans taken⟩
    | some e =>
        rw [taken] at same
        rw [otaHttpGetCellular_eq scheme] at taken
        rw [chunksEndpoint_query scheme query] at same
        have paths := congrArg List.head?
          ((endpointAt_path taken).symm.trans (endpointAt_path same.symm))
        rw [head_drop_upTo ((List.takeWhile_prefix _).subset query)] at paths
        split at paths
        · next slash =>
            rw [head_drop_upTo slash] at paths
            exact absurd paths (by decide)
        · simp at paths
  · rintro ⟨noHand, noSplit⟩
    rw [noHand, noSplit]

end Scheme

/-- The manifest fetch and the binary fetch of one URL reach the same endpoint, or are both
refused, for the URLs of `SameEndpoint` and no other. -/
theorem cellular_endpoint_iff (url : Str) :
    otaHttpGetCellular url = chunksEndpoint url ↔ SameEndpoint url := by
  cases scheme : httpScheme url with
  | none =>
      rw [SameEndpoint, scheme]
      exact same_of_no_scheme scheme
  | some found =>
      obtain ⟨p, port, https⟩ := found
      rw [SameEndpoint, scheme]
      dsimp only
      by_cases query : '?' ∈ upTo '/' p
      · rw [if_pos query, ← upTo_upTo query]
        exact same_of_query scheme query
      · rw [if_neg query]
        exact same_of_plain scheme query

/-- By hand a query without a path is part of the host, user information is cut to a host with
port 0, and a URL without a scheme is cut at its start. -/
theorem cellular_endpoint_differs :
    otaHttpGetCellular "https://h?k=v".toList = some ("h?k=v".toList, 443, ['/']) ∧
      chunksEndpoint "https://h?k=v".toList =
        some (['h'], 443, "?k=v".toList) ∧
      otaHttpGetCellular "https://u:pw@h/m".toList = some (['u'], 0, "/m".toList) ∧
      chunksEndpoint "https://u:pw@h/m".toList = none ∧
      otaHttpGetCellular "h/m".toList = some (['h'], 443, "/m".toList) ∧
      chunksEndpoint "h/m".toList = none := by
  decide

end Thesada.Ota
