import Thesada.Cellular.HttpsHead
import Thesada.Library.Machine
import Thesada.Library.Word32

/-!
# A GET over the modem

`httpsGet` reads a reply in a loop whose every turn tests a deadline and a budget. Before the
empty line a turn reads all bytes that are there, behind it one block for the callback. A length
that is reached, or fifteen seconds without a byte, end the loop.

The clock, the bytes that are there and the connected flag are part of a turn. The loop tells
neither the time nor the end of the head by itself: its deadline has 32 bits, and before the empty
line it takes the flag at its word.
-/

namespace Thesada.Cellular

open CString Machine

def GET_CAP_MS : Nat := 300000
def kBodyIdleTimeoutMs : Nat := 15000
def GET_CHUNK : Nat := 1024

/-- A call, and the milliseconds since the boot before its connect and before its loop. -/
structure GetCall where
  tStart : Nat
  begins : Nat
  budgetMs : Nat
  budget_lt : budgetMs < Word32.size

/-- One turn of the loop. -/
structure GetTurn where
  /-- The clock at the test of the loop, at the test of the budget, and behind the bytes. -/
  now : Nat
  spent : Nat
  later : Nat
  connected : Bool
  /-- How many bytes are there. -/
  ready : Nat
  /-- What `writeCallback` returns. -/
  accepts : Bool

inductive GetExit where
  | ended (ok : Bool)
  | aborted
  | cut
  deriving DecidableEq

structure GetLoop where
  head : Head
  bodyBytes : Nat
  lastByte : Nat
  /-- What `writeCallback` was called with. -/
  handed : Str
  /-- What `TlsClient` has yet to deliver. -/
  coming : Str
  exit : Option GetExit

/-! ## `httpsGet` -/

def httpReadBudgetSpent (elapsedMs budgetMs : Nat) : Bool := budgetMs ≠ 0 && budgetMs ≤ elapsedMs

/-- The test of the loop, in 32 bits. -/
def GetCall.waits (g : GetCall) (now : Nat) : Bool :=
  now % Word32.size < Word32.add (g.begins % Word32.size) GET_CAP_MS

def GetCall.spent (g : GetCall) (now : Nat) : Bool :=
  httpReadBudgetSpent (Word32.sub (now % Word32.size) (g.tStart % Word32.size)) g.budgetMs

namespace GetLoop

def start (g : GetCall) (r : Reply) : GetLoop := ⟨Head.start, 0, g.begins, [], r.text, none⟩

/-- What follows the loop. -/
def finish (s : GetLoop) : GetLoop :=
  { s with
    exit := some (.ended (s.head.status ≠ 0 &&
      !(0 < s.head.contentLen && (s.bodyBytes : Int) < s.head.contentLen))) }

def headTurn (s : GetLoop) (t : GetTurn) : GetLoop :=
  if s.coming.take t.ready = [] then if t.connected then s else s.finish
  else
    { s with
      head := (readHead s.head (s.coming.take t.ready)).1
      coming := (readHead s.head (s.coming.take t.ready)).2 ++ s.coming.drop t.ready
      lastByte :=
        if (readHead s.head (s.coming.take t.ready)).1.phase = .body then t.later
        else s.lastByte }

def idle (s : GetLoop) (t : GetTurn) : Bool :=
  kBodyIdleTimeoutMs < Word32.sub (t.later % Word32.size) (s.lastByte % Word32.size)

def bodyTurn (s : GetLoop) (t : GetTurn) : GetLoop :=
  if 0 < s.head.contentLen ∧ s.head.contentLen ≤ s.bodyBytes then s.finish
  else if s.coming.take (min t.ready GET_CHUNK) = [] then if s.idle t then s.finish else s
  else
    { s with
      bodyBytes := Word32.add s.bodyBytes (s.coming.take (min t.ready GET_CHUNK)).length
      lastByte := t.later
      handed := s.handed ++ s.coming.take (min t.ready GET_CHUNK)
      coming := s.coming.drop (min t.ready GET_CHUNK)
      exit := if t.accepts then none else some .aborted }

end GetLoop

def httpsGet (g : GetCall) (s : GetLoop) (t : GetTurn) : GetLoop :=
  if !g.waits t.now then s.finish
  else if g.spent t.spent then { s with exit := some .cut }
  else if s.head.phase = .body then s.bodyTurn t
  else s.headTurn t

/-- The loop until it returns. -/
def getStep (g : GetCall) (s : GetLoop) (t : GetTurn) : GetLoop :=
  if s.exit = none then httpsGet g s t else s

/-! ## What a call is for -/

/-- The clock runs on, and none of the limits is met. -/
structure Limits (g : GetCall) (s : GetLoop) (t : GetTurn) : Prop where
  cap : t.now < g.begins + GET_CAP_MS
  order : g.tStart ≤ t.spent
  budget : g.budgetMs ≠ 0 → t.spent < g.tStart + g.budgetMs
  stall : s.head.phase = .body → s.coming ≠ [] → t.ready = 0 →
    s.lastByte ≤ t.later ∧ t.later ≤ s.lastByte + kBodyIdleTimeoutMs

def Calm (g : GetCall) (s : GetLoop) (t : GetTurn) : Prop := s.exit = none → Limits g s t

/-- The callback had the body and nothing else, and the call returns what the reply says. -/
structure Delivered (r : Reply) (s : GetLoop) : Prop where
  handed : s.handed <+: r.body
  uncut : s.exit ≠ some .cut
  aborted : s.exit = some .aborted → s.head.status = decimal r.code
  status : ∀ ok, s.exit = some (.ended ok) → s.head.status = decimal r.code
  whole : ∀ ok, s.exit = some (.ended ok) → s.handed = r.body
  length : ∀ ok, s.exit = some (.ended ok) →
    ∀ l ∈ r.length, 0 < l.value → (ok = true ↔ r.body.length = l.value)

instance (g : GetCall) (s : GetLoop) (t : GetTurn) : Decidable (Limits g s t) :=
  decidable_of_iff (_ ∧ _ ∧ _ ∧ _)
    ⟨fun ⟨cap, order, budget, stall⟩ => ⟨cap, order, budget, stall⟩,
      fun l => ⟨l.cap, l.order, l.budget, l.stall⟩⟩

instance (g : GetCall) (s : GetLoop) (t : GetTurn) : Decidable (Calm g s t) :=
  inferInstanceAs (Decidable (_ → _))

/-- Nothing is to come, and the stall limit is over. -/
structure Quiet (s : GetLoop) (t : GetTurn) : Prop where
  nothing : s.coming = []
  long : s.lastByte + kBodyIdleTimeoutMs < t.later
  period : t.later - s.lastByte < Word32.size

/-- The buffer holds the digits of the length, and a length of more than 31 bits is not come
near. -/
def Reply.LengthFits (r : Reply) : Prop :=
  ∀ l ∈ r.length, l.read = clampLong l.value ∧
    (2147483648 ≤ l.value → r.body.length < 2147483647)

/-- While bytes are to come, the test of the loop tells the time, and before the empty line there
is a byte or the flag is up. -/
def TurnOk (g : GetCall) (s : GetLoop) (t : GetTurn) : Prop :=
  s.exit = none → s.coming ≠ [] →
    (t.now < g.begins + GET_CAP_MS → g.waits t.now = true) ∧
      (s.head.phase ≠ .body → t.ready = 0 → t.connected = true)

instance (g : GetCall) (s : GetLoop) (t : GetTurn) : Decidable (TurnOk g s t) :=
  inferInstanceAs (Decidable (_ → _ → _ ∧ _))

/-! ## Lengths -/

section

variable {g : GetCall} {r : Reply} {s : GetLoop} {t : GetTurn}

theorem atoi_le (s : Str) : atoi s ≤ 2147483647 := by
  simp only [atoi, strtol]
  split
  · exact Int.zero_le_ofNat 2147483647
  · simp only [clampLong]
    omega

theorem Reply.contentLen_le (r : Reply) : r.contentLen ≤ 2147483647 := by
  rw [Reply.contentLen]
  cases r.length with
  | none => decide
  | some l => exact atoi_le _

theorem Reply.contentLen_of_length {l : LengthLine} (mem : l ∈ r.length) :
    r.contentLen = l.read := by
  rw [Reply.contentLen, Option.mem_def.mp mem]
  rfl

/-- A body reaches its length only where it ends. -/
theorem Reply.LengthFits.body_le (fits : r.LengthFits) (some : 0 < r.contentLen) :
    (r.body.length : Int) ≤ r.contentLen := by
  cases length : r.length with
  | none =>
      rw [Reply.contentLen, length] at some
      exact absurd some (by decide)
  | some l =>
      have mem : l ∈ r.length := Option.mem_def.mpr length
      obtain ⟨read, far⟩ := fits l mem
      have short := r.body_le l mem
      rw [Reply.contentLen_of_length mem, read, clampLong]
      omega

/-- The length that was read is short of the body exactly when the one that was sent is. -/
theorem Reply.LengthFits.whole_iff (fits : r.LengthFits) {l : LengthLine} (mem : l ∈ r.length)
    (some : 0 < l.value) :
    0 < r.contentLen ∧ (¬ (r.body.length : Int) < r.contentLen ↔ r.body.length = l.value) := by
  obtain ⟨read, far⟩ := fits l mem
  have short := r.body_le l mem
  rw [Reply.contentLen_of_length mem, read, clampLong]
  omega

/-! ## The end of the loop -/

/-- What the loop holds of a reply, before its empty line and behind it. -/
structure Streams (r : Reply) (s : GetLoop) : Prop where
  reading : s.head.phase ≠ .body → s.handed = [] ∧ s.bodyBytes = 0 ∧
    readHead s.head s.coming = (⟨.body, [], decimal r.code, r.contentLen⟩, r.body)
  streaming : s.head.phase = .body → s.head = ⟨.body, [], decimal r.code, r.contentLen⟩ ∧
    s.handed ++ s.coming = r.body ∧ (0 < r.contentLen → s.bodyBytes = s.handed.length)

theorem Streams.start (g : GetCall) (r : Reply) : Streams r (GetLoop.start g r) where
  reading _ := ⟨rfl, rfl, readHead_reply r⟩
  streaming body := nomatch body

/-- Before the empty line something is to come. -/
theorem Streams.body_of_nothing (streams : Streams r s) (nothing : s.coming = []) :
    s.head.phase = .body := by
  by_contra open_
  have read := (streams.reading open_).2.2
  rw [nothing] at read
  have head := congrArg Prod.fst read
  exact open_ (congrArg Head.phase head)

theorem Streams.handed_prefix (streams : Streams r s) : s.handed <+: r.body := by
  by_cases body : s.head.phase = .body
  · exact ⟨s.coming, (streams.streaming body).2.1⟩
  · rw [(streams.reading body).1]
    exact List.nil_prefix

theorem Streams.finish_delivered (streams : Streams r s) (fits : r.LengthFits)
    (nothing : s.coming = []) : Delivered r s.finish := by
  obtain ⟨head, joined, counted⟩ := streams.streaming (streams.body_of_nothing nothing)
  have whole : s.handed = r.body := by rw [← joined, nothing, List.append_nil]
  have status : s.head.status = decimal r.code := congrArg Head.status head
  have length : s.head.contentLen = r.contentLen := congrArg Head.contentLen head
  refine ⟨streams.handed_prefix, fun cut => ?_, fun _ => status, fun _ _ => status,
    fun _ _ => whole, fun ok ended l mem some => ?_⟩
  · injection cut with cut
    cases cut
  · obtain ⟨pos, same⟩ := fits.whole_iff mem some
    have final := r.code_final
    have nonzero : s.head.status ≠ 0 := by
      rw [status]
      omega
    have bytes : s.bodyBytes = r.body.length := by rw [counted pos, whole]
    injection ended with ended
    injection ended with ended
    rw [← ended, ← same, bytes, length]
    simp [nonzero, pos]

theorem Streams.finish (streams : Streams r s) : Streams r s.finish :=
  ⟨streams.reading, streams.streaming⟩

theorem Streams.delivered (streams : Streams r s)
    (exit : s.exit = none ∨ s.exit = some .aborted ∧ s.head.phase = .body) : Delivered r s := by
  have never : ∀ e, s.exit = some e → e = .aborted ∧ s.head.phase = .body := by
    intro e some
    rcases exit with none | ⟨aborted, body⟩
    · exact absurd (none.symm.trans some) (Option.some_ne_none e).symm
    · exact ⟨Option.some.inj (some.symm.trans aborted), body⟩
  refine ⟨streams.handed_prefix, fun cut => ?_, fun aborted => ?_, fun ok ended => ?_,
    fun ok ended => ?_, fun ok ended => ?_⟩
  · exact GetExit.noConfusion (never _ cut).1
  · have head := (streams.streaming (never _ aborted).2).1
    exact congrArg Head.status head
  · exact GetExit.noConfusion (never _ ended).1
  · exact GetExit.noConfusion (never _ ended).1
  · exact GetExit.noConfusion (never _ ended).1

/-! ## A turn -/

theorem Streams.headTurn (streams : Streams r s) (running : s.exit = none)
    (open_ : s.head.phase ≠ .body) (there : t.ready = 0 → t.connected = true) :
    Streams r (s.headTurn t) ∧ (s.headTurn t).exit = none := by
  obtain ⟨handed, bytes, read⟩ := streams.reading open_
  rw [GetLoop.headTurn]
  by_cases still : s.coming.take t.ready = []
  · have some : s.coming ≠ [] := fun nothing => open_ (streams.body_of_nothing nothing)
    have empty : t.ready = 0 := (List.take_eq_nil_iff.mp still).resolve_right some
    rw [if_pos still, if_pos (there empty)]
    exact ⟨streams, running⟩
  · rw [if_neg still]
    refine ⟨?_, running⟩
    have split := readHead_append open_ (s.coming.take t.ready) (s.coming.drop t.ready)
    rw [List.take_append_drop, read] at split
    by_cases body : (readHead s.head (s.coming.take t.ready)).1.phase = .body
    · rw [if_pos body] at split
      refine ⟨fun no => absurd body no, fun _ => ⟨(congrArg Prod.fst split).symm, ?_, fun _ => ?_⟩⟩
      · dsimp only
        rw [handed, List.nil_append]
        exact (congrArg Prod.snd split).symm
      · dsimp only
        rw [handed, bytes]
        rfl
    · rw [if_neg body] at split
      refine ⟨fun _ => ⟨handed, bytes, ?_⟩, fun yes => absurd yes body⟩
      dsimp only
      rw [readHead_left body, List.nil_append]
      exact split.symm

/-- The idle test tells how long nothing came. -/
theorem GetLoop.idle_iff (order : s.lastByte ≤ t.later)
    (period : t.later - s.lastByte < Word32.size) :
    s.idle t = true ↔ s.lastByte + kBodyIdleTimeoutMs < t.later := by
  rw [GetLoop.idle, decide_eq_true_eq, Word32.sub_mod_mod order period]
  omega

/-- A block is handed on. -/
theorem Streams.block {n : Nat} (streams : Streams r s) (body : s.head.phase = .body)
    (short : 0 < r.contentLen → (s.bodyBytes : Int) < r.contentLen) (small : n ≤ GET_CHUNK)
    (later : Nat) (exit : Option GetExit) :
    Streams r
      { s with
        bodyBytes := Word32.add s.bodyBytes (s.coming.take n).length
        lastByte := later
        handed := s.handed ++ s.coming.take n
        coming := s.coming.drop n
        exit := exit } := by
  obtain ⟨head, joined, counted⟩ := streams.streaming body
  refine ⟨fun no => absurd body no, fun _ => ⟨head, ?_, fun some => ?_⟩⟩
  · dsimp only
    rw [List.append_assoc, List.take_append_drop, joined]
  · have most := r.contentLen_le
    have below := short some
    have taken := List.length_take_le n s.coming
    have room : s.bodyBytes + (s.coming.take n).length < Word32.size := by
      rw [GET_CHUNK] at small
      unfold Word32.size
      omega
    dsimp only
    rw [Word32.add_of_lt room, List.length_append, counted some]

theorem Streams.bodyTurn (streams : Streams r s) (fits : r.LengthFits) (running : s.exit = none)
    (body : s.head.phase = .body) (limits : Limits g s t) :
    Streams r (s.bodyTurn t) ∧ Delivered r (s.bodyTurn t) := by
  obtain ⟨head, joined, counted⟩ := streams.streaming body
  have length : s.head.contentLen = r.contentLen := congrArg Head.contentLen head
  have lengths := congrArg List.length joined
  rw [List.length_append] at lengths
  rw [GetLoop.bodyTurn]
  by_cases reached : 0 < s.head.contentLen ∧ s.head.contentLen ≤ s.bodyBytes
  · rw [if_pos reached]
    have most := fits.body_le (length ▸ reached.1)
    have bytes := counted (length ▸ reached.1)
    have nothing : s.coming = [] := by
      apply List.eq_nil_of_length_eq_zero
      omega
    exact ⟨streams.finish, streams.finish_delivered fits nothing⟩
  · rw [if_neg reached]
    by_cases still : s.coming.take (min t.ready GET_CHUNK) = []
    · rw [if_pos still]
      by_cases nothing : s.coming = []
      · split
        · exact ⟨streams.finish, streams.finish_delivered fits nothing⟩
        · exact ⟨streams, streams.delivered (.inl running)⟩
      · have zero := (List.take_eq_nil_iff.mp still).resolve_right nothing
        have empty : t.ready = 0 := by
          rw [GET_CHUNK] at zero
          omega
        obtain ⟨order, soon⟩ := limits.stall body nothing empty
        have waits : ¬ s.idle t = true := by
          rw [GetLoop.idle_iff order]
          · omega
          · rw [kBodyIdleTimeoutMs] at soon
            unfold Word32.size
            omega
        rw [if_neg waits]
        exact ⟨streams, streams.delivered (.inl running)⟩
    · rw [if_neg still]
      have short : 0 < r.contentLen → (s.bodyBytes : Int) < r.contentLen := by
        rw [← length]
        omega
      have next := streams.block body short (Nat.min_le_right t.ready GET_CHUNK) t.later
        (if t.accepts then none else some .aborted)
      refine ⟨next, next.delivered ?_⟩
      cases t.accepts with
      | true => exact .inl rfl
      | false => exact .inr ⟨rfl, body⟩

/-- The deadline tells the time except in the last five minutes before the counter wraps. -/
theorem GetCall.waits_iff {now : Nat} (room : g.begins % Word32.size + GET_CAP_MS < Word32.size)
    (period : now / Word32.size = g.begins / Word32.size) :
    g.waits now = true ↔ now < g.begins + GET_CAP_MS := by
  rw [GetCall.waits, decide_eq_true_eq]
  exact Word32.before_iff room period

/-- The budget is not spent before its time. -/
theorem Limits.unspent (limits : Limits g s t) : g.spent t.spent = false := by
  rw [GetCall.spent, httpReadBudgetSpent, Bool.and_eq_false_iff]
  by_cases some : g.budgetMs = 0
  · exact .inl (decide_eq_false (fun no => no some))
  · have small := g.budget_lt
    have early := limits.budget some
    have order := limits.order
    rw [Word32.sub_mod_mod order (by omega)]
    exact .inr (decide_eq_false (by omega))

theorem Streams.step (streams : Streams r s) (delivered : Delivered r s) (fits : r.LengthFits)
    (calm : Calm g s t) (ok : TurnOk g s t) :
    Streams r (getStep g s t) ∧ Delivered r (getStep g s t) := by
  rw [getStep]
  by_cases running : s.exit = none
  · have limits := calm running
    have told := ok running
    rw [if_pos running, httpsGet, limits.unspent]
    by_cases waits : g.waits t.now = true
    · rw [waits, Bool.not_true, if_neg Bool.false_ne_true, if_neg Bool.false_ne_true]
      by_cases body : s.head.phase = .body
      · rw [if_pos body]
        exact streams.bodyTurn fits running body limits
      · have some : s.coming ≠ [] := fun nothing => body (streams.body_of_nothing nothing)
        rw [if_neg body]
        obtain ⟨next, still⟩ := streams.headTurn running body ((told some).2 body)
        exact ⟨next, next.delivered (.inl still)⟩
    · have nothing : s.coming = [] := by
        by_contra some
        exact waits ((told some).1 limits.cap)
      rw [Bool.eq_false_iff.mpr waits, Bool.not_false, if_pos rfl]
      exact ⟨streams.finish, streams.finish_delivered fits nothing⟩
  · rw [if_neg running]
    exact ⟨streams, delivered⟩

/-- A call returns once nothing came for long enough. -/
theorem Streams.returns (streams : Streams r s) (quiet : Quiet s t) :
    (getStep g s t).exit ≠ none := by
  rw [getStep]
  by_cases running : s.exit = none
  · have body := streams.body_of_nothing quiet.nothing
    have idle := (GetLoop.idle_iff (Nat.le_of_lt (Nat.lt_of_le_of_lt (Nat.le_add_right _ _)
      quiet.long)) quiet.period).mpr quiet.long
    have ended : s.bodyTurn t = s.finish := by
      rw [GetLoop.bodyTurn, quiet.nothing, List.take_nil, if_pos rfl, if_pos idle, ite_self]
    rw [if_pos running, httpsGet, if_pos body, ended]
    split
    · exact Option.some_ne_none _
    · split
      · exact Option.some_ne_none _
      · exact Option.some_ne_none _
  · rw [if_neg running]
    exact running

end

/-- `Content-Length: 2`. -/
def twoBytes : LengthLine where
  name := "Content-Length".toList
  lead := [' ']
  digits := ['2']
  trail := []
  named := by decide
  lead_blank c mem := .inl (List.mem_singleton.mp mem)
  trail_blank c mem := nomatch mem
  digits_ne := List.cons_ne_nil '2' []
  digits_plain := List.all_eq_true.mp rfl

def okReply : Reply where
  code := ['2', '0', '0']
  reason := ['O', 'K']
  before := []
  length := some twoBytes
  after := []
  body := ['h', 'i']
  code_length := rfl
  code_plain := List.all_eq_true.mp rfl
  code_final := by decide
  reason_inline := inline_of_all rfl
  body_le := by
    rintro l ⟨⟩ -
    decide

theorem okReply_fits : okReply.LengthFits := by
  rintro l ⟨⟩
  exact ⟨twoBytes.read_of_le (by decide), by decide⟩

def getCall (begins : Nat) : GetCall where
  tStart := begins
  begins := begins
  budgetMs := 0
  budget_lt := by decide

def getTurn (now ready : Nat) (connected : Bool) : GetTurn where
  now := now
  spent := now
  later := now
  connected := connected
  ready := ready
  accepts := true

/-- The reply in two pieces, with the flag down behind the first. -/
def okTurns : List GetTurn := [getTurn 10 40 true, getTurn 20 40 false, getTurn 30 0 false]

/-- The flag goes down within the status line. -/
def droppedTurns : List GetTurn := [getTurn 10 5 true, getTurn 20 0 false]

end Thesada.Cellular
