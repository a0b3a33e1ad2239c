import Mathlib.Data.Nat.Digits.Defs
import Mathlib.Logic.Function.Basic
import Thesada.Library.Machine
import Thesada.Library.Word32
import Thesada.Library.Words
import Thesada.Net.HttpUrl

/-!
# The job of a `net.http` command

`cmd_http` allocates a job, a task of its own fills it in, and one of the two frees it. The
command waits in the console loop, so another `net.http` can be typed and wait inside the first
one. The only thing both sides exchange is the atomic `state` of the job.

A job is a pointer that is never handed out again. Each access to `state` is an event of its own,
and so is each thing the fetch does to the other fields; which side moves is a part of the run.
What a fetch will do is drawn when it is spawned.
-/

namespace Thesada.Net

open CString Machine

def HTTP_PREVIEW_CAP : Nat := 1024
def HTTP_WIFI_READ_MS : Nat := 20000
def HTTP_WIFI_WAIT_MS : Nat := 60000
def HTTP_CELL_READ_MS : Nat := 25000
def HTTP_CELL_WAIT_MS : Nat := 30000
def HTTP_WAIT_TICK_MS : Nat := 1000
def HTTP_URL_MAX : Nat := 256

def httpWaitTickDue (lastMs nowMs : Nat) : Bool := HTTP_WAIT_TICK_MS ≤ Word32.sub nowMs lastMs

/-! ## The body preview -/

structure HttpPreview where
  /-- The first `len` bytes of the array. -/
  data : Str
  total : Nat
  cut : Bool
  fits : data.length ≤ HTTP_PREVIEW_CAP

def HttpPreview.empty : HttpPreview := ⟨[], 0, false, Nat.zero_le _⟩

def httpPreviewKeep (p : HttpPreview) (buf : Str) : HttpPreview where
  data := p.data ++ buf.take (HTTP_PREVIEW_CAP - p.data.length)
  total := Word32.add p.total buf.length
  cut := p.cut
  fits := by
    have room := p.fits
    simp only [List.length_append, List.length_take]
    omega

def isEol (c : Char) : Bool := c = '\n' || c = '\r'

/-- The loop behind the status line: the open line, and the bytes to come. -/
def previewLines (line : Str) : Str → List Str
  | [] => if line = [] then [] else [cstr (line.take 255)]
  | c :: rest =>
      if isEol c then
        if line = [] then previewLines [] rest
        else cstr (line.take 255) :: previewLines [] rest
      else previewLines (line ++ [c]) rest

/-! ## The request -/

/-- What `cmd_http` reads from its arguments. A plain request was asked for. -/
structure HttpRequest where
  url : Str
  host : Str
  path : Str
  port : Nat
  https : Bool
  insecure : Bool
  asked : https = true ∨ insecure = true
  url_lt : url.length < HTTP_URL_MAX
  host_lt : host.length < 128

def httpUsage : Str := "usage: net.http [--insecure] <url>".toList

/-- The last argument that is not the flag. -/
def httpUrlArg (args : List Str) : Option Str :=
  (args.filter (· ≠ "--insecure".toList)).getLast?

/-- The port behind the first colon of a host. -/
def httpHostPort (host : Str) (port : Nat) : Str × Nat :=
  match host.dropWhile (· ≠ ':') with
  | [] => (host, port)
  | _ :: digits => (host.takeWhile (· ≠ ':'), ((strtol digits).1 % 65536).toNat)

theorem httpHostPort_le (host : Str) (port : Nat) :
    (httpHostPort host port).1.length ≤ host.length := by
  unfold httpHostPort
  split
  · exact Nat.le_refl _
  · exact (List.takeWhile_prefix _).length_le

/-- `cmd_http` up to the allocation. -/
def httpArgs (args : List Str) : Except Str HttpRequest :=
  match httpUrlArg args with
  | none => .error httpUsage
  | some url =>
      if short : url.length < HTTP_URL_MAX then
        match httpScheme url with
        | none => .error "url must start with http:// or https://".toList
        | some (rest, port, https) =>
            if asked : https = true ∨ args.contains "--insecure".toList = true then
              let host := rest.takeWhile (· ≠ '/')
              let path := rest.dropWhile (· ≠ '/')
              if fits : host ≠ [] ∧ host.length < 128 then
                .ok
                  { url := url
                    host := (httpHostPort host port).1
                    path := if path = [] then ['/'] else path
                    port := (httpHostPort host port).2
                    https := https
                    insecure := args.contains "--insecure".toList
                    asked := asked
                    url_lt := short
                    host_lt := Nat.lt_of_le_of_lt (httpHostPort_le host port) fits.2 }
              else .error "bad host".toList
            else .error "plain HTTP refused - pass --insecure to allow".toList
      else .error "url too long".toList

/-! ## The fetch -/

/-- What the fetch fills in. -/
structure HttpOut where
  body : HttpPreview
  status : Int
  ok : Bool
  err : Option Str

def HttpOut.empty : HttpOut := ⟨.empty, 0, false, none⟩

inductive FetchMove where
  | failed (err : Str)
  /-- `http.GET` returned. -/
  | answered (status : Int)
  | keep (chunk : Str)
  /-- `cellGet` returned. -/
  | ended (got cut : Bool) (status : Int)

def FetchMove.apply (o : HttpOut) : FetchMove → HttpOut
  | .failed err => { o with err := some err }
  | .answered status => { o with status := status, ok := o.ok || 0 < status }
  | .keep chunk => { o with body := httpPreviewKeep o.body chunk }
  | .ended got cut status =>
      { o with
        body := { o.body with cut := cut }
        status := status
        ok := got || (cut && 0 < status) }

/-- One pass of the body loop: the clock, whether the stream is closed and read up, how many bytes
are there, and what `readBytes` gets. -/
structure ReadPass where
  now : Nat
  drained : Bool
  available : Nat
  bytes : Str

/-- The body loop of `httpFetchRun`, with the bytes counted so far. -/
def wifiReads (t0 : Nat) (len : Int) (total : Nat) : List ReadPass → List Str
  | [] => []
  | p :: rest =>
      if HTTP_WIFI_READ_MS ≤ Word32.sub p.now t0 then []
      else if p.drained then []
      else if p.available = 0 then wifiReads t0 len total rest
      else
        let chunk := p.bytes.take (min p.available 512)
        if chunk = [] then []
        else if 0 < len ∧ len ≤ (Word32.add total chunk.length : Int) then [chunk]
        else chunk :: wifiReads t0 len (Word32.add total chunk.length) rest

/-- What the WiFi fetch meets. -/
structure WifiFetch where
  /-- `/ca.crt` opens. -/
  ca : Bool
  begun : Bool
  status : Int
  size : Int
  t0 : Nat
  passes : List ReadPass

/-- What the cellular fetch meets. -/
structure CellFetch where
  /-- `/ca.crt` opens and holds something. -/
  ca : Bool
  chunks : List Str
  got : Bool
  cut : Bool
  status : Int

def noCa : Str := "no /ca.crt on flash - pass --insecure to skip verification".toList

def httpFetchRun (r : HttpRequest) (e : WifiFetch) : List FetchMove :=
  if r.https && !e.ca && !r.insecure then [.failed noCa]
  else if !e.begun then [.failed "http.begin failed".toList]
  else
    .answered e.status ::
      if 0 < e.status then (wifiReads e.t0 e.size 0 e.passes).map .keep else []

def httpFetchRunCellular (r : HttpRequest) (e : CellFetch) : List FetchMove :=
  if !e.ca && !r.insecure then [.failed noCa]
  else e.chunks.map .keep ++ [.ended e.got e.cut e.status]

/-- All a fetch fills in. -/
def fetchOut (moves : List FetchMove) : HttpOut := moves.foldl FetchMove.apply .empty

def FetchMove.bytes : FetchMove → Str
  | .keep chunk => chunk
  | _ => []

/-! ## The job -/

inductive HttpJobState where
  | running
  | done
  | abandoned
  deriving DecidableEq

/-- The state behind the exchange, and whether the task frees the job. -/
def httpJobFinish (state : HttpJobState) : HttpJobState × Bool := (.done, state = .abandoned)

/-- The state behind the exchange, and whether the shell keeps the job. -/
def httpJobAbandon (state : HttpJobState) : HttpJobState × Bool := (.abandoned, state = .done)

structure HttpFetchJob where
  request : HttpRequest
  cellGet : Bool
  out : HttpOut
  state : HttpJobState

/-- Where a waiting command is: in its loop, behind the loop, at the exchange, or with a job that
is its own. -/
inductive WaitPc where
  | polling
  | leaving
  | abandoning
  | holding
  deriving DecidableEq

structure HttpWait where
  job : Nat
  pc : WaitPc
  cellular : Bool
  t0 : Nat
  lastTick : Nat
  ticks : Nat

inductive TaskPc where
  | fetching (todo : List FetchMove)
  | freeing
  | gone

/-- A pointer: the job behind it, the task, and what it has printed. -/
structure JobSlot where
  job : Option HttpFetchJob
  task : TaskPc
  /-- What the fetch does from its first move to its last. -/
  plan : List FetchMove
  deleted : Nat
  reply : List Str

structure FetchSystem where
  slots : Nat → JobSlot
  /-- The pointers handed out. -/
  next : Nat
  /-- The waiting commands, the innermost first. -/
  waits : List HttpWait
  /-- A job was used after its delete. -/
  fault : Bool

def waitMs (w : HttpWait) : Nat := if w.cellular then HTTP_CELL_WAIT_MS else HTTP_WIFI_WAIT_MS

/-- The lines of a command that has its job. -/
def httpReport (cellular : Bool) (o : HttpOut) : List Str :=
  match o.err with
  | some err => [err]
  | none =>
      [cstr (("status=".toList ++ (toString o.status).toList ++ " ok=".toList ++
          [if o.ok then '1' else '0'] ++ " body=".toList ++ Nat.toDigits 10 o.body.total ++
          " bytes (preview <=".toList ++ Nat.toDigits 10 o.body.data.length ++ ", via ".toList ++
          (if cellular then "cellular".toList else "WiFi".toList) ++ [')']).take 223)] ++
      (if o.body.cut then ["read stopped at the 25 s budget".toList] else []) ++
      previewLines [] o.body.data ++ ["--- done ---".toList]

/-- The line of a command whose arguments are fine. -/
def httpGetLine (r : HttpRequest) : Str :=
  cstr (("GET ".toList ++ (if r.https then "https".toList else "http".toList) ++ "://".toList ++
    r.host ++ [':'] ++ Nat.toDigits 10 r.port ++ r.path).take 223)

def noResult (w : HttpWait) : Str :=
  "net.http: no result after ".toList ++ Nat.toDigits 10 (waitMs w / 1000) ++
    " s, the fetch ends on its task (see log)".toList

namespace FetchSystem

def boot : FetchSystem := ⟨fun _ => ⟨none, .gone, [], 0, []⟩, 0, [], false⟩

def set (s : FetchSystem) (p : Nat) (slot : JobSlot) : FetchSystem :=
  { s with slots := Function.update s.slots p slot }

/-- A use of the job behind a pointer. -/
def deref (s : FetchSystem) (p : Nat) (use : HttpFetchJob → FetchSystem) : FetchSystem :=
  match (s.slots p).job with
  | some job => use job
  | none => { s with fault := true }

/-- `delete job`, with the lines printed before. -/
def delete (s : FetchSystem) (p : Nat) (reply : List Str) : FetchSystem :=
  s.deref p fun _ =>
    s.set p
      { s.slots p with
        job := none
        deleted := (s.slots p).deleted + 1
        reply := (s.slots p).reply ++ reply }

end FetchSystem

/-- What `cmd_http` meets, and what the fetch will. -/
structure HttpStart where
  args : List Str
  memory : Bool
  wifi : Bool
  /-- The cellular link is up and has a GET. -/
  cell : Bool
  spawned : Bool
  now : Nat
  wifiFetch : WifiFetch
  cellFetch : CellFetch

/-- `cmd_http` up to its wait. -/
def cmd_http (s : FetchSystem) (c : HttpStart) : FetchSystem :=
  match httpArgs c.args with
  | .error _ => s
  | .ok r =>
      if !c.memory then s
      else
        let fresh : JobSlot := ⟨some ⟨r, !c.wifi, .empty, .running⟩, .gone, [], 0, [httpGetLine r]⟩
        let allocated := { s.set s.next fresh with next := s.next + 1 }
        if !c.wifi && !c.cell then allocated.delete s.next ["no transport up".toList]
        else if !c.wifi && !r.https then
          allocated.delete s.next ["cellular path is HTTPS only".toList]
        else if !c.spawned then
          allocated.delete s.next ["net.http: failed to spawn fetch task".toList]
        else
          let plan :=
            if c.wifi then httpFetchRun r c.wifiFetch else httpFetchRunCellular r c.cellFetch
          { allocated.set s.next { fresh with task := .fetching plan, plan := plan } with
            waits := ⟨s.next, .polling, !c.wifi, c.now, c.now, 0⟩ :: s.waits }

inductive FetchEvent where
  /-- A `net.http` line, typed at the prompt or in the wait of another one. -/
  | start (c : HttpStart)
  /-- The loop's test, and the clock there, at the tick's test and behind the tick. -/
  | pass (now check after : Nat)
  /-- The load behind the loop. -/
  | leave
  /-- `httpJobAbandon`. -/
  | giveUp
  /-- The rest of the command. -/
  | report
  /-- The next thing the fetch does. -/
  | fetch (p : Nat)
  /-- `httpJobFinish`. -/
  | finish (p : Nat)
  /-- The task's `delete`. -/
  | free (p : Nat)

/-- The load of the loop's condition, and the loop's body. -/
def HttpWait.pass (w : HttpWait) (state : HttpJobState) (now check after : Nat) : HttpWait :=
  if state ≠ .done ∧ Word32.sub now w.t0 < waitMs w then
    if httpWaitTickDue w.lastTick check then { w with lastTick := after, ticks := w.ticks + 1 }
    else w
  else { w with pc := .leaving }

theorem HttpWait.pass_stays {w : HttpWait} (polling : w.pc = .polling) (state : HttpJobState)
    (now check after : Nat) :
    (w.pass state now check after).job = w.job ∧ (w.pass state now check after).pc ≠ .holding := by
  unfold HttpWait.pass
  split
  · split <;> simp [polling]
  · simp

def fetchStep (s : FetchSystem) : FetchEvent → FetchSystem
  | .start c =>
      match s.waits with
      | [] => cmd_http s c
      | w :: _ => if w.pc = .polling then cmd_http s c else s
  | .pass now check after =>
      match s.waits with
      | ⟨p, .polling, cellular, t0, lastTick, ticks⟩ :: outer =>
          s.deref p fun job =>
            { s with
              waits := HttpWait.pass ⟨p, .polling, cellular, t0, lastTick, ticks⟩ job.state now
                check after :: outer }
      | _ => s
  | .leave =>
      match s.waits with
      | ⟨p, .leaving, cellular, t0, lastTick, ticks⟩ :: outer =>
          s.deref p fun job =>
            { s with
              waits := ⟨p, if job.state = .done then .holding else .abandoning, cellular, t0,
                lastTick, ticks⟩ :: outer }
      | _ => s
  | .giveUp =>
      match s.waits with
      | ⟨p, .abandoning, cellular, t0, lastTick, ticks⟩ :: outer =>
          s.deref p fun job =>
            let slot := { s.slots p with job := some { job with state := .abandoned } }
            if (httpJobAbandon job.state).2 then
              { s.set p slot with waits := ⟨p, .holding, cellular, t0, lastTick, ticks⟩ :: outer }
            else
              { s.set p { slot with
                  reply := slot.reply ++ [noResult ⟨p, .abandoning, cellular, t0, lastTick, ticks⟩] }
                with waits := outer }
      | _ => s
  | .report =>
      match s.waits with
      | ⟨p, .holding, cellular, _, _, _⟩ :: outer =>
          s.deref p fun job =>
            { s.delete p (httpReport cellular job.out) with waits := outer }
      | _ => s
  | .fetch p =>
      match (s.slots p).task with
      | .fetching (move :: todo) =>
          s.deref p fun job =>
            s.set p { s.slots p with
              job := some { job with out := move.apply job.out }
              task := .fetching todo }
      | _ => s
  | .finish p =>
      match (s.slots p).task with
      | .fetching [] =>
          s.deref p fun job =>
            s.set p { s.slots p with
              job := some { job with state := (httpJobFinish job.state).1 }
              task := if (httpJobFinish job.state).2 then .freeing else .gone }
      | _ => s
  | .free p =>
      match (s.slots p).task with
      | .freeing => (s.set p { s.slots p with task := .gone }).delete p []
      | _ => s

/-! ## Who has a job -/

/-- The side a job belongs to, by where its command waits and where its task is. -/
inductive Owned : Option WaitPc → JobSlot → Prop
  | fetching {pc : WaitPc} {slot : JobSlot} {job : HttpFetchJob} {todo : List FetchMove}
      (waits : pc ≠ .holding) (task : slot.task = .fetching todo) (alive : slot.job = some job)
      (state : job.state = .running) (kept : slot.deleted = 0)
      (rest : todo.foldl FetchMove.apply job.out = fetchOut slot.plan) : Owned (some pc) slot
  | finished {pc : WaitPc} {slot : JobSlot} {job : HttpFetchJob}
      (task : slot.task = .gone) (alive : slot.job = some job)
      (state : job.state = .done ∨ pc = .holding) (kept : slot.deleted = 0)
      (whole : job.out = fetchOut slot.plan) : Owned (some pc) slot
  | abandoned {slot : JobSlot} {job : HttpFetchJob} {todo : List FetchMove}
      (task : slot.task = .fetching todo) (alive : slot.job = some job)
      (state : job.state = .abandoned) (kept : slot.deleted = 0) : Owned none slot
  | freeing {slot : JobSlot} {job : HttpFetchJob} (task : slot.task = .freeing)
      (alive : slot.job = some job) (kept : slot.deleted = 0) : Owned none slot
  | deleted {slot : JobSlot} (task : slot.task = .gone) (dead : slot.job = none)
      (once : slot.deleted = 1) : Owned none slot

/-- Where the command of a job waits. -/
def waitOf : List HttpWait → Nat → Option WaitPc
  | [], _ => none
  | w :: outer, p => if w.job = p then some w.pc else waitOf outer p

theorem waitOf_eq_none {waits : List HttpWait} {p : Nat} :
    waitOf waits p = none ↔ p ∉ waits.map HttpWait.job := by
  induction waits with
  | nil => simp [waitOf]
  | cons w outer ih =>
      by_cases mine : w.job = p
      · simp [waitOf, mine]
      · simp [waitOf, mine, ih, Ne.symm mine]

structure FetchSystem.Sound (s : FetchSystem) : Prop where
  sound : s.fault = false
  fresh : ∀ p, s.next ≤ p → (s.slots p).task = .gone ∧ (s.slots p).job = none ∧
    (s.slots p).deleted = 0
  known : ∀ w ∈ s.waits, w.job < s.next
  distinct : (s.waits.map HttpWait.job).Nodup
  owned : ∀ p < s.next, Owned (waitOf s.waits p) (s.slots p)

namespace FetchSystem

variable {s : FetchSystem} {p : Nat} {job : HttpFetchJob} {slot : JobSlot}

@[simp] theorem set_slots (s : FetchSystem) (p : Nat) (slot : JobSlot) :
    (s.set p slot).slots p = slot := Function.update_self ..

theorem set_slots_of_ne {q : Nat} (other : q ≠ p) : (s.set p slot).slots q = s.slots q :=
  Function.update_of_ne other _ _

@[simp] theorem set_next (s : FetchSystem) (p : Nat) (slot : JobSlot) :
    (s.set p slot).next = s.next := rfl

@[simp] theorem set_waits (s : FetchSystem) (p : Nat) (slot : JobSlot) :
    (s.set p slot).waits = s.waits := rfl

@[simp] theorem set_fault (s : FetchSystem) (p : Nat) (slot : JobSlot) :
    (s.set p slot).fault = s.fault := rfl

theorem set_set {slot' : JobSlot} : (s.set p slot).set p slot' = s.set p slot' := by
  simp [set]

theorem set_self (same : slot = s.slots p) : s.set p slot = s := by
  subst same
  simp [set]

theorem deref_of_alive (alive : (s.slots p).job = some job) (use : HttpFetchJob → FetchSystem) :
    s.deref p use = use job := by
  simp [deref, alive]

theorem delete_of_alive (alive : (s.slots p).job = some job) (reply : List Str) :
    s.delete p reply = s.set p { s.slots p with
      job := none, deleted := (s.slots p).deleted + 1, reply := (s.slots p).reply ++ reply } := by
  rw [delete, deref_of_alive alive]

namespace Sound

theorem at_boot : boot.Sound where
  sound := rfl
  fresh := fun _ _ => ⟨rfl, rfl, rfl⟩
  known := fun _ member => nomatch member
  distinct := List.nodup_nil
  owned := fun _ none => absurd none (Nat.not_lt_zero _)

/-- One side does something to a job and keeps its place. -/
theorem set_owned (h : s.Sound) (known : p < s.next) (owned : Owned (waitOf s.waits p) slot) :
    (s.set p slot).Sound where
  sound := h.sound
  fresh := by
    intro q unknown
    rw [set_slots_of_ne (by simp at unknown; omega)]
    exact h.fresh q unknown
  known := h.known
  distinct := h.distinct
  owned := by
    intro q allocated
    by_cases same : q = p
    · subst same
      rw [set_slots]
      exact owned
    · rw [set_slots_of_ne same]
      exact h.owned q allocated

section Innermost

variable {w : HttpWait} {outer : List HttpWait}

theorem owned_head (h : s.Sound) (innermost : s.waits = w :: outer) :
    Owned (some w.pc) (s.slots w.job) := by
  have owned := h.owned w.job (h.known w (by simp [innermost]))
  simpa [innermost, waitOf] using owned

/-- The innermost command goes on. -/
theorem advance (h : s.Sound) (w' : HttpWait) (innermost : s.waits = w :: outer)
    (same : w'.job = w.job) (owned : Owned (some w'.pc) slot) :
    ({ s.set w.job slot with waits := w' :: outer } : FetchSystem).Sound where
  sound := h.sound
  fresh := by
    intro q unknown
    have known := h.known w (by simp [innermost])
    change ((s.set w.job slot).slots q).task = _ ∧ _
    rw [set_slots_of_ne (by simp at unknown; omega)]
    exact h.fresh q unknown
  known := by
    intro v member
    rcases List.mem_cons.mp member with rfl | behind
    · rw [same]
      exact h.known w (by simp [innermost])
    · exact h.known v (by simp [innermost, behind])
  distinct := by
    have distinct := h.distinct
    rw [innermost] at distinct
    simpa [same] using distinct
  owned := by
    intro q allocated
    change Owned _ ((s.set w.job slot).slots q)
    by_cases mine : q = w.job
    · subst mine
      rw [set_slots]
      simpa [waitOf, same] using owned
    · rw [set_slots_of_ne mine]
      have before := h.owned q allocated
      rw [innermost] at before
      simpa [waitOf, same, Ne.symm mine] using before

/-- The innermost command returns. -/
theorem returns (h : s.Sound) (innermost : s.waits = w :: outer) (owned : Owned none slot) :
    ({ s.set w.job slot with waits := outer } : FetchSystem).Sound where
  sound := h.sound
  fresh := by
    intro q unknown
    have known := h.known w (by simp [innermost])
    change ((s.set w.job slot).slots q).task = _ ∧ _
    rw [set_slots_of_ne (by simp at unknown; omega)]
    exact h.fresh q unknown
  known := fun v member => h.known v (by simp [innermost, member])
  distinct := by
    have distinct := h.distinct
    rw [innermost] at distinct
    exact (List.nodup_cons.mp distinct).2
  owned := by
    intro q allocated
    change Owned _ ((s.set w.job slot).slots q)
    by_cases mine : q = w.job
    · subst mine
      have distinct := h.distinct
      rw [innermost] at distinct
      rw [set_slots, waitOf_eq_none.mpr (List.nodup_cons.mp distinct).1]
      exact owned
    · rw [set_slots_of_ne mine]
      have before := h.owned q allocated
      rw [innermost] at before
      simpa [waitOf, Ne.symm mine] using before

end Innermost

/-! ## One step -/

/-- A command that was refused behind its allocation leaves nothing. -/
theorem refuse (h : s.Sound) (fresh : slot.job = some job) (none : slot.deleted = 0)
    (gone : slot.task = .gone) (reply : List Str) :
    (({ s.set s.next slot with next := s.next + 1 } : FetchSystem).delete s.next reply).Sound := by
  have own : ({ s.set s.next slot with next := s.next + 1 } : FetchSystem).slots s.next = slot :=
    set_slots s s.next slot
  rw [delete_of_alive (by rw [own, fresh]), own]
  have noWait : waitOf s.waits s.next = Option.none := by
    refine waitOf_eq_none.mpr fun member => ?_
    obtain ⟨w, waits, same⟩ := List.mem_map.mp member
    exact absurd (h.known w waits) (by omega)
  refine ⟨h.sound, fun q unknown => ?_, fun w member => ?_, h.distinct, fun q allocated => ?_⟩
  · change s.next + 1 ≤ q at unknown
    rw [set_slots_of_ne (by omega)]
    change ((s.set s.next slot).slots q).task = _ ∧ _
    rw [set_slots_of_ne (by omega)]
    exact h.fresh q (by omega)
  · exact Nat.lt_succ_of_lt (h.known w member)
  · change q < s.next + 1 at allocated
    by_cases new : q = s.next
    · subst new
      rw [set_slots]
      change Owned (waitOf s.waits s.next) _
      rw [noWait]
      exact .deleted gone rfl (congrArg Nat.succ none)
    · rw [set_slots_of_ne new]
      change Owned (waitOf s.waits q) ((s.set s.next slot).slots q)
      rw [set_slots_of_ne new]
      exact h.owned q (by omega)

/-- A command that spawned its fetch begins to wait. -/
theorem spawn (h : s.Sound) {w : HttpWait} (own : w.job = s.next)
    (owned : Owned (some w.pc) slot) :
    ({ s.set s.next slot with next := s.next + 1, waits := w :: s.waits } :
      FetchSystem).Sound where
  sound := h.sound
  fresh := by
    intro q unknown
    change s.next + 1 ≤ q at unknown
    change ((s.set s.next slot).slots q).task = _ ∧ _
    rw [set_slots_of_ne (by omega)]
    exact h.fresh q (by omega)
  known := by
    intro v member
    change v.job < s.next + 1
    rcases List.mem_cons.mp member with rfl | behind
    · omega
    · exact Nat.lt_succ_of_lt (h.known v behind)
  distinct := by
    refine List.nodup_cons.mpr ⟨fun member => ?_, h.distinct⟩
    obtain ⟨v, waits, same⟩ := List.mem_map.mp member
    exact absurd (h.known v waits) (by omega)
  owned := by
    intro q allocated
    change q < s.next + 1 at allocated
    change Owned _ ((s.set s.next slot).slots q)
    by_cases new : q = s.next
    · subst new
      rw [set_slots]
      simpa [waitOf, own] using owned
    · rw [set_slots_of_ne new]
      simpa [waitOf, own, Ne.symm new] using h.owned q (by omega)

theorem cmd_http_sound (h : s.Sound) (c : HttpStart) : (cmd_http s c).Sound := by
  unfold cmd_http
  cases httpArgs c.args with
  | error line => exact h
  | ok r =>
      dsimp only
      split
      · exact h
      split
      · exact h.refuse rfl rfl rfl _
      split
      · exact h.refuse rfl rfl rfl _
      split
      · exact h.refuse rfl rfl rfl _
      · generalize (if c.wifi = true then httpFetchRun r c.wifiFetch
          else httpFetchRunCellular r c.cellFetch) = plan
        let slot : JobSlot :=
          ⟨some ⟨r, !c.wifi, .empty, .running⟩, .fetching plan, plan, 0, [httpGetLine r]⟩
        have owned : Owned (some .polling) slot := .fetching (by simp) rfl rfl rfl rfl rfl
        have spawned := h.spawn (w := ⟨s.next, .polling, !c.wifi, c.now, c.now, 0⟩) rfl owned
        simpa only [set, Function.update_idem] using spawned

theorem pass_sound (h : s.Sound) (now check after : Nat) :
    (fetchStep s (.pass now check after)).Sound := by
  obtain ⟨slots, next, waits, fault⟩ := s
  match waits with
  | [] => exact h
  | ⟨p, .leaving, _, _, _, _⟩ :: _ => exact h
  | ⟨p, .abandoning, _, _, _, _⟩ :: _ => exact h
  | ⟨p, .holding, _, _, _, _⟩ :: _ => exact h
  | ⟨p, .polling, cellular, t0, lastTick, ticks⟩ :: outer =>
      have stays (state : HttpJobState) := HttpWait.pass_stays
        (w := ⟨p, .polling, cellular, t0, lastTick, ticks⟩) rfl state now check after
      cases h.owned_head rfl with
      | @fetching _ _ job todo waits task alive state kept rest =>
          simp only [fetchStep, deref_of_alive alive]
          have next := h.advance _ rfl (stays job.state).1
            (.fetching (stays job.state).2 task alive state kept rest)
          rwa [set_self rfl] at next
      | @finished _ _ job task alive state kept whole =>
          simp only [fetchStep, deref_of_alive alive]
          have next := h.advance _ rfl (stays job.state).1
            (.finished task alive (.inl (state.resolve_right (by simp))) kept whole)
          rwa [set_self rfl] at next

theorem leave_sound (h : s.Sound) : (fetchStep s .leave).Sound := by
  obtain ⟨slots, next, waits, fault⟩ := s
  match waits with
  | [] => exact h
  | ⟨p, .polling, _, _, _, _⟩ :: _ => exact h
  | ⟨p, .abandoning, _, _, _, _⟩ :: _ => exact h
  | ⟨p, .holding, _, _, _, _⟩ :: _ => exact h
  | ⟨p, .leaving, cellular, t0, lastTick, ticks⟩ :: outer =>
      cases h.owned_head rfl with
      | fetching waits task alive state kept rest =>
          simp only [fetchStep, deref_of_alive alive, state, reduceCtorEq, if_false]
          have next := h.advance ⟨p, .abandoning, cellular, t0, lastTick, ticks⟩ rfl rfl
            (.fetching (by simp) task alive state kept rest)
          rwa [set_self rfl] at next
      | finished task alive state kept whole =>
          have done := state.resolve_right (by simp)
          simp only [fetchStep, deref_of_alive alive, done, if_true]
          have next := h.advance ⟨p, .holding, cellular, t0, lastTick, ticks⟩ rfl rfl
            (.finished task alive (.inl done) kept whole)
          rwa [set_self rfl] at next

theorem giveUp_sound (h : s.Sound) : (fetchStep s .giveUp).Sound := by
  obtain ⟨slots, next, waits, fault⟩ := s
  match waits with
  | [] => exact h
  | ⟨p, .polling, _, _, _, _⟩ :: _ => exact h
  | ⟨p, .leaving, _, _, _, _⟩ :: _ => exact h
  | ⟨p, .holding, _, _, _, _⟩ :: _ => exact h
  | ⟨p, .abandoning, cellular, t0, lastTick, ticks⟩ :: outer =>
      cases h.owned_head rfl with
      | fetching waits task alive state kept rest =>
          simp only [fetchStep, deref_of_alive alive, httpJobAbandon, state, reduceCtorEq,
            decide_false, Bool.false_eq_true, if_false]
          exact h.returns rfl (.abandoned task rfl rfl kept)
      | finished task alive state kept whole =>
          have done := state.resolve_right (by simp)
          simp only [fetchStep, deref_of_alive alive, httpJobAbandon, done, decide_true, if_true]
          exact h.advance _ rfl rfl (.finished task rfl (.inr rfl) kept whole)

theorem report_sound (h : s.Sound) : (fetchStep s .report).Sound := by
  obtain ⟨slots, next, waits, fault⟩ := s
  match waits with
  | [] => exact h
  | ⟨p, .polling, _, _, _, _⟩ :: _ => exact h
  | ⟨p, .leaving, _, _, _, _⟩ :: _ => exact h
  | ⟨p, .abandoning, _, _, _, _⟩ :: _ => exact h
  | ⟨p, .holding, cellular, t0, lastTick, ticks⟩ :: outer =>
      cases h.owned_head rfl with
      | fetching waits => exact absurd rfl waits
      | finished task alive state kept whole =>
          simp only [fetchStep, deref_of_alive alive, delete_of_alive alive]
          exact h.returns rfl (.deleted task rfl (congrArg Nat.succ kept))

/-- A task that has not gone has an allocated job. -/
theorem known_of_task (h : s.Sound) (busy : (s.slots p).task ≠ .gone) : p < s.next := by
  by_contra unknown
  exact busy (h.fresh p (Nat.le_of_not_lt unknown)).1

theorem fetch_sound (h : s.Sound) (p : Nat) : (fetchStep s (.fetch p)).Sound := by
  cases task : (s.slots p).task with
  | gone => simpa [fetchStep, task] using h
  | freeing => simpa [fetchStep, task] using h
  | fetching todo =>
      cases todo with
      | nil => simpa [fetchStep, task] using h
      | cons move todo =>
          have known := h.known_of_task (p := p) (by simp [task])
          have owned := h.owned p known
          generalize place : waitOf s.waits p = pc at owned
          cases owned with
          | fetching waits task' alive state kept rest =>
              simp only [fetchStep, task, deref_of_alive alive]
              rw [task] at task'
              cases task'
              exact h.set_owned known (place ▸ .fetching waits rfl rfl state kept rest)
          | abandoned task' alive state kept =>
              simp only [fetchStep, task, deref_of_alive alive]
              exact h.set_owned known (place ▸ .abandoned rfl rfl state kept)
          | finished gone => simp [task] at gone
          | freeing gone => simp [task] at gone
          | deleted gone => simp [task] at gone

theorem finish_sound (h : s.Sound) (p : Nat) : (fetchStep s (.finish p)).Sound := by
  cases task : (s.slots p).task with
  | gone => simpa [fetchStep, task] using h
  | freeing => simpa [fetchStep, task] using h
  | fetching todo =>
      cases todo with
      | cons move todo => simpa [fetchStep, task] using h
      | nil =>
          have known := h.known_of_task (p := p) (by simp [task])
          have owned := h.owned p known
          generalize place : waitOf s.waits p = pc at owned
          cases owned with
          | fetching waits task' alive state kept rest =>
              rw [task] at task'
              cases task'
              simp only [fetchStep, task, deref_of_alive alive, httpJobFinish, state, reduceCtorEq,
                decide_false, Bool.false_eq_true, if_false]
              exact h.set_owned known (place ▸ .finished rfl rfl (.inl rfl) kept rest)
          | abandoned task' alive state kept =>
              simp only [fetchStep, task, deref_of_alive alive, httpJobFinish, state,
                decide_true, if_true]
              exact h.set_owned known (place ▸ .freeing rfl rfl kept)
          | finished gone => simp [task] at gone
          | freeing gone => simp [task] at gone
          | deleted gone => simp [task] at gone

theorem free_sound (h : s.Sound) (p : Nat) : (fetchStep s (.free p)).Sound := by
  cases task : (s.slots p).task with
  | gone => simpa [fetchStep, task] using h
  | fetching todo => simpa [fetchStep, task] using h
  | freeing =>
      have known := h.known_of_task (p := p) (by simp [task])
      have owned := h.owned p known
      generalize place : waitOf s.waits p = pc at owned
      cases owned with
      | freeing _ alive kept =>
          simp only [fetchStep, task]
          rw [delete_of_alive (by rw [set_slots]; exact alive), set_slots, set_set]
          exact h.set_owned known (place ▸ .deleted rfl rfl (congrArg Nat.succ kept))
      | fetching _ gone => simp [task] at gone
      | abandoned gone => simp [task] at gone
      | finished gone => simp [task] at gone
      | deleted gone => simp [task] at gone

theorem step (h : s.Sound) (e : FetchEvent) : (fetchStep s e).Sound := by
  cases e with
  | start c =>
      simp only [fetchStep]
      split
      · exact h.cmd_http_sound c
      · split
        · exact h.cmd_http_sound c
        · exact h
  | pass now check after => exact h.pass_sound now check after
  | leave => exact h.leave_sound
  | giveUp => exact h.giveUp_sound
  | report => exact h.report_sound
  | fetch p => exact h.fetch_sound p
  | finish p => exact h.finish_sound p
  | free p => exact h.free_sound p

theorem of_run (es : List FetchEvent) : (run fetchStep boot es).Sound :=
  @run_invariant _ _ fetchStep Sound (fun _ e held => held.step e) _ at_boot es

end Sound

end FetchSystem

/-! ## What a job is freed by and what it tells -/

/-- No job is used after its delete, and a job is deleted once: when its command has returned and
its task has gone, and not before. -/
theorem net_http_job_freed_once (es : List FetchEvent) :
    (run fetchStep .boot es).fault = false ∧
      ∀ p < (run fetchStep .boot es).next,
        ((((run fetchStep .boot es).slots p).task = .gone ∧
            p ∉ (run fetchStep .boot es).waits.map HttpWait.job) ∧
          ((run fetchStep .boot es).slots p).job = none ∧
          ((run fetchStep .boot es).slots p).deleted = 1) ∨
        ((((run fetchStep .boot es).slots p).task ≠ .gone ∨
            p ∈ (run fetchStep .boot es).waits.map HttpWait.job) ∧
          ((run fetchStep .boot es).slots p).job ≠ none ∧
          ((run fetchStep .boot es).slots p).deleted = 0) := by
  have h := FetchSystem.Sound.of_run es
  generalize run fetchStep .boot es = s at h
  refine ⟨h.sound, fun p known => ?_⟩
  have owned := h.owned p known
  generalize place : waitOf s.waits p = pc at owned
  have waits (pc : WaitPc) (place : waitOf s.waits p = some pc) :
      p ∈ s.waits.map HttpWait.job := by
    by_contra absent
    simp [waitOf_eq_none.mpr absent] at place
  cases owned with
  | fetching _ task alive _ kept => exact .inr ⟨.inl (by simp [task]), by simp [alive], kept⟩
  | finished _ alive _ kept => exact .inr ⟨.inr (waits _ place), by simp [alive], kept⟩
  | abandoned task alive _ kept => exact .inr ⟨.inl (by simp [task]), by simp [alive], kept⟩
  | freeing task alive kept => exact .inr ⟨.inl (by simp [task]), by simp [alive], kept⟩
  | deleted task dead once => exact .inl ⟨⟨task, waitOf_eq_none.mp place⟩, dead, once⟩

/-- The preview is the beginning of what the fetch read, in whatever pieces it came. -/
theorem fetchOut_body (moves : List FetchMove) :
    (fetchOut moves).body.data = (moves.flatMap FetchMove.bytes).take HTTP_PREVIEW_CAP ∧
      (fetchOut moves).body.total = (moves.flatMap FetchMove.bytes).length % Word32.size := by
  induction moves using List.reverseRecOn with
  | nil => exact ⟨rfl, rfl⟩
  | append_singleton moves move ih =>
      obtain ⟨kept, counted⟩ := ih
      simp only [fetchOut, List.foldl_append, List.foldl_cons, List.foldl_nil,
        List.flatMap_append, List.flatMap_cons, List.flatMap_nil, List.append_nil] at kept counted ⊢
      cases move with
      | failed err =>
          rw [show (FetchMove.failed err).bytes = [] from rfl, List.append_nil]
          exact ⟨kept, counted⟩
      | answered status =>
          rw [show (FetchMove.answered status).bytes = [] from rfl, List.append_nil]
          exact ⟨kept, counted⟩
      | ended got cut status =>
          rw [show (FetchMove.ended got cut status).bytes = [] from rfl, List.append_nil]
          exact ⟨kept, counted⟩
      | keep chunk =>
          simp only [FetchMove.apply, FetchMove.bytes, httpPreviewKeep]
          refine ⟨?_, ?_⟩
          · rw [kept, List.take_append, List.length_take]
            congr 2
            omega
          · rw [counted, Word32.add_mod, List.length_append]

theorem words_eq_singleton {line : Str} (inside : ∀ c ∈ line, isEol c = false) (some : line ≠ []) :
    words isEol line = [line] := by
  rw [words, List.splitOnP_eq_singleton inside]
  simp [some]

/-- The lines of the preview are its maximal pieces without a line end, none of them empty. -/
theorem previewLines_eq (line body : Str) (inside : ∀ c ∈ line, isEol c = false) :
    previewLines line body =
      (words isEol (line ++ body)).map fun l => cstr (l.take 255) := by
  induction body generalizing line with
  | nil =>
      by_cases none : line = []
      · simp [previewLines, none, words_of_blank]
      · rw [previewLines, if_neg none, List.append_nil, words_eq_singleton inside none]
        rfl
  | cons c rest ih =>
      cases ends : isEol c with
      | false =>
          rw [previewLines, if_neg (by simp [ends]), ih]
          · simp
          · simpa [or_imp, forall_and, ends] using inside
      | true =>
          rw [previewLines, if_pos ends, words_append_cons ends, ih [] (by simp)]
          by_cases none : line = []
          · simp [none, words_of_blank]
          · rw [if_neg none, words_eq_singleton inside none]
            rfl

/-- The flag of the socket, and what each scope of a claim has found: `none` outside the scope. -/
structure SlotClaims where
  busy : Bool
  held : Nat → Option Bool

/-- A scope is entered or left. -/
inductive ClaimEvent where
  | enter (u : Nat)
  | leave (u : Nat)

/-- `HttpSlotClaim` and its destructor. -/
def claimStep (s : SlotClaims) : ClaimEvent → SlotClaims
  | .enter u =>
      match s.held u with
      | some _ => s
      | none => ⟨true, Function.update s.held u (some !s.busy)⟩
  | .leave u =>
      match s.held u with
      | some held => ⟨if held then false else s.busy, Function.update s.held u none⟩
      | none => s

structure SlotClaims.One (s : SlotClaims) : Prop where
  busy : s.busy = true ↔ ∃ u, s.held u = some true
  one : ∀ u v, s.held u = some true → s.held v = some true → u = v

theorem SlotClaims.One.step {s : SlotClaims} (h : s.One) (e : ClaimEvent) :
    (claimStep s e).One := by
  have others {u v : Nat} {now : Option Bool} (other : v ≠ u) :
      Function.update s.held u now v = s.held v := Function.update_of_ne other _ _
  cases e with
  | enter u =>
      cases inside : s.held u with
      | some held => simpa [claimStep, inside] using h
      | none =>
          simp only [claimStep, inside]
          cases taken : s.busy with
          | true =>
              obtain ⟨w, holds⟩ := h.busy.mp taken
              have still : w ≠ u := fun same => by simp [same, inside] at holds
              refine ⟨iff_of_true rfl ⟨w, (others still).trans holds⟩, fun a b first second => ?_⟩
              have keeps (v : Nat) (now : Function.update s.held u (some !true) v = some true) :
                  s.held v = some true := by
                by_cases same : v = u
                · simp [same] at now
                · rwa [others same] at now
              exact h.one a b (keeps a first) (keeps b second)
          | false =>
              have free (v : Nat) : s.held v ≠ some true := fun holds => by
                simp [h.busy.mpr ⟨v, holds⟩] at taken
              refine ⟨iff_of_true rfl ⟨u, by simp⟩, fun a b first second => ?_⟩
              have mine (v : Nat) (now : Function.update s.held u (some !false) v = some true) :
                  v = u := by
                by_contra other
                rw [others other] at now
                exact free v now
              rw [mine a first, mine b second]
  | leave u =>
      cases inside : s.held u with
      | none => simpa [claimStep, inside] using h
      | some held =>
          simp only [claimStep, inside]
          have keeps (v : Nat) (now : Function.update s.held u none v = some true) :
              v ≠ u ∧ s.held v = some true := by
            by_cases same : v = u
            · simp [same] at now
            · exact ⟨same, by rwa [others same] at now⟩
          cases held with
          | true =>
              have nobody : ¬∃ v, Function.update s.held u none v = some true :=
                fun ⟨v, now⟩ => (keeps v now).1 (h.one v u (keeps v now).2 inside)
              exact ⟨iff_of_false Bool.false_ne_true nobody,
                fun a b first second => h.one a b (keeps a first).2 (keeps b second).2⟩
          | false =>
              refine ⟨?_, fun a b first second => h.one a b (keeps a first).2 (keeps b second).2⟩
              simp only [Bool.false_eq_true, if_false]
              rw [h.busy]
              refine ⟨fun ⟨v, holds⟩ => ⟨v, ?_⟩, fun ⟨v, now⟩ => ⟨v, (keeps v now).2⟩⟩
              exact (others fun same => by simp [same, inside] at holds).trans holds

/-- Whichever tasks make a GET and in whatever order, one of them has the socket, and the flag
says whether one does. -/
theorem https_slot_exclusive (es : List ClaimEvent) :
    let s := run claimStep ⟨false, fun _ => none⟩ es
    (∀ u v, s.held u = some true → s.held v = some true → u = v) ∧
      (s.busy = true ↔ ∃ u, s.held u = some true) := by
  have h : (run claimStep ⟨false, fun _ => none⟩ es).One :=
    run_invariant (fun _ e held => held.step e) ⟨by simp, by simp⟩ es
  exact ⟨h.one, h.busy⟩

end Thesada.Net
