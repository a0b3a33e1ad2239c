import Mathlib.Data.List.Nodup
import Mathlib.Tactic.Push
import Thesada.Http.CmdReply
import Thesada.Library.Json
import Thesada.Shell.DeferredRing

/-!
# Requests that wait for the main loop

`POST /api/cmd` and a write of the configuration put a callable on the ring of the shell and look
for its end for five seconds. What the callable shares with the route outlives the request, so a
reply that comes too late goes nowhere.

The network task waits for one request at a time. What a command or a write does to the device is
a parameter, and so is other work on the ring. Requests are numbered.
-/

namespace Thesada.Http

open CString Machine JsonGrammar Shell
open Config (ascii)

/-- The looks for the end of a callable, 5 ms apart. -/
def MAX_POLLS : Nat := 1000

inductive Work where
  | cmd (line : Str)
  /-- Of `/api/config` with a restart, else of `/api/file`. -/
  | config (doc : Json) (restart : Bool)

inductive Callable (κ : Type*) where
  | request (number : Nat) (work : Work)
  | other (work : κ)

/-- What a callable shares with its route. -/
structure Shared where
  output : Bytes
  cmdOk : Bool
  bytes : Nat
  done : Bool

def Shared.fresh : Shared := ⟨[opening false], false, 0, false⟩

abbrev HttpReply := Nat × Bytes

def SHELL_BUSY : HttpReply :=
  (503, ascii "\x7b\"ok\":false,\"error\":\"shell busy\"\x7d".toList)

def timeoutReply : Work → HttpReply
  | .cmd _ => (504, ascii "\x7b\"ok\":false,\"error\":\"shell timeout (5s)\"\x7d".toList)
  | .config .. => (504,
      ascii "\x7b\"ok\":false,\"error\":\"config write timeout, result unknown\"\x7d".toList)

def WRITE_FAILED : HttpReply :=
  (500, ascii "\x7b\"ok\":false,\"error\":\"config write failed\"\x7d".toList)

def writtenReply (restart : Bool) (bytes : Nat) : HttpReply :=
  if restart then (200, ascii "\x7b\"ok\":true\x7d".toList)
  else (200, ascii "\x7b\"ok\":true,\"bytes\":".toList ++ ascii (Nat.toDigits 10 bytes) ++
    ascii "\x7d".toList)

/-- The reply to a request whose callable came to its end. -/
def Shared.reply (c : Shared) : Work → HttpReply
  | .cmd _ => (200, replyHead c.cmdOk ++ c.output ++ [closing true])
  | .config _ restart => if c.bytes = 0 then WRITE_FAILED else writtenReply restart c.bytes

structure Wait where
  number : Nat
  work : Work
  polls : Nat

section Handoff

variable {σ Sink κ : Type*}

variable (σ) in
/-- What the main loop does with a line, with a document for the file, and with other work. -/
structure Device (κ : Type*) where
  execute : σ → Str → σ × List Bytes × Bool
  /-- Whether the file was written, and its size. -/
  writeFile : σ → Json → σ × Bool × Nat
  otherWork : σ → κ → σ

variable (σ) in
/-- A callable of a request that was run, and the device it found. -/
structure Ran where
  number : Nat
  work : Work
  before : σ

variable (σ Sink κ) in
structure Handoff where
  shell : Dispatcher Sink (Callable κ)
  device : σ
  shared : Nat → Shared
  restartPending : Bool
  waiting : Option Wait
  asked : Nat
  /-- Oldest first. -/
  replies : List (Nat × HttpReply)
  ran : List (Ran σ)

variable (σ Sink κ) in
inductive HandoffEvent where
  | request (work : Work)
  | poll
  | enqueue (line : Option Str) (sink : Option Sink)
  | deferWork (work : κ)
  | loopEnter
  | loopReturn
  /-- The device changes outside of the ring. -/
  | changes (device : σ)

def Handoff.boot (device : σ) : Handoff σ Sink κ where
  shell := .boot
  device
  shared := fun _ => .fresh
  restartPending := false
  waiting := none
  asked := 0
  replies := []
  ran := []

variable (io : Device σ κ)

/-- What a callable leaves for its route. -/
def Device.result (device : σ) : Work → Shared
  | .cmd line =>
      { output := cmdOutput (io.execute device line).2.1
        cmdOk := (io.execute device line).2.2
        bytes := 0
        done := true }
  | .config doc _ =>
      { Shared.fresh with
        bytes := if (io.writeFile device doc).2.1 then (io.writeFile device doc).2.2 else 0
        done := true }

def Device.after (device : σ) : Work → σ
  | .cmd line => (io.execute device line).1
  | .config doc _ => (io.writeFile device doc).1

/-- The callable asks for a restart. -/
def Device.restarts (device : σ) : Work → Bool
  | .cmd _ => false
  | .config doc restart => (io.writeFile device doc).2.1 && restart

namespace Handoff

/-- A job of the ring on the main loop. -/
def runJob (s : Handoff σ Sink κ) : Job Sink (Callable κ) → Handoff σ Sink κ
  | .execute line _ => { s with device := (io.execute s.device line).1 }
  | .call (.other work) => { s with device := io.otherWork s.device work }
  | .call (.request number work) =>
      { s with
        device := io.after s.device work
        shared := Function.update s.shared number (io.result s.device work)
        restartPending := s.restartPending || io.restarts s.device work
        ran := s.ran ++ [⟨number, work, s.device⟩] }

/-- A route puts its callable on the ring. -/
def request (s : Handoff σ Sink κ) (work : Work) : Handoff σ Sink κ :=
  let call := some (.request s.asked work)
  let queued := (s.shell.ring.enqueueDeferred call).1
  let s' := { s with
    shell := s.shell.step (.enqueueDeferred call)
    shared := Function.update s.shared s.asked .fresh
    asked := s.asked + 1 }
  if !queued then { s' with replies := s.replies ++ [(s.asked, SHELL_BUSY)] }
  else { s' with waiting := some ⟨s.asked, work, 0⟩ }

/-- A turn of the wait, and the reply after the last. -/
def poll (s : Handoff σ Sink κ) (w : Wait) : Handoff σ Sink κ :=
  let c := s.shared w.number
  if w.polls < MAX_POLLS && !c.done then
    { s with waiting := some { w with polls := w.polls + 1 } }
  else
    { s with
      waiting := none
      replies := s.replies ++
        [(w.number, if !c.done then timeoutReply w.work else c.reply w.work)] }

end Handoff

/-- The network task takes no request while it waits. -/
def handoffStep (s : Handoff σ Sink κ) : HandoffEvent σ Sink κ → Handoff σ Sink κ
  | .request work =>
      match s.waiting with
      | some _ => s
      | none => s.request work
  | .poll =>
      match s.waiting with
      | some w => s.poll w
      | none => s
  | .enqueue line sink => { s with shell := s.shell.step (.enqueue line sink) }
  | .deferWork work =>
      { s with shell := s.shell.step (.enqueueDeferred (some (.other work))) }
  | .loopEnter => { s with shell := s.shell.step .loopEnter }
  | .loopReturn =>
      { s.shell.taken.foldl (Handoff.runJob io) s with shell := s.shell.step .loopReturn }
  | .changes device => { s with device }

/-! ## What the callables leave -/

/-- The reply that the result of a callable deserves. -/
def Device.replyOf (device : σ) : Work → HttpReply
  | .cmd line => (200, cmdReply (io.execute device line).2.2 (io.execute device line).2.1)
  | .config doc restart =>
      let (_, ok, bytes) := io.writeFile device doc
      if ok = false ∨ bytes = 0 then WRITE_FAILED else writtenReply restart bytes

theorem Device.result_reply (device : σ) (work : Work) :
    (io.result device work).reply work = io.replyOf device work := by
  cases work with
  | cmd line => rfl
  | config doc restart =>
      obtain ⟨device', ok, bytes, written⟩ : ∃ device' ok bytes,
          io.writeFile device doc = (device', ok, bytes) := ⟨_, _, _, rfl⟩
      simp only [Device.result, Shared.reply, Device.replyOf, written]
      cases ok <;> simp

/-- The request that a job is for. -/
def requestOf : Job Sink (Callable κ) → Option (Nat × Work)
  | .call (.request number work) => some (number, work)
  | _ => none

def requestsOf (jobs : List (Job Sink (Callable κ))) : List (Nat × Work) :=
  jobs.filterMap requestOf

def Ran.key (r : Ran σ) : Nat × Work := (r.number, r.work)

/-- What is shared with the routes is what the callables that were run left there. -/
structure Results (s : Handoff σ Sink κ) : Prop where
  left : ∀ r ∈ s.ran, s.shared r.number = io.result r.before r.work
  others : ∀ n, (∀ r ∈ s.ran, r.number ≠ n) → (s.shared n).done = false
  restart : s.restartPending = true ↔ ∃ r ∈ s.ran, io.restarts r.before r.work = true

variable {io} {s : Handoff σ Sink κ}

theorem Results.runRequest (h : Results io s) {number : Nat} (work : Work)
    (first : ∀ r ∈ s.ran, r.number ≠ number) :
    Results io (s.runJob io (.call (.request number work))) where
  left := by
    refine List.forall_mem_append.mpr ⟨fun r mem => ?_, ?_⟩
    · exact (Function.update_of_ne (first r mem) ..).trans (h.left r mem)
    · simp [Handoff.runJob]
  others := by
    intro n absent
    simp only [Handoff.runJob, List.mem_append, List.mem_singleton] at absent ⊢
    have other : n ≠ number := fun same => absent _ (.inr rfl) same.symm
    rw [Function.update_of_ne other]
    exact h.others n fun r mem => absent r (.inl mem)
  restart := by
    simp only [Handoff.runJob, Bool.or_eq_true, h.restart, List.mem_append, List.mem_singleton]
    constructor
    · rintro (⟨r, mem, restarts⟩ | restarts)
      · exact ⟨r, .inl mem, restarts⟩
      · exact ⟨_, .inr rfl, restarts⟩
    · rintro ⟨r, mem | rfl, restarts⟩
      · exact .inl ⟨r, mem, restarts⟩
      · exact .inr restarts

/-- The jobs of a turn of the main loop. -/
theorem Results.runJobs (h : Results io s) (jobs : List (Job Sink (Callable κ)))
    (once : ((s.ran.map Ran.key ++ requestsOf jobs).map Prod.fst).Nodup) :
    ∃ device shared restartPending ran, jobs.foldl (Handoff.runJob io) s =
        { s with device, shared, restartPending, ran } ∧
      Results io (jobs.foldl (Handoff.runJob io) s) ∧
      ran.map Ran.key = s.ran.map Ran.key ++ requestsOf jobs ∧ s.ran ⊆ ran := by
  induction jobs generalizing s with
  | nil => exact ⟨_, _, _, _, rfl, h, by simp [requestsOf], fun _ => id⟩
  | cons job jobs ih =>
      rw [List.foldl_cons]
      cases job with
      | execute line sink =>
          exact ih (s := s.runJob io (.execute line sink)) ⟨h.left, h.others, h.restart⟩ once
      | call fn =>
          cases fn with
          | other work =>
              exact ih (s := s.runJob io (.call (.other work))) ⟨h.left, h.others, h.restart⟩ once
          | request number work =>
              have keys : (s.runJob io (.call (.request number work))).ran.map Ran.key ++
                  requestsOf jobs = s.ran.map Ran.key ++
                    requestsOf (.call (.request number work) :: jobs) := by
                simp [Handoff.runJob, requestsOf, requestOf, Ran.key]
              have first : ∀ r ∈ s.ran, r.number ≠ number := by
                intro r mem same
                rw [List.map_append, List.nodup_append] at once
                refine once.2.2 r.number ?_ number (by simp [requestsOf, requestOf]) same
                exact List.mem_map_of_mem (List.mem_map_of_mem mem)
              obtain ⟨device, shared, restart, ran, left, results, logged, kept⟩ :=
                ih (h.runRequest work first) (by rw [keys]; exact once)
              exact ⟨device, shared, restart, ran, left, results, logged.trans keys,
                fun r mem => kept (List.mem_append_left _ mem)⟩

/-! ## Every interleaving -/

variable (io) in
/-- A reply says that the ring was full, and then the callable is never run; or that the time was
up; or it is the reply that the callable of this request earned when it was run. -/
def Own (s : Handoff σ Sink κ) (q : Nat × HttpReply) : Prop :=
  q.2 = SHELL_BUSY ∧ (∀ p ∈ requestsOf s.shell.accepted, p.1 ≠ q.1) ∨
    ∃ work, (q.1, work) ∈ requestsOf s.shell.accepted ∧ (q.2 = timeoutReply work ∨
      ∃ r ∈ s.ran, r.number = q.1 ∧ r.work = work ∧ q.2 = io.replyOf r.before work)

variable (io) in
structure HandoffInv (s : Handoff σ Sink κ) : Prop where
  order : s.shell.InOrder
  numbered : ((requestsOf s.shell.accepted).map Prod.fst).Pairwise (· < ·)
  below : ∀ q ∈ requestsOf s.shell.accepted, q.1 < s.asked
  logged : s.ran.map Ran.key = requestsOf s.shell.ran
  results : Results io s
  waits : ∀ w ∈ s.waiting, (w.number, w.work) ∈ requestsOf s.shell.accepted
  answered : s.replies.map Prod.fst ++ (s.waiting.map Wait.number).toList = List.range s.asked
  own : ∀ q ∈ s.replies, Own io s q

variable {t : Handoff σ Sink κ}

theorem Own.mono {q : Nat × HttpReply} (own : Own io s q) (before : q.1 < s.asked)
    (more : ∀ p ∈ requestsOf s.shell.accepted, p ∈ requestsOf t.shell.accepted)
    (fresh : ∀ p ∈ requestsOf t.shell.accepted,
      p ∈ requestsOf s.shell.accepted ∨ s.asked ≤ p.1)
    (ran : s.ran ⊆ t.ran) : Own io t q := by
  obtain ⟨busy, never⟩ | ⟨work, accepted, timeout | ⟨r, mem, rest⟩⟩ := own
  · refine .inl ⟨busy, fun p mem => ?_⟩
    obtain old | new := fresh p mem
    · exact never p old
    · exact (Nat.lt_of_lt_of_le before new).ne'
  · exact .inr ⟨work, more _ accepted, .inl timeout⟩
  · exact .inr ⟨work, more _ accepted, .inr ⟨r, ran mem, rest⟩⟩

theorem HandoffInv.asked_of_mem (h : HandoffInv io s) {q : Nat × HttpReply} (mem : q ∈ s.replies) :
    q.1 < s.asked := by
  rw [← List.mem_range, ← h.answered]
  exact List.mem_append_left _ (List.mem_map_of_mem mem)

/-- The requests among the jobs that were run are among those accepted. -/
theorem HandoffInv.ran_accepted (h : HandoffInv io s) {r : Ran σ} (mem : r ∈ s.ran) :
    r.key ∈ requestsOf s.shell.accepted := by
  have ran : r.key ∈ requestsOf s.shell.ran := h.logged ▸ List.mem_map_of_mem mem
  rw [h.order.accounted]
  simp only [requestsOf, List.filterMap_append, List.mem_append]
  exact .inl (.inl ran)

theorem boot_handoffInv (device : σ) :
    HandoffInv io (Handoff.boot device : Handoff σ Sink κ) where
  order := Dispatcher.boot_inOrder
  numbered := by simp [Handoff.boot, Dispatcher.boot, requestsOf]
  below := by simp [Handoff.boot, Dispatcher.boot, requestsOf]
  logged := by simp [Handoff.boot, Dispatcher.boot, requestsOf]
  results := ⟨by simp [Handoff.boot], fun _ _ => rfl, by simp [Handoff.boot]⟩
  waits := by simp [Handoff.boot]
  answered := by simp [Handoff.boot]
  own := by simp [Handoff.boot]

/-- The ring moves on, but for requests. -/
theorem HandoffInv.moves (h : HandoffInv io s) (e : ShellEvent Sink (Callable κ))
    (accepted : requestsOf (s.shell.step e).accepted = requestsOf s.shell.accepted)
    (ran : (s.shell.step e).ran = s.shell.ran) :
    HandoffInv io { s with shell := s.shell.step e } where
  order := h.order.step e
  numbered := accepted ▸ h.numbered
  below := accepted ▸ h.below
  logged := by rw [h.logged, ran]
  results := ⟨h.results.left, h.results.others, h.results.restart⟩
  waits := accepted ▸ h.waits
  answered := h.answered
  own := fun q mem => (h.own q mem).mono (h.asked_of_mem mem)
    (fun p mem => accepted ▸ mem) (fun p mem => .inl (accepted ▸ mem)) (fun _ => id)

theorem HandoffInv.poll (h : HandoffInv io s) {w : Wait} (waiting : s.waiting = some w) :
    HandoffInv io (s.poll w) := by
  have accepted := h.waits w waiting
  have answered := h.answered
  rw [waiting] at answered
  simp only [Handoff.poll]
  split
  · exact ⟨h.order, h.numbered, h.below, h.logged,
      ⟨h.results.left, h.results.others, h.results.restart⟩, by rintro _ ⟨⟩; exact accepted,
      answered, h.own⟩
  next ended =>
    refine ⟨h.order, h.numbered, h.below, h.logged,
      ⟨h.results.left, h.results.others, h.results.restart⟩, by simp, by simpa using answered, ?_⟩
    refine List.forall_mem_append.mpr ⟨h.own, List.forall_mem_singleton.mpr ?_⟩
    refine .inr ⟨w.work, accepted, ?_⟩
    cases finished : (s.shared w.number).done with
    | false => exact .inl rfl
    | true =>
        have ran : ∃ r ∈ s.ran, r.number = w.number := by
          by_contra none_
          push Not at none_
          rw [h.results.others w.number none_] at finished
          cases finished
        obtain ⟨r, mem, number⟩ := ran
        have work : r.work = w.work := by
          have keys := h.ran_accepted mem
          have same := List.inj_on_of_nodup_map (h.numbered.imp Nat.ne_of_lt) keys accepted number
          exact congrArg Prod.snd same
        refine .inr ⟨r, mem, number, work, ?_⟩
        rw [← number, h.results.left r mem, work, Device.result_reply]
        rfl

theorem HandoffInv.request (h : HandoffInv io s) (idle : s.waiting = none) (work : Work) :
    HandoffInv io (s.request work) := by
  have absent : ∀ r ∈ s.ran, r.number ≠ s.asked := fun r mem =>
    (h.below _ (h.ran_accepted mem)).ne
  have results : ∀ t : Handoff σ Sink κ, t.ran = s.ran → t.restartPending = s.restartPending →
      t.shared = Function.update s.shared s.asked .fresh → Results io t := by
    intro t ran restart shared
    refine ⟨fun r mem => ?_, fun n none_ => ?_, by rw [restart, ran, h.results.restart]⟩
    · rw [ran] at mem
      rw [shared, Function.update_of_ne (absent r mem)]
      exact h.results.left r mem
    · rw [ran] at none_
      rw [shared, Function.update_apply]
      split
      · rfl
      · exact h.results.others n none_
  have answered := h.answered
  simp only [idle, Option.map_none, Option.toList_none, List.append_nil] at answered
  have order := h.order.step (.enqueueDeferred (some (.request s.asked work)))
  have ran : (s.shell.step (.enqueueDeferred (some (.request s.asked work)))).ran = s.shell.ran :=
    rfl
  simp only [Handoff.request]
  cases queued : (s.shell.ring.enqueueDeferred (some (.request s.asked work))).1 with
  | false =>
      have accepted : (s.shell.step (.enqueueDeferred (some (.request s.asked work)))).accepted =
          s.shell.accepted := by
        simp [Dispatcher.step, Dispatcher.answered, queued]
      simp only [Bool.not_false, if_true]
      refine ⟨order, ?_, ?_, ?_, results _ rfl rfl rfl, ?_, ?_, ?_⟩
      · rw [accepted]
        exact h.numbered
      · rw [accepted]
        exact fun q mem => (h.below q mem).trans (Nat.lt_succ_self _)
      · rw [ran]
        exact h.logged
      · simp [idle]
      · simp [idle, List.range_succ, answered]
      · refine List.forall_mem_append.mpr ⟨fun q mem => ?_, List.forall_mem_singleton.mpr ?_⟩
        · refine (h.own q mem).mono (h.asked_of_mem mem) ?_ ?_ (fun _ => id)
          · rw [accepted]
            exact fun _ => id
          · rw [accepted]
            exact fun _ => .inl
        · refine .inl ⟨rfl, ?_⟩
          rw [accepted]
          exact fun p mem => (h.below p mem).ne
  | true =>
      have accepted : requestsOf
          (s.shell.step (.enqueueDeferred (some (.request s.asked work)))).accepted =
            requestsOf s.shell.accepted ++ [(s.asked, work)] := by
        simp [Dispatcher.step, Dispatcher.answered, queued, requestsOf, requestOf]
      simp only [Bool.not_true, Bool.false_eq_true, if_false]
      refine ⟨order, ?_, ?_, ?_, results _ rfl rfl rfl, ?_, ?_, ?_⟩
      · rw [accepted, List.map_append]
        refine List.pairwise_append.mpr ⟨h.numbered, List.pairwise_singleton .., ?_⟩
        rintro n mem _ (- | ⟨-, ⟨⟩⟩)
        obtain ⟨q, held, rfl⟩ := List.mem_map.mp mem
        exact h.below q held
      · rw [accepted]
        refine List.forall_mem_append.mpr ⟨fun q mem => ?_, by simp⟩
        exact (h.below q mem).trans (Nat.lt_succ_self _)
      · rw [ran]
        exact h.logged
      · rw [accepted]
        rintro _ ⟨⟩
        simp
      · simp [List.range_succ, answered]
      · intro q mem
        refine (h.own q mem).mono (h.asked_of_mem mem) ?_ ?_ (fun _ => id)
        · rw [accepted]
          exact fun _ => List.mem_append_left _
        · rw [accepted]
          exact List.forall_mem_append.mpr ⟨fun _ => .inl, by simp⟩

/-- The main loop runs what it took off the ring. -/
theorem HandoffInv.loopReturn (h : HandoffInv io s) :
    HandoffInv io (handoffStep io s .loopReturn) := by
  have split : requestsOf s.shell.accepted =
      requestsOf s.shell.ran ++ requestsOf s.shell.taken ++ requestsOf s.shell.ring.undrained := by
    rw [h.order.accounted]
    simp [requestsOf]
  have once : ((s.ran.map Ran.key ++ requestsOf s.shell.taken).map Prod.fst).Nodup := by
    have numbered := h.numbered.imp Nat.ne_of_lt
    rw [split, List.map_append] at numbered
    rw [h.logged]
    exact (List.nodup_append.mp numbered).1
  obtain ⟨device, shared, restart, ran, left, results, logged, kept⟩ :=
    h.results.runJobs s.shell.taken once
  have returned : (s.shell.step .loopReturn).accepted = s.shell.accepted ∧
      (s.shell.step .loopReturn).ran = s.shell.ran ++ s.shell.taken := by
    cases busy : s.shell.loop <;> simp [Dispatcher.step, Dispatcher.taken, busy]
  rw [left] at results
  simp only [handoffStep, left]
  refine ⟨h.order.step .loopReturn, ?_, ?_, ?_,
    ⟨results.left, results.others, results.restart⟩, ?_, h.answered, ?_⟩
  · rw [returned.1]
    exact h.numbered
  · rw [returned.1]
    exact h.below
  · rw [returned.2, logged, h.logged]
    simp [requestsOf]
  · rw [returned.1]
    exact h.waits
  · intro q mem
    refine (h.own q mem).mono (h.asked_of_mem mem) ?_ ?_ kept
    · rw [returned.1]
      exact fun _ => id
    · rw [returned.1]
      exact fun _ => .inl

theorem handoffStep_inv (s : Handoff σ Sink κ) (e : HandoffEvent σ Sink κ)
    (h : HandoffInv io s) : HandoffInv io (handoffStep io s e) := by
  cases e with
  | request work =>
      simp only [handoffStep]
      cases waiting : s.waiting with
      | none => exact h.request waiting work
      | some w => exact h
  | poll =>
      simp only [handoffStep]
      cases waiting : s.waiting with
      | none => exact h
      | some w => exact h.poll waiting
  | enqueue line sink =>
      refine h.moves _ ?_ rfl
      simp only [Dispatcher.step, Dispatcher.answered]
      split
      · cases line <;> simp [requestsOf, requestOf]
      · rfl
  | deferWork work =>
      refine h.moves _ ?_ rfl
      simp only [Dispatcher.step, Dispatcher.answered]
      split
      · simp [requestsOf, requestOf]
      · rfl
  | loopEnter =>
      refine h.moves _ ?_ ?_
      · cases busy : s.shell.loop <;> simp [Dispatcher.step, busy]
      · cases busy : s.shell.loop <;> simp [Dispatcher.step, busy]
  | loopReturn => exact h.loopReturn
  | changes device =>
      exact ⟨h.order, h.numbered, h.below, h.logged,
        ⟨h.results.left, h.results.others, h.results.restart⟩, h.waits, h.answered, h.own⟩

/-- However calls, waits and turns of the main loop come in between: every request but the one
that waits has one reply. It is that the ring was full, of a callable that is never run, or that
the time was up, or what its own callable did when it was run, and not that of another request that
was late. No callable is run twice, they are run in the order of the requests, and the unit restarts
when one of them wrote the configuration and asks for it. -/
theorem deferred_replies_own (io : Device σ κ) (device : σ) (es : List (HandoffEvent σ Sink κ)) :
    let s := run (handoffStep io) (Handoff.boot device) es
    s.replies.map Prod.fst ++ (s.waiting.map Wait.number).toList = List.range s.asked ∧
    (∀ q ∈ s.replies, Own io s q) ∧
    (s.ran.map Ran.number).Pairwise (· < ·) ∧
    (∀ r ∈ s.ran, r.key ∈ requestsOf s.shell.accepted) ∧
    (s.restartPending = true ↔ ∃ r ∈ s.ran, io.restarts r.before r.work = true) := by
  intro s
  have inv : HandoffInv io s :=
    run_invariant (fun s e h => handoffStep_inv s e h) (boot_handoffInv device) es
  refine ⟨inv.answered, inv.own, ?_, fun r mem => inv.ran_accepted mem, inv.results.restart⟩
  have numbers : s.ran.map Ran.number = (requestsOf s.shell.ran).map Prod.fst := by
    rw [← inv.logged, List.map_map]
    rfl
  have numbered := inv.numbered
  rw [inv.order.accounted] at numbered
  simp only [requestsOf, List.filterMap_append, List.map_append, List.append_assoc] at numbered
  rw [numbers]
  exact (List.pairwise_append.mp numbered).1

end Handoff

end Thesada.Http
