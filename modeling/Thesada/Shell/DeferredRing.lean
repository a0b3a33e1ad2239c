import Thesada.Library.CString
import Thesada.Library.Machine
import Thesada.Library.RingBuffer

/-!
# The deferred dispatcher of the shell

A command that must not run in a network callback is put in a ring of four slots, and the
main loop runs one a turn. `Shell::enqueue` stages a command line, `Shell::enqueueDeferred`
a callable. Any task may call them; each critical section is one event of a run.

`Shell::loop` is two events: its critical section moves the head slot into locals, and the
dispatch runs them outside the lock, so that calls can come in between. Only the main loop
calls it.
-/

namespace Thesada.Shell

open CString

def DEFERRED_RING_SIZE : Nat := 4
def DEFERRED_LINE_LEN : Nat := 256

inductive SlotMode where
  | empty
  | shell
  | handler
  deriving DecidableEq

/-- An empty `std::function` is `none`, also one that was moved from. -/
structure DeferredSlot (Sink Fn : Type*) where
  mode : SlotMode
  line : Str
  sink : Option Sink
  fn : Option Fn
  active : Bool

/-- What a slot stands for: the call of `execute` or of the callable it leads to. -/
inductive Job (Sink Fn : Type*) where
  | execute (line : Str) (sink : Option Sink)
  | call (fn : Fn)
  deriving DecidableEq

structure ShellRing (Sink Fn : Type*) where
  ring : Nat → DeferredSlot Sink Fn
  ringHead : Nat
  ringTail : Nat

/-- The locals of `Shell::loop` after its critical section. -/
structure LoopLocals (Sink Fn : Type*) where
  mode : SlotMode
  line : Str
  sink : Option Sink
  fn : Option Fn

variable {Sink Fn : Type*}

/-- The job in a slot, when its mode and payload make one. -/
def DeferredSlot.job (slot : DeferredSlot Sink Fn) : Option (Job Sink Fn) :=
  match slot.mode, slot.fn with
  | .shell, _ => some (.execute slot.line slot.sink)
  | .handler, some fn => some (.call fn)
  | _, _ => none

/-- A pointer to a C string may be null. -/
def shellFits (s : Option Str) (cap : Nat) : Bool :=
  match s with
  | none => false
  | some s => decide (s.length < cap)

/-- What the rest of `Shell::loop` runs. -/
def LoopLocals.dispatch (locals : LoopLocals Sink Fn) : List (Job Sink Fn) :=
  match locals.mode, locals.fn with
  | .shell, _ => [.execute locals.line locals.sink]
  | .handler, some fn => [.call fn]
  | _, _ => []

namespace ShellRing

/-- The slot after `_ringTail`. -/
def next (r : ShellRing Sink Fn) : Nat := (r.ringTail + 1) % DEFERRED_RING_SIZE

/-- The critical section of both calls: the tail slot is filled unless the ring is full. -/
def stage (r : ShellRing Sink Fn) (slot : DeferredSlot Sink Fn) : Bool × ShellRing Sink Fn :=
  if r.next ≠ r.ringHead then
    (true, { r with
      ring := fun i => if i = r.ringTail then slot else r.ring i, ringTail := r.next })
  else (false, r)

/-- `Shell::enqueue`. -/
def enqueue (r : ShellRing Sink Fn) (line : Option Str) (sink : Option Sink) :
    Bool × ShellRing Sink Fn :=
  match line with
  | none => (false, r)
  | some text =>
      if text.length = 0 then (false, r)
      else if !shellFits line DEFERRED_LINE_LEN then (false, r)
      else
        r.stage { mode := .shell, line := text.take (DEFERRED_LINE_LEN - 1), sink, fn := none,
                  active := true }

/-- `Shell::enqueueDeferred`. -/
def enqueueDeferred (r : ShellRing Sink Fn) (fn : Option Fn) : Bool × ShellRing Sink Fn :=
  match fn with
  | none => (false, r)
  | some _ => r.stage { mode := .handler, line := [], sink := none, fn, active := true }

/-- What the loop copies and moves out of a slot. -/
def payload (slot : DeferredSlot Sink Fn) : LoopLocals Sink Fn where
  mode := slot.mode
  line := if slot.mode = .shell then slot.line else []
  sink := if slot.mode = .shell then slot.sink else none
  fn := if slot.mode = .handler then slot.fn else none

/-- What is left of a slot whose payload was moved out. -/
def moved (slot : DeferredSlot Sink Fn) : DeferredSlot Sink Fn where
  mode := .empty
  line := slot.line
  sink := if slot.mode = .shell then none else slot.sink
  fn := if slot.mode = .handler then none else slot.fn
  active := false

/-- The critical section of `Shell::loop`. -/
def drain (r : ShellRing Sink Fn) : LoopLocals Sink Fn × ShellRing Sink Fn :=
  if r.ringHead ≠ r.ringTail ∧ (r.ring r.ringHead).active then
    (payload (r.ring r.ringHead),
      { r with
        ring := fun i => if i = r.ringHead then moved (r.ring r.ringHead) else r.ring i
        ringHead := (r.ringHead + 1) % DEFERRED_RING_SIZE })
  else ({ mode := .empty, line := [], sink := none, fn := none }, r)

/-- The entries between head and tail. -/
def used (r : ShellRing Sink Fn) : Nat :=
  (r.ringTail + DEFERRED_RING_SIZE - r.ringHead) % DEFERRED_RING_SIZE

/-- The jobs the ring holds, oldest first. -/
def undrained (r : ShellRing Sink Fn) : List (Job Sink Fn) :=
  (List.range r.used).filterMap fun i => (r.ring ((r.ringHead + i) % DEFERRED_RING_SIZE)).job

/-- The ring of a boot: zeroed slots. -/
def boot : ShellRing Sink Fn where
  ring := fun _ => { mode := .empty, line := [], sink := none, fn := none, active := false }
  ringHead := 0
  ringTail := 0

end ShellRing

/-- The ring, the locals of a `Shell::loop` under way, and two notes for statements: the
jobs of the calls that returned true and the jobs that were run, in order. -/
structure Dispatcher (Sink Fn : Type*) where
  ring : ShellRing Sink Fn
  loop : Option (LoopLocals Sink Fn)
  accepted : List (Job Sink Fn)
  ran : List (Job Sink Fn)

inductive ShellEvent (Sink Fn : Type*) where
  | enqueue (line : Option Str) (sink : Option Sink)
  | enqueueDeferred (fn : Option Fn)
  /-- `Shell::loop` is entered and passes its critical section. -/
  | loopEnter
  /-- `Shell::loop` runs what it took and returns. -/
  | loopReturn

namespace Dispatcher

/-- A call that came back with its answer: an accepted one is noted with its job. -/
def answered (d : Dispatcher Sink Fn) (answer : Bool × ShellRing Sink Fn)
    (job : Option (Job Sink Fn)) : Dispatcher Sink Fn :=
  { d with
    ring := answer.2
    accepted := if answer.1 then d.accepted ++ job.toList else d.accepted }

/-- A second `Shell::loop` does not start before the first returned. -/
def step (d : Dispatcher Sink Fn) : ShellEvent Sink Fn → Dispatcher Sink Fn
  | .enqueue line sink => d.answered (d.ring.enqueue line sink) (line.map (.execute · sink))
  | .enqueueDeferred fn => d.answered (d.ring.enqueueDeferred fn) (fn.map .call)
  | .loopEnter =>
      match d.loop with
      | some _ => d
      | none => { d with loop := some d.ring.drain.1, ring := d.ring.drain.2 }
  | .loopReturn =>
      match d.loop with
      | none => d
      | some locals => { d with loop := none, ran := d.ran ++ locals.dispatch }

def boot : Dispatcher Sink Fn where
  ring := ShellRing.boot
  loop := none
  accepted := []
  ran := []

end Dispatcher

/-! ## The ring holds the jobs in order -/

namespace ShellRing

/-- The ring with `count` entries from its head on; a slot is marked while it is active. -/
def view (r : ShellRing Sink Fn) (count : Nat) : RingBuffer (DeferredSlot Sink Fn) where
  slot := fun i => { value := r.ring i, valid := (r.ring i).active }
  head := r.ringHead
  tail := r.ringTail
  count := count

/-- The ring holds these jobs, one slot stays free, and only the jobs' slots are active. -/
structure Holds (r : ShellRing Sink Fn) (jobs : List (Job Sink Fn)) : Prop where
  room : jobs.length < DEFERRED_RING_SIZE
  laid : (r.view jobs.length).Laid DEFERRED_RING_SIZE
  items : ((r.view jobs.length).items DEFERRED_RING_SIZE).map DeferredSlot.job = jobs.map some

theorem boot_holds : (boot : ShellRing Sink Fn).Holds [] := by
  refine ⟨Nat.zero_lt_succ 3, ⟨Nat.zero_lt_succ 3, Nat.zero_le 4, rfl, ?_⟩, rfl⟩
  intro i _
  simp [boot, view]

theorem Holds.tail_eq {r : ShellRing Sink Fn} {jobs : List (Job Sink Fn)} (h : r.Holds jobs) :
    r.ringTail = (r.ringHead + jobs.length) % DEFERRED_RING_SIZE := h.laid.tail_eq

theorem Holds.head_lt {r : ShellRing Sink Fn} {jobs : List (Job Sink Fn)} (h : r.Holds jobs) :
    r.ringHead < DEFERRED_RING_SIZE := h.laid.head_lt

theorem Holds.used_eq {r : ShellRing Sink Fn} {jobs : List (Job Sink Fn)} (h : r.Holds jobs) :
    r.used = jobs.length := by
  have head := h.head_lt
  have tail := h.tail_eq
  have room := h.room
  unfold used
  unfold DEFERRED_RING_SIZE at *
  omega

theorem Holds.undrained_eq {r : ShellRing Sink Fn} {jobs : List (Job Sink Fn)}
    (h : r.Holds jobs) : r.undrained = jobs := by
  have items := h.items
  have mapped : r.undrained =
      (((r.view jobs.length).items DEFERRED_RING_SIZE).map DeferredSlot.job).filterMap id := by
    rw [undrained, h.used_eq, RingBuffer.items, List.map_map, List.filterMap_map]
    rfl
  rw [mapped, items, List.filterMap_map]
  exact List.filterMap_some

/-- The full test of both calls. -/
theorem Holds.full_iff {r : ShellRing Sink Fn} {jobs : List (Job Sink Fn)} (h : r.Holds jobs) :
    r.next = r.ringHead ↔ jobs.length = DEFERRED_RING_SIZE - 1 := by
  have head := h.head_lt
  have tail := h.tail_eq
  have room := h.room
  unfold next
  unfold DEFERRED_RING_SIZE at *
  omega

theorem Holds.empty_iff {r : ShellRing Sink Fn} {jobs : List (Job Sink Fn)} (h : r.Holds jobs) :
    r.ringHead = r.ringTail ↔ jobs = [] := by
  have head := h.head_lt
  have tail := h.tail_eq
  have room := h.room
  rw [← List.length_eq_zero_iff]
  unfold DEFERRED_RING_SIZE at *
  omega

/-- The loop runs the job of the slot it took. -/
theorem payload_dispatch {slot : DeferredSlot Sink Fn} {job : Job Sink Fn}
    (filled : slot.job = some job) : (payload slot).dispatch = [job] := by
  obtain ⟨mode, line, sink, fn, active⟩ := slot
  cases mode with
  | empty => cases filled
  | shell =>
      cases filled
      rfl
  | handler =>
      cases fn with
      | none => cases filled
      | some fn =>
          cases filled
          rfl

/-- A filled slot goes behind the others, unless the ring is full. -/
theorem Holds.stage {r : ShellRing Sink Fn} {jobs : List (Job Sink Fn)} (h : r.Holds jobs)
    {slot : DeferredSlot Sink Fn} {job : Job Sink Fn} (active : slot.active = true)
    (filled : slot.job = some job) :
    jobs.length = DEFERRED_RING_SIZE - 1 ∧ r.stage slot = (false, r) ∨
      jobs.length ≠ DEFERRED_RING_SIZE - 1 ∧ (r.stage slot).1 = true ∧
        (r.stage slot).2.Holds (jobs ++ [job]) := by
  by_cases full : r.next = r.ringHead
  · left
    exact ⟨h.full_iff.mp full, if_neg (not_not_intro full)⟩
  · right
    have short : jobs.length ≠ DEFERRED_RING_SIZE - 1 := fun same => full (h.full_iff.mpr same)
    have staged : r.stage slot = (true, { r with
        ring := fun i => if i = r.ringTail then slot else r.ring i, ringTail := r.next }) :=
      if_pos full
    have room := h.room
    have size : (jobs ++ [job]).length = jobs.length + 1 := by simp
    have pushed : (r.stage slot).2.view (jobs ++ [job]).length =
        (r.view jobs.length).push DEFERRED_RING_SIZE slot := by
      rw [staged, size]
      simp only [view, RingBuffer.push, RingBuffer.setSlot, RingBuffer.mk.injEq, next, and_true]
      funext i
      by_cases tail : i = r.ringTail
      · simp [tail, active]
      · simp [tail]
    refine ⟨short, by rw [staged], ?_, ?_, ?_⟩
    · rw [size]
      unfold DEFERRED_RING_SIZE at *
      omega
    · rw [pushed]
      exact RingBuffer.push_laid h.laid room slot
    · rw [pushed, RingBuffer.push_items h.laid room slot, List.map_append, List.map_append,
        h.items]
      simp [filled]

/-- The loop takes the head slot out of a ring that holds something: it is popped and emptied. -/
theorem drain_view {r : ShellRing Sink Fn} {n : Nat} (busy : r.ringHead ≠ r.ringTail)
    (active : (r.ring r.ringHead).active = true) :
    r.drain.2.view n = ((r.view (n + 1)).pop DEFERRED_RING_SIZE).setSlot r.ringHead
      { value := moved (r.ring r.ringHead), valid := false } := by
  have drained : r.drain = _ := if_pos ⟨busy, active⟩
  rw [drained]
  simp only [view, RingBuffer.pop, RingBuffer.skip, RingBuffer.setSlot, RingBuffer.mk.injEq,
    Nat.add_sub_cancel, and_true]
  funext i
  by_cases head : i = r.ringHead
  · simp [head, moved]
  · simp [head]

/-- The critical section of the loop takes the oldest job, which the rest of it runs. -/
theorem Holds.drain {r : ShellRing Sink Fn} {jobs : List (Job Sink Fn)} (h : r.Holds jobs) :
    ∃ rest, jobs = r.drain.1.dispatch ++ rest ∧ r.drain.2.Holds rest ∧
      (r.drain.1.dispatch = [] → rest = []) := by
  cases jobs with
  | nil =>
      have idle : ¬(r.ringHead ≠ r.ringTail ∧ (r.ring r.ringHead).active) :=
        fun busy => busy.1 (h.empty_iff.mpr rfl)
      have same : r.drain = ({ mode := .empty, line := [], sink := none, fn := none }, r) :=
        if_neg idle
      rw [same]
      exact ⟨[], rfl, h, fun _ => rfl⟩
  | cons job rest =>
      have pos : 0 < (r.view (job :: rest).length).count := Nat.zero_lt_succ _
      obtain ⟨popped, front⟩ := RingBuffer.pop_laid h.laid pos
      have items := h.items
      rw [front, List.map_cons, List.map_cons, List.cons.injEq] at items
      obtain ⟨oldest, others⟩ := items
      have oldest : (r.ring r.ringHead).job = some job := oldest
      -- the head slot is marked, so the loop takes it
      have active : (r.ring r.ringHead).active = true := by
        have marked := h.laid.valid 0 (Nat.zero_lt_of_lt h.head_lt)
        rw [RingBuffer.place_zero h.head_lt, decide_eq_true pos] at marked
        exact marked
      have busy : r.ringHead ≠ r.ringTail ∧ (r.ring r.ringHead).active = true :=
        ⟨fun same => List.cons_ne_nil _ _ (h.empty_iff.mp same), active⟩
      have drained : r.drain = _ := if_pos busy
      have run : r.drain.1.dispatch = [job] := by
        rw [drained]
        exact payload_dispatch oldest
      have left_over : r.drain.2.view rest.length =
          ((r.view (job :: rest).length).pop DEFERRED_RING_SIZE).setSlot r.ringHead
            { value := moved (r.ring r.ringHead), valid := false } :=
        drain_view busy.1 active
      have unmarked : (((r.view (job :: rest).length).pop DEFERRED_RING_SIZE).slot
          r.ringHead).valid = false := by
        simp [RingBuffer.pop, RingBuffer.skip, RingBuffer.setSlot, view]
      have room := h.room
      have outside : ∀ i < ((r.view (job :: rest).length).pop DEFERRED_RING_SIZE).count,
          ((r.view (job :: rest).length).pop DEFERRED_RING_SIZE).place DEFERRED_RING_SIZE i ≠
            r.ringHead := by
        intro i hi same
        have free := popped.valid i (Nat.lt_of_lt_of_le hi popped.count_le)
        rw [same, unmarked, decide_eq_true hi] at free
        exact Bool.false_ne_true free
      refine ⟨rest, ?_, ⟨Nat.lt_of_succ_lt room, ?_, ?_⟩, ?_⟩
      · rw [run, List.singleton_append]
      · rw [left_over]
        exact RingBuffer.setSlot_laid popped unmarked.symm
      · rw [left_over, RingBuffer.items_setSlot _ _ _ outside]
        exact others
      · intro nothing
        rw [run] at nothing
        cases nothing

/-- What a call answers on a ring that holds `jobs`: whether it is refused, and that it
then left the ring alone, or else put its job behind the others. -/
structure Answers (r : ShellRing Sink Fn) (jobs : List (Job Sink Fn))
    (answer : Bool × ShellRing Sink Fn) (job : Option (Job Sink Fn)) (unfit : Prop) : Prop where
  refused_iff : answer.1 = false ↔ jobs.length = DEFERRED_RING_SIZE - 1 ∨ unfit
  unchanged : answer.1 = false → answer.2 = r
  staged : answer.1 = true → answer.2.Holds (jobs ++ job.toList)

theorem Answers.of_unfit {r : ShellRing Sink Fn} {jobs : List (Job Sink Fn)}
    {job : Option (Job Sink Fn)} {unfit : Prop} (refused : unfit) :
    Answers r jobs (false, r) job unfit :=
  ⟨⟨fun _ => Or.inr refused, fun _ => rfl⟩, fun _ => rfl, fun yes => Bool.noConfusion yes⟩

theorem Holds.stage_answers {r : ShellRing Sink Fn} {jobs : List (Job Sink Fn)}
    (h : r.Holds jobs) {slot : DeferredSlot Sink Fn} {job : Job Sink Fn}
    (active : slot.active = true) (filled : slot.job = some job) {unfit : Prop} (fit : ¬unfit) :
    Answers r jobs (r.stage slot) (some job) unfit := by
  obtain ⟨full, refused⟩ | ⟨room, accepted, holds⟩ := h.stage active filled
  · rw [refused]
    exact ⟨⟨fun _ => Or.inl full, fun _ => rfl⟩, fun _ => rfl, fun yes => Bool.noConfusion yes⟩
  · refine ⟨⟨?_, ?_⟩, ?_, fun _ => holds⟩
    · intro no
      exact absurd (accepted.symm.trans no) Bool.true_eq_false.mp
    · intro why
      exact absurd why (not_or.mpr ⟨room, fit⟩)
    · intro no
      exact absurd (accepted.symm.trans no) Bool.true_eq_false.mp

/-- A line that `enqueue` refuses before it looks at the ring. -/
def LineUnfit (line : Option Str) : Prop :=
  line = none ∨ line = some [] ∨ ∃ text, line = some text ∧ DEFERRED_LINE_LEN ≤ text.length

theorem Holds.enqueue {r : ShellRing Sink Fn} {jobs : List (Job Sink Fn)} (h : r.Holds jobs)
    (line : Option Str) (sink : Option Sink) :
    Answers r jobs (r.enqueue line sink) (line.map (.execute · sink)) (LineUnfit line) := by
  cases line with
  | none => exact .of_unfit (Or.inl rfl)
  | some text =>
      by_cases blank : text.length = 0
      · have refused : r.enqueue (some text) sink = (false, r) := if_pos blank
        rw [refused]
        have empty : text = [] := List.length_eq_zero_iff.mp blank
        exact .of_unfit (Or.inr (Or.inl (by rw [empty])))
      by_cases fits : text.length < DEFERRED_LINE_LEN
      · have whole : text.take (DEFERRED_LINE_LEN - 1) = text :=
          List.take_of_length_le (Nat.le_sub_one_of_lt fits)
        have staged : r.enqueue (some text) sink =
            r.stage { mode := .shell, line := text, sink, fn := none, active := true } := by
          simp [ShellRing.enqueue, blank, shellFits, fits, whole]
        have fit : ¬LineUnfit (some text) := by
          rintro (null | empty | ⟨line, same, long⟩)
          · cases null
          · cases empty
            exact blank rfl
          · cases same
            exact Nat.not_lt.mpr long fits
        rw [staged]
        exact h.stage_answers rfl rfl fit
      · have refused : r.enqueue (some text) sink = (false, r) := by
          simp [ShellRing.enqueue, blank, shellFits, fits]
        rw [refused]
        exact .of_unfit (Or.inr (Or.inr ⟨text, rfl, Nat.not_lt.mp fits⟩))

theorem Holds.enqueueDeferred {r : ShellRing Sink Fn} {jobs : List (Job Sink Fn)}
    (h : r.Holds jobs) (fn : Option Fn) :
    Answers r jobs (r.enqueueDeferred fn) (fn.map .call) (fn = none) := by
  cases fn with
  | none => exact .of_unfit rfl
  | some fn => exact h.stage_answers rfl rfl (Option.some_ne_none fn)

end ShellRing

/-! ## Every run of the dispatcher -/

namespace Dispatcher

/-- The job of a `Shell::loop` under way. -/
def taken (d : Dispatcher Sink Fn) : List (Job Sink Fn) :=
  match d.loop with
  | none => []
  | some locals => locals.dispatch

/-- The accepted jobs are those run, then the one under way, then those in the ring. -/
structure InOrder (d : Dispatcher Sink Fn) : Prop where
  holds : d.ring.Holds d.ring.undrained
  accounted : d.accepted = d.ran ++ d.taken ++ d.ring.undrained

theorem boot_inOrder : (boot : Dispatcher Sink Fn).InOrder := by
  have empty : (ShellRing.boot : ShellRing Sink Fn).undrained = [] :=
    ShellRing.boot_holds.undrained_eq
  refine ⟨?_, ?_⟩
  · change (ShellRing.boot : ShellRing Sink Fn).Holds ShellRing.boot.undrained
    rw [empty]
    exact ShellRing.boot_holds
  · change [] = [] ++ [] ++ (ShellRing.boot : ShellRing Sink Fn).undrained
    rw [empty]
    rfl

theorem answered_refused (d : Dispatcher Sink Fn) {answer : Bool × ShellRing Sink Fn}
    {job : Option (Job Sink Fn)} (refused : answer.1 = false) (same : answer.2 = d.ring) :
    d.answered answer job = d := by
  simp [answered, refused, same]

theorem InOrder.answered {d : Dispatcher Sink Fn} (h : d.InOrder)
    {answer : Bool × ShellRing Sink Fn} {job : Option (Job Sink Fn)} {unfit : Prop}
    (told : d.ring.Answers d.ring.undrained answer job unfit) :
    (d.answered answer job).InOrder := by
  cases accepted : answer.1 with
  | false =>
      rw [d.answered_refused accepted (told.unchanged accepted)]
      exact h
  | true =>
      have holds := told.staged accepted
      have now : answer.2.undrained = d.ring.undrained ++ job.toList := holds.undrained_eq
      refine ⟨?_, ?_⟩
      · change answer.2.Holds answer.2.undrained
        rw [now]
        exact holds
      · have noted : (d.answered answer job).accepted = d.accepted ++ job.toList := by
          simp [Dispatcher.answered, accepted]
        change (d.answered answer job).accepted = d.ran ++ d.taken ++ answer.2.undrained
        rw [noted, now, h.accounted, List.append_assoc]

theorem InOrder.step {d : Dispatcher Sink Fn} (h : d.InOrder) (e : ShellEvent Sink Fn) :
    (d.step e).InOrder := by
  cases e with
  | enqueue line sink => exact h.answered (h.holds.enqueue line sink)
  | enqueueDeferred fn => exact h.answered (h.holds.enqueueDeferred fn)
  | loopEnter =>
      cases busy : d.loop with
      | some locals =>
          have same : d.step .loopEnter = d := by simp [Dispatcher.step, busy]
          rw [same]
          exact h
      | none =>
          obtain ⟨rest, split, holds, -⟩ := h.holds.drain
          have entered : d.step .loopEnter =
              { d with loop := some d.ring.drain.1, ring := d.ring.drain.2 } := by
            simp [Dispatcher.step, busy]
          have idle : d.taken = [] := by simp [taken, busy]
          have left : d.ring.drain.2.undrained = rest := holds.undrained_eq
          rw [entered]
          refine ⟨?_, ?_⟩
          · change d.ring.drain.2.Holds d.ring.drain.2.undrained
            rw [left]
            exact holds
          · change d.accepted = d.ran ++ d.ring.drain.1.dispatch ++ d.ring.drain.2.undrained
            rw [left, List.append_assoc, ← split, h.accounted, idle, List.append_nil]
  | loopReturn =>
      cases busy : d.loop with
      | none =>
          have same : d.step .loopReturn = d := by simp [Dispatcher.step, busy]
          rw [same]
          exact h
      | some locals =>
          have returned : d.step .loopReturn =
              { d with loop := none, ran := d.ran ++ locals.dispatch } := by
            simp [Dispatcher.step, busy]
          have under : d.taken = locals.dispatch := by simp [taken, busy]
          rw [returned]
          refine ⟨h.holds, ?_⟩
          change d.accepted = d.ran ++ locals.dispatch ++ [] ++ d.ring.undrained
          rw [h.accounted, under, List.append_nil]

theorem run_inOrder (es : List (ShellEvent Sink Fn)) :
    (Machine.run Dispatcher.step (boot : Dispatcher Sink Fn) es).InOrder :=
  Machine.run_invariant (fun _ e h => h.step e) boot_inOrder es

/-- A `Shell::loop` returns. -/
def returns (d : Dispatcher Sink Fn) : ShellEvent Sink Fn → Bool
  | .loopReturn => d.loop.isSome
  | _ => false

/-- How many more returns it takes until the first `first` accepted jobs are run. A loop that
found the ring empty returns once without running any. -/
def lag (first : Nat) (d : Dispatcher Sink Fn) : Nat :=
  if first ≤ d.ran.length then 0
  else first - d.ran.length + (if d.loop.isSome ∧ d.taken = [] then 1 else 0)

/-- Each return runs a job that is due, and no event puts it off. -/
theorem InOrder.lag_step {d : Dispatcher Sink Fn} (h : d.InOrder) {first : Nat}
    (known : first ≤ d.accepted.length) (e : ShellEvent Sink Fn) :
    lag first (d.step e) ≤ lag first d - (if d.returns e then 1 else 0) := by
  cases e with
  | enqueue line sink => exact Nat.le_refl _
  | enqueueDeferred fn => exact Nat.le_refl _
  | loopEnter =>
      cases busy : d.loop with
      | some locals =>
          have same : d.step .loopEnter = d := by simp [Dispatcher.step, busy]
          rw [same]
          exact Nat.le_refl _
      | none =>
          obtain ⟨rest, split, holds, none_left⟩ := h.holds.drain
          have entered : d.step .loopEnter =
              { d with loop := some d.ring.drain.1, ring := d.ring.drain.2 } := by
            simp [Dispatcher.step, busy]
          have idle : d.taken = [] := by simp [taken, busy]
          have accounted := h.accounted
          rw [idle, List.append_nil, split] at accounted
          have lengths := congrArg List.length accounted
          rw [List.length_append, List.length_append] at lengths
          rw [entered]
          unfold lag
          simp only [returns, busy, Option.isSome_none, Bool.false_eq_true, if_false, false_and,
            Nat.sub_zero, Option.isSome_some, true_and, taken, Nat.add_zero]
          by_cases nothing : d.ring.drain.1.dispatch = []
          · have all : first ≤ d.ran.length := by
              rw [nothing, none_left nothing] at lengths
              exact known.trans (Nat.le_of_eq lengths)
            rw [if_pos all]
            exact Nat.zero_le _
          · rw [if_neg nothing]
            exact Nat.le_refl _
  | loopReturn =>
      cases busy : d.loop with
      | none =>
          have same : d.step .loopReturn = d := by simp [Dispatcher.step, busy]
          rw [same]
          simp [returns, busy]
      | some locals =>
          have returned : d.step .loopReturn =
              { d with loop := none, ran := d.ran ++ locals.dispatch } := by
            simp [Dispatcher.step, busy]
          rw [returned]
          unfold lag
          simp only [returns, busy, Option.isSome_some, if_true, true_and, taken, List.length_append,
            Option.isSome_none, Bool.false_eq_true, false_and, if_false, Nat.add_zero]
          by_cases nothing : locals.dispatch = []
          · simp only [nothing, List.length_nil, if_true, Nat.add_zero]
            split
            · exact Nat.zero_le _
            · omega
          · have some_run : 0 < locals.dispatch.length := List.length_pos_iff.mpr nothing
            rw [if_neg nothing]
            split <;> split <;> omega

theorem InOrder.lag_le {d : Dispatcher Sink Fn} (h : d.InOrder) :
    lag d.accepted.length d ≤ DEFERRED_RING_SIZE := by
  have lengths := congrArg List.length h.accounted
  have room := h.holds.room
  have one : d.taken.length ≤ 1 := by
    unfold taken
    split
    · exact Nat.zero_le 1
    · unfold LoopLocals.dispatch
      split <;> simp
  rw [List.length_append, List.length_append] at lengths
  unfold lag
  split
  · exact Nat.zero_le _
  · split
    · next under =>
        rw [under.2, List.length_nil] at lengths
        omega
    · omega

theorem accepted_step (d : Dispatcher Sink Fn) (e : ShellEvent Sink Fn) :
    d.accepted <+: (d.step e).accepted := by
  have answered (answer : Bool × ShellRing Sink Fn) (job : Option (Job Sink Fn)) :
      d.accepted <+: (d.answered answer job).accepted := by
    unfold Dispatcher.answered
    split <;> simp
  cases e with
  | enqueue line sink => exact answered _ _
  | enqueueDeferred fn => exact answered _ _
  | loopEnter => cases busy : d.loop <;> simp [Dispatcher.step, busy]
  | loopReturn => cases busy : d.loop <;> simp [Dispatcher.step, busy]

/-- An accepted call stays noted. -/
theorem accepted_grows (d : Dispatcher Sink Fn) (later : List (ShellEvent Sink Fn)) :
    d.accepted <+: (Machine.run Dispatcher.step d later).accepted := by
  induction later generalizing d with
  | nil => exact List.prefix_refl _
  | cons e later ih => exact (d.accepted_step e).trans (ih (d.step e))

/-- Once enough loops have returned, the first accepted jobs are run. -/
theorem InOrder.caught_up {d : Dispatcher Sink Fn} (h : d.InOrder)
    {later : List (ShellEvent Sink Fn)}
    (returned : DEFERRED_RING_SIZE ≤ Machine.tally Dispatcher.step returns d later) :
    d.accepted.length ≤ (Machine.run Dispatcher.step d later).ran.length := by
  let inv (d' : Dispatcher Sink Fn) : Prop := d'.InOrder ∧ d.accepted.length ≤ d'.accepted.length
  have kept : ∀ d' e, inv d' → True → inv (d'.step e) := by
    intro d' e ⟨order, known⟩ _
    exact ⟨order.step e, known.trans (d'.accepted_step e).length_le⟩
  have falls : ∀ d' e, inv d' → True →
      lag d.accepted.length (d'.step e) ≤
        lag d.accepted.length d' - (if d'.returns e then 1 else 0) := by
    intro d' e ⟨order, known⟩ _
    exact order.lag_step known e
  have drained := Machine.Meets.tally_drains (lag d.accepted.length) kept falls
    (⟨h, Nat.le_refl _⟩ : inv d) (Machine.meets_of_forall (fun _ _ => trivial) d later)
  have none_due : lag d.accepted.length (Machine.run Dispatcher.step d later) = 0 := by
    have start := h.lag_le
    omega
  unfold lag at none_due
  split at none_due
  · assumption
  · omega

/-- In every interleaving of calls and loops: the jobs of the calls that returned true are
run in the order of the calls, none twice and none left out once four more loops have
returned. A call is refused exactly when the ring holds three jobs or its argument is unfit,
and then changes nothing. -/
theorem deferred_runs_once (es later : List (ShellEvent Sink Fn)) :
    let d := Machine.run Dispatcher.step (boot : Dispatcher Sink Fn) es
    let d' := Machine.run Dispatcher.step d later
    d.accepted = d.ran ++ d.taken ++ d.ring.undrained ∧
    (∀ line sink, ((d.ring.enqueue line sink).1 = false ↔
        d.ring.undrained.length = DEFERRED_RING_SIZE - 1 ∨ line = none ∨ line = some [] ∨
          ∃ text, line = some text ∧ DEFERRED_LINE_LEN ≤ text.length) ∧
      ((d.ring.enqueue line sink).1 = false → d.step (.enqueue line sink) = d)) ∧
    (∀ fn, ((d.ring.enqueueDeferred fn).1 = false ↔
        d.ring.undrained.length = DEFERRED_RING_SIZE - 1 ∨ fn = none) ∧
      ((d.ring.enqueueDeferred fn).1 = false → d.step (.enqueueDeferred fn) = d)) ∧
    (DEFERRED_RING_SIZE ≤ Machine.tally Dispatcher.step returns d later →
      d.accepted <+: d'.ran) := by
  intro d d'
  have order : d.InOrder := run_inOrder es
  have order' : d'.InOrder := by
    have whole : (Machine.run Dispatcher.step (boot : Dispatcher Sink Fn) (es ++ later)).InOrder :=
      run_inOrder (es ++ later)
    rwa [Machine.run_append] at whole
  refine ⟨order.accounted, ?_, ?_, ?_⟩
  · intro line sink
    have told := order.holds.enqueue line sink
    exact ⟨told.refused_iff, fun no => d.answered_refused no (told.unchanged no)⟩
  · intro fn
    have told := order.holds.enqueueDeferred fn
    exact ⟨told.refused_iff, fun no => d.answered_refused no (told.unchanged no)⟩
  · intro returned
    have ran : d'.ran <+: d'.accepted := by
      rw [order'.accounted, List.append_assoc]
      exact List.prefix_append _ _
    exact List.prefix_of_prefix_length_le (accepted_grows d later) ran
      (order.caught_up returned)

end Dispatcher

end Thesada.Shell
