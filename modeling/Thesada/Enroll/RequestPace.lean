import Thesada.Enroll.Revocation

/-!
# How often enrollment asks the app

The app takes 30 requests an hour from a unit. A request that follows a delay is at least
`ENROLL_POLL_MS` behind the one before it, so an hour holds 25 of them. The verify and the first
cert request follow the answer before them at once, and a fallback to announce lets both come
again.

`left` bounds the requests that can still start up to some time. It is a budget: a request takes
one from it, a failed verify gives one back and a refused cert request two.
-/

namespace Thesada.Enroll

open CString Json Machine Thesada.Config Thesada.Mqtt

def HOUR_MS : Nat := 3600000

namespace EnrollUnit

/-- An enrollment request runs. -/
def requesting (u : EnrollUnit) : Bool := u.job.any (!·.isStatusCheck)

/-- The step whose request starts between two states. -/
def requested (u u' : EnrollUnit) : Option EnrollStep :=
  if !u.requesting && u'.requesting then some u.step else none

/-- What a turn takes for the answer to the running request. -/
def answerAt (u : EnrollUnit) (now : Nat) : Option Int :=
  if u.reapStale.stale.isSome then none
  else
    match u.job with
    | none => none
    | some job =>
        if job.isStatusCheck then none
        else if job.done then some job.status
        else if JOB_CEILING_MS < Word32.sub now u.jobAt then some ST_LOCAL
        else none

/-- A verify request that went out brings no 200. -/
def verifyFails (u : EnrollUnit) (now : Nat) : Bool :=
  u.step = .verify && (u.answerAt now).any (· ≠ 200)

/-- A cert request is answered 403. -/
def certRefused (u : EnrollUnit) (now : Nat) : Bool := u.step = .poll && u.answerAt now = some 403

end EnrollUnit

/-! ## Runs with a clock -/

/-- The client at a time that, unlike `millis()`, does not wrap. -/
structure Paced where
  unit : EnrollUnit
  now : Nat

section

variable (deserializeJson : Reader) (tls : Mbedtls) (serialOf : Str → Option Str)

def pacedStep (s : Paced) (e : Nat × EnrollEvent) : Paced :=
  ⟨enrollStep deserializeJson tls serialOf s.unit e.2, e.1⟩

/-- Time passes, and the boot is the one that is running. -/
def WithinBoot (s : Paced) (e : Nat × EnrollEvent) : Prop :=
  s.now ≤ e.1 ∧
    match e.2 with
    | .boot _ => False
    | .loop io => io.now = e.1 % Word32.size
    | _ => True

instance WithinBoot.decidable (s : Paced) : ∀ e, Decidable (WithinBoot s e)
  | (_, .boot _) => isFalse fun within => within.2
  | (t, .loop io) => inferInstanceAs (Decidable (s.now ≤ t ∧ io.now = t % Word32.size))
  | (t, .answer ..) | (t, .lateAnswer ..) | (t, .certSet ..) | (t, .certApply ..)
  | (t, .certClear ..) => inferInstanceAs (Decidable (s.now ≤ t ∧ True))

def inHour (a t : Nat) : Bool := a ≤ t && t ≤ a + HOUR_MS

def requestIn (a : Nat) (s : Paced) (e : Nat × EnrollEvent) : Bool :=
  inHour a e.1 &&
    (s.unit.requested (enrollStep deserializeJson tls serialOf s.unit e.2)).isSome

def verifyFailsIn (a : Nat) (s : Paced) (e : Nat × EnrollEvent) : Bool :=
  match e.2 with
  | .loop io => inHour a e.1 && s.unit.verifyFails io.now
  | _ => false

def certRefusedIn (a : Nat) (s : Paced) (e : Nat × EnrollEvent) : Bool :=
  match e.2 with
  | .loop io => inHour a e.1 && s.unit.certRefused io.now
  | _ => false

end

/-! ## Delays -/

theorem le_backoffBase (failures : Nat) : ENROLL_BACKOFF_MIN_MS ≤ backoffBase failures := by
  induction failures with
  | zero => exact Nat.le_refl _
  | succ n ih =>
      simp only [backoffBase]
      split <;> omega

theorem enrollBackoffMs_bounds (failures rnd : Nat) :
    ENROLL_POLL_MS ≤ enrollBackoffMs failures rnd ∧ enrollBackoffMs failures rnd ≤ 2250000 := by
  have least := le_backoffBase failures
  simp only [enrollBackoffMs, ENROLL_BACKOFF_MIN_MS, ENROLL_BACKOFF_MAX_MS, ENROLL_POLL_MS] at *
  have jitter := Nat.mod_lt rnd (Nat.succ_pos (min (backoffBase failures) 1800000 / 4))
  rw [Nat.succ_eq_add_one] at jitter
  omega

/-! ## The budget -/

/-- How many requests fit from `d` to `b` that keep their distance. -/
def slotsFrom (b d : Nat) : Nat := if d ≤ b then (b - d) / ENROLL_POLL_MS + 1 else 0

theorem slotsFrom_anti {b d d' : Nat} (le : d ≤ d') : slotsFrom b d' ≤ slotsFrom b d := by
  unfold slotsFrom
  split
  · rw [if_pos (by omega)]
    exact Nat.succ_le_succ (Nat.div_le_div_right (by omega))
  · exact Nat.zero_le _

theorem slotsFrom_later {b d : Nat} (le : d ≤ b) :
    slotsFrom b (d + ENROLL_POLL_MS) + 1 = slotsFrom b d := by
  simp only [slotsFrom, if_pos le]
  by_cases more : d + ENROLL_POLL_MS ≤ b
  · have apart : b - d = b - (d + ENROLL_POLL_MS) + ENROLL_POLL_MS := by omega
    rw [if_pos more, apart, Nat.add_div_right _ (by decide)]
  · rw [if_neg more, Nat.div_eq_of_lt (by omega)]

theorem slotsFrom_hour (a d : Nat) (le : a ≤ d) : slotsFrom (a + HOUR_MS) d ≤ 25 := by
  apply (slotsFrom_anti le).trans
  simp [slotsFrom, HOUR_MS, ENROLL_POLL_MS]

/-- How many requests may follow at once on the way from a step. -/
def chain : EnrollStep → Nat
  | .announce => 2
  | .verify => 1
  | .awaitMtls => 1
  | _ => 0

/-- What an answer gives back to the budget. -/
def givesBack (step : EnrollStep) (status : Int) : Nat :=
  (if step = .verify ∧ status ≠ 200 then 1 else 0) + (if step = .poll ∧ status = 403 then 2 else 0)

/-- The budget before an answer covers the step it leads to. -/
theorem enrollOnResponse_pays {b t : Nat} (le : t ≤ b) (step : EnrollStep) (status : Int)
    (failures rnd : Nat) (going : (enrollOnResponse step status failures rnd).next ≠ .done)
    (unstored : ¬(step = .poll ∧ status = 200)) :
    slotsFrom b (t + if (enrollOnResponse step status failures rnd).next = .awaitMtls then
        ENROLL_POLL_MS else (enrollOnResponse step status failures rnd).delayMs) +
      chain (enrollOnResponse step status failures rnd).next ≤
      slotsFrom b (t + ENROLL_POLL_MS) + chain step + givesBack step status := by
  have back := (enrollBackoffMs_bounds failures rnd).1
  have late := slotsFrom_anti (b := b) (Nat.add_le_add_left back t)
  have next := slotsFrom_later le
  cases step with
  | announce =>
      by_cases ok : status = 200 <;> simp [enrollOnResponse, chain, givesBack, ok] <;> omega
  | verify =>
      by_cases ok : status = 200 <;> simp [enrollOnResponse, chain, givesBack, ok] <;> omega
  | poll =>
      have other : status ≠ 200 := fun ok => unstored ⟨rfl, ok⟩
      by_cases none : status = 204
      · simp [enrollOnResponse, chain, givesBack, none]
      · by_cases refused : status = 403 <;>
          simp [enrollOnResponse, chain, givesBack, none, other, refused] <;> omega
  | awaitMtls => simp [enrollOnResponse, chain]
  | ack =>
      by_cases ok : status = 200
      · exact absurd (by simp [enrollOnResponse, ok]) going
      · simpa [enrollOnResponse, chain, givesBack, ok] using late
  | done => exact absurd rfl going

namespace EnrollUnit

variable {u : EnrollUnit}

/-- When the next step is due, or now when it is overdue. -/
def dueAt (u : EnrollUnit) (now : Nat) : Nat :=
  now + if reached now u.nextAt then 0 else Word32.sub u.nextAt now

/-- A bound on the requests that start up to `b`. -/
def left (b : Nat) (u : EnrollUnit) (now : Nat) : Nat :=
  if u.certRebootPending || !u.active then 0
  else
    slotsFrom b
        (if u.requesting || u.step = .awaitMtls then now + ENROLL_POLL_MS else u.dueAt now) +
      chain u.step

theorem reached_mod (t dueAt : Nat) : reached (t % Word32.size) dueAt = reached t dueAt := by
  have same : Word32.sub (t % Word32.size) dueAt = Word32.sub t dueAt := by
    unfold Word32.sub Word32.size
    omega
  rw [reached, same, reached]

theorem dueAt_of_reached {now : Nat} (due : reached now u.nextAt = true) : u.dueAt now = now := by
  rw [dueAt, if_pos due, Nat.add_zero]

theorem le_dueAt (u : EnrollUnit) (now : Nat) : now ≤ u.dueAt now := Nat.le_add_right _ _

/-- A time that is not reached stays where it is. -/
theorem dueAt_mono {t t' : Nat} (le : t ≤ t') : u.dueAt t ≤ u.dueAt t' := by
  by_cases early : t' < u.dueAt t
  · simp only [dueAt, reached, decide_eq_true_eq] at early ⊢
    by_cases due : Word32.sub t u.nextAt < 2 ^ 31
    · rw [if_pos due] at early
      omega
    · rw [if_neg due] at early ⊢
      unfold Word32.sub Word32.size at *
      split <;> omega
  · exact (Nat.not_lt.mp early).trans (le_dueAt u t')

/-- A delay that was set now. -/
theorem dueAt_set {t delay : Nat} (small : delay ≤ 2250000)
    (set : u.nextAt = Word32.add (t % Word32.size) delay) : u.dueAt t = t + delay := by
  simp only [dueAt, reached, decide_eq_true_eq, set]
  unfold Word32.sub Word32.add Word32.size
  split <;> omega

theorem left_mono {b t t' : Nat} (le : t ≤ t') : u.left b t' ≤ u.left b t := by
  unfold left
  split
  · exact Nat.le_refl _
  · refine Nat.add_le_add_right (slotsFrom_anti ?_) _
    split
    · exact Nat.add_le_add_right le _
    · exact dueAt_mono le

/-- In an hour there is room for 25 requests and two more that follow at once. -/
theorem left_hour (a : Nat) {now : Nat} (le : a ≤ now) : u.left (a + HOUR_MS) now ≤ 27 := by
  unfold left
  split
  · exact Nat.zero_le _
  · have steps : chain u.step ≤ 2 := by
      cases u.step <;> decide
    refine Nat.add_le_add (slotsFrom_hour a _ ?_) steps
    split
    · exact le.trans (Nat.le_add_right _ _)
    · exact le.trans (le_dueAt u now)

/-! ### What a turn does to the pace -/

/-- The pace is as it was, but for a reboot that may be scheduled. -/
structure Keeps (u u' : EnrollUnit) : Prop where
  step : u'.step = u.step
  nextAt : u'.nextAt = u.nextAt
  active : u'.active = u.active
  requesting : u'.requesting = u.requesting
  pending : u.certRebootPending = true → u'.certRebootPending = true

/-- An answer was applied. A stored reply schedules the reboot. -/
structure Advanced (u : EnrollUnit) (status : Int) (now : Nat) (u' : EnrollUnit) : Prop where
  follows : ∃ failures rnd,
    u'.step = (enrollOnResponse u.step status failures rnd).next ∧
      u'.nextAt = Word32.add now (enrollOnResponse u.step status failures rnd).delayMs
  active : u'.active = true → u.active = true ∧ u'.step ≠ .done
  idle : u'.requesting = false
  pending : u.certRebootPending = true → u'.certRebootPending = true
  stored : u.step = .poll → status = 200 → u'.certRebootPending = true

/-- What a loop turn does with the requests. -/
inductive Turn (u : EnrollUnit) (io : TurnIo) (u' : EnrollUnit) : Prop where
  | keeps (same : Keeps u u')
  | answered (status applied : Int) (running : u.requesting = true)
      (answer : u.answerAt io.now = some status) (next : Advanced u applied io.now u')
      (pays : givesBack u.step applied ≤ givesBack u.step status)
  | unsent (idle : u.requesting = false) (due : reached io.now u.nextAt = true)
      (waits : u.step ≠ .awaitMtls) (next : Advanced u ST_LOCAL io.now u')
  | sent (idle : u.requesting = false) (due : reached io.now u.nextAt = true)
      (waits : u.step ≠ .awaitMtls) (free : u.certRebootPending = false) (on : u.active = true)
      (step : u'.step = u.step) (requests : u'.requesting = true)
  | stops (inactive : u'.active = false) (step : u'.step = u.step)
      (same : u'.requesting = u.requesting)
  | sessionUp (waits : u.step = .awaitMtls) (up : io.mtlsSessionUp = true) (step : u'.step = .ack)
      (nextAt : u'.nextAt = io.now) (active : u'.active = u.active)
      (pending : u'.certRebootPending = u.certRebootPending)
      (same : u'.requesting = u.requesting)

theorem Keeps.refl (u : EnrollUnit) : Keeps u u := ⟨rfl, rfl, rfl, rfl, id⟩

theorem Keeps.trans {u v w : EnrollUnit} (first : Keeps u v) (second : Keeps v w) : Keeps u w :=
  ⟨second.step.trans first.step, second.nextAt.trans first.nextAt,
    second.active.trans first.active, second.requesting.trans first.requesting,
    fun pending => second.pending (first.pending pending)⟩

@[simp] theorem advance_pending (status : Int) (now rnd : Nat) :
    (u.advance status now rnd).certRebootPending = u.certRebootPending := by
  simp only [advance, scheduleCheck]
  split <;> rfl

theorem advance_advanced (status : Int) (now rnd : Nat) (idle : u.requesting = false)
    (stored : u.step = .poll → status = 200 → u.certRebootPending = true) :
    Advanced u status now (u.advance status now rnd) := by
  have same : (u.advance status now rnd).step =
        (enrollOnResponse u.step status u.failures rnd).next ∧
      (u.advance status now rnd).nextAt =
        Word32.add now (enrollOnResponse u.step status u.failures rnd).delayMs := by
    simp only [advance, scheduleCheck]
    split <;> exact ⟨rfl, rfl⟩
  refine ⟨⟨_, rnd, same.1, same.2⟩, fun active => ?_, ?_, ?_, ?_⟩
  · simp only [advance, scheduleCheck] at active ⊢
    split at active
    · cases active
    · rename_i going
      rw [if_neg going]
      exact ⟨active, going⟩
  · rw [requesting, advance_job]
    exact idle
  · rw [advance_pending]
    exact id
  · rw [advance_pending]
    exact stored

section

variable {deserializeJson : Reader} {tls : Mbedtls} {serialOf : Str → Option Str}

theorem Advanced.of_keeps {u v u' : EnrollUnit} {status : Int} {now : Nat} (same : Keeps u v)
    (next : Advanced v status now u') : Advanced u status now u' := by
  obtain ⟨failures, rnd, step, nextAt⟩ := next.follows
  rw [same.step] at step nextAt
  refine ⟨⟨failures, rnd, step, nextAt⟩, fun active => ?_, next.idle,
    fun pending => next.pending (same.pending pending),
    fun poll => next.stored (same.step.trans poll)⟩
  rw [← same.active]
  exact next.active active

theorem onOk_keeps (reply : Str) (io : TurnIo) :
    Keeps u (u.onOk deserializeJson tls reply io).1 := by
  cases at_step : u.step <;> simp only [onOk, at_step] <;>
    exact ⟨by simp [at_step], rfl, rfl, rfl, by simp +contextual⟩

/-- A verify takes any 200, a poll only one that is stored. -/
theorem onOk_applied (deserializeJson : Reader) (tls : Mbedtls) (u : EnrollUnit) (reply : Str)
    (io : TurnIo) :
    (u.step = .verify → (u.onOk deserializeJson tls reply io).2 = true) ∧
      (u.step = .poll → (u.onOk deserializeJson tls reply io).2 = true →
        (u.onOk deserializeJson tls reply io).1.certRebootPending = true) := by
  constructor
  · intro verify
    simp [onOk, verify]
  · intro poll applied
    simp only [onOk, poll] at applied ⊢
    rw [applied, Bool.or_true]

theorem finishEnroll_advanced (deserializeJson : Reader) (tls : Mbedtls)
    (idle : u.requesting = false) (job : EnrollJob) (io : TurnIo) :
    ∃ applied, Advanced u applied io.now (u.finishEnroll deserializeJson tls job io) ∧
      givesBack u.step applied ≤ givesBack u.step job.status := by
  simp only [finishEnroll]
  split
  · rename_i answered
    have same : Keeps u (u.onOk deserializeJson tls job.reply io).1 := onOk_keeps job.reply io
    obtain ⟨verified, stored⟩ := onOk_applied deserializeJson tls u job.reply io
    refine ⟨_, (advance_advanced _ io.now io.rnd (same.requesting.trans idle) ?_).of_keeps same, ?_⟩
    · intro poll applied
      apply stored (same.step.symm.trans poll)
      split at applied
      · assumption
      · exact absurd applied (by decide)
    · rw [answered]
      cases at_step : u.step with
      | verify => simp [givesBack, verified at_step]
      | poll => split <;> simp [givesBack, ST_UNUSABLE]
      | _ => simp [givesBack]
  · rename_i other
    exact ⟨_, advance_advanced _ io.now io.rnd idle fun _ ok => absurd ok other, Nat.le_refl _⟩

theorem finishCheck_keeps (job : EnrollJob) (io : TurnIo) :
    Keeps u (u.finishCheck deserializeJson job io) := by
  simp only [finishCheck, applyAnswer]
  repeat' split
  all_goals first
    | exact ⟨rfl, rfl, rfl, rfl, id⟩
    | exact ⟨rfl, rfl, rfl, rfl, fun _ => rfl⟩

theorem startCheck_keeps (io : TurnIo) (none : u.job = none) :
    Keeps u (u.startCheck serialOf io) := by
  simp only [startCheck]
  repeat' split
  all_goals exact ⟨rfl, rfl, rfl, by simp [requesting, checkUnanswered, scheduleCheck, none], id⟩

theorem startJob_turn (io : TurnIo) (idle : u.requesting = false)
    (free : u.certRebootPending = false) (on : u.active = true) (waits : u.step ≠ .awaitMtls)
    (due : reached io.now u.nextAt = true) : Turn u io (u.startJob io) := by
  have failed : Turn u io (u.advance ST_LOCAL io.now io.rnd) :=
    .unsent idle due waits
      (advance_advanced ST_LOCAL io.now io.rnd idle fun _ ok => absurd ok (by decide))
  simp only [startJob]
  split
  · exact .keeps (.refl u)
  split
  · exact failed
  split
  · exact .stops rfl rfl rfl
  split
  · exact failed
  · exact .sent idle due waits free on rfl rfl

theorem idleTurn_turn (io : TurnIo) (none : u.job = none) :
    Turn u io (u.idleTurn serialOf io) := by
  have idle : u.requesting = false := by
    rw [requesting, none]
    rfl
  simp only [idleTurn]
  split
  · split
    · exact .keeps (startCheck_keeps io none)
    · exact .keeps (.refl u)
  rename_i on
  split
  · rename_i waits
    split
    · rename_i up
      exact .sessionUp waits up rfl rfl rfl rfl rfl
    · exact .keeps (.refl u)
  rename_i waits
  split
  · exact .keeps (.refl u)
  rename_i free
  split
  · exact .keeps (.refl u)
  rename_i due
  refine startJob_turn io idle ?_ (by simpa using on) waits (by simpa using due)
  cases pending : u.certRebootPending with
  | false => rfl
  | true => exact absurd (by simp [pending]) free

theorem reapStale_reapStale (u : EnrollUnit) : u.reapStale.reapStale = u.reapStale := by
  cases free : u.stale.any (·.done) with
  | true => simp [reapStale, free]
  | false => simp [reapStale, free]

theorem answerAt_reapStale (u : EnrollUnit) (now : Nat) :
    u.reapStale.answerAt now = u.answerAt now := by
  obtain ⟨stale, reaped⟩ := reapStale_keeps u
  rw [answerAt, reapStale_reapStale, answerAt, reaped]

theorem Turn.of_reapStale {io : TurnIo} {u' : EnrollUnit} (turn : Turn u.reapStale io u') :
    Turn u io u' := by
  obtain ⟨stale, reaped⟩ := reapStale_keeps u
  have same : Keeps u u.reapStale := by
    rw [reaped]
    exact ⟨rfl, rfl, rfl, rfl, id⟩
  cases turn with
  | keeps kept =>
      exact .keeps (same.trans kept)
  | answered status applied running answer next pays =>
      rw [same.step] at pays
      rw [answerAt_reapStale] at answer
      exact .answered status applied (same.requesting ▸ running) answer (next.of_keeps same) pays
  | unsent idle due waits next =>
      exact .unsent (same.requesting ▸ idle) (same.nextAt ▸ due) (same.step ▸ waits)
        (next.of_keeps same)
  | sent idle due waits free on step requests =>
      refine .sent (same.requesting ▸ idle) (same.nextAt ▸ due) (same.step ▸ waits) ?_
        (same.active ▸ on) (step.trans same.step) requests
      rwa [reaped] at free
  | stops inactive step kept =>
      exact .stops inactive (step.trans same.step) (kept.trans same.requesting)
  | sessionUp waits up step nextAt active pending kept =>
      refine .sessionUp (same.step ▸ waits) up step nextAt (active.trans same.active) ?_
        (kept.trans same.requesting)
      rwa [reaped] at pending

theorem requesting_of_job {job : EnrollJob} (running : u.job = some job) :
    u.requesting = !job.isStatusCheck := by
  rw [requesting, running]
  rfl

/-- A status check that ends, with or without its task, is no request. -/
theorem keeps_parked {job : EnrollJob} (running : u.job = some job)
    (check : job.isStatusCheck = true) (stale : Option EnrollJob) :
    Keeps u { u with stale, job := none } := by
  refine ⟨rfl, rfl, rfl, ?_, id⟩
  rw [requesting_of_job running, check]
  rfl

theorem finishJob_turn {job : EnrollJob} {io : TurnIo} (running : u.job = some job)
    (answer : job.isStatusCheck = false → u.answerAt io.now = some job.status) :
    Turn u io (u.finishJob deserializeJson tls job io) := by
  cases kind : job.isStatusCheck with
  | true =>
      simp only [finishJob, kind, if_true]
      exact .keeps ((keeps_parked running kind u.stale).trans (finishCheck_keeps job io))
  | false =>
      have requests : u.requesting = true := by rw [requesting_of_job running, kind, Bool.not_false]
      simp only [finishJob, kind, Bool.false_eq_true, if_false]
      obtain ⟨applied, next, pays⟩ :=
        finishEnroll_advanced (u := { u with job := none }) deserializeJson tls rfl job io
      exact .answered job.status applied requests (answer kind)
        ⟨next.follows, next.active, next.idle, next.pending, next.stored⟩ pays

theorem overran_turn {job : EnrollJob} {io : TurnIo} (running : u.job = some job)
    (answer : job.isStatusCheck = false → u.answerAt io.now = some ST_LOCAL) :
    Turn u io (u.overran job io) := by
  cases kind : job.isStatusCheck with
  | true =>
      simp only [overran, kind, if_true]
      refine .keeps ((keeps_parked running kind (some job)).trans ?_)
      exact ⟨rfl, rfl, rfl, rfl, id⟩
  | false =>
      have requests : u.requesting = true := by rw [requesting_of_job running, kind, Bool.not_false]
      simp only [overran, kind, Bool.false_eq_true, if_false]
      have next := advance_advanced (u := { u with stale := some job, job := none }) ST_LOCAL io.now
        io.rnd rfl fun _ ok => absurd ok (by decide)
      exact .answered ST_LOCAL ST_LOCAL requests (answer kind)
        ⟨next.follows, next.active, next.idle, next.pending, next.stored⟩ (Nat.le_refl _)

/-- What a turn does to the pace, by what it finds. -/
theorem loop_turn (deserializeJson : Reader) (tls : Mbedtls) (serialOf : Str → Option Str)
    (u : EnrollUnit) (io : TurnIo) :
    Turn u io (u.loop deserializeJson tls serialOf io) := by
  apply Turn.of_reapStale
  have again := reapStale_reapStale u
  simp only [loop]
  generalize u.reapStale = v at again ⊢
  split
  · exact .keeps (.refl v)
  rename_i free
  cases running : v.job with
  | none => exact idleTurn_turn io running
  | some job =>
      simp only
      split
      · rename_i done
        exact finishJob_turn running fun kind => by
          simp [answerAt, again, free, running, kind, done]
      · rename_i going
        split
        · rename_i late
          exact overran_turn running fun kind => by
            simp [answerAt, again, free, running, kind, going, late]
        · exact .keeps (.refl v)

end

/-! ### What a turn takes from the budget -/

theorem enrollOnResponse_delay (step : EnrollStep) (status : Int) (failures rnd : Nat) :
    (enrollOnResponse step status failures rnd).delayMs ≤ 2250000 := by
  have back := (enrollBackoffMs_bounds failures rnd).2
  have poll : ENROLL_POLL_MS ≤ 2250000 := by decide
  cases step <;> simp only [enrollOnResponse] <;> repeat' split
  all_goals first
    | exact Nat.zero_le _
    | assumption

/-- What is left while no request runs or waits for its session. -/
theorem left_open {b t : Nat} (free : u.certRebootPending = false) (active : u.active = true) :
    u.left b t = slotsFrom b (if u.requesting || u.step = .awaitMtls then t + ENROLL_POLL_MS
      else u.dueAt t) + chain u.step := by
  rw [left, if_neg (by simp [free, active])]

theorem left_closed {b t : Nat} (closed : u.certRebootPending = true ∨ u.active = false) :
    u.left b t = 0 := by
  rw [left, if_pos (by simpa using closed)]

theorem open_of_left {b t : Nat} (more : u.left b t ≠ 0) :
    u.certRebootPending = false ∧ u.active = true := by
  by_contra closed
  exact more (left_closed (by simpa [or_iff_not_imp_left] using closed))

theorem Keeps.left_le {u' : EnrollUnit} {b t : Nat} (same : Keeps u u') :
    u'.left b t ≤ u.left b t := by
  by_cases more : u'.left b t = 0
  · rw [more]
    exact Nat.zero_le _
  · obtain ⟨free, active⟩ := open_of_left more
    have before : u.certRebootPending = false := by
      by_contra pending
      exact absurd (same.pending (by simpa using pending)) (by simp [free])
    rw [left_open free active, left_open before (same.active ▸ active), same.requesting, same.step,
      dueAt, dueAt, same.nextAt]

/-- What is left before a request that is due. -/
theorem left_due {b t : Nat} (free : u.certRebootPending = false) (active : u.active = true)
    (idle : u.requesting = false) (waits : u.step ≠ .awaitMtls)
    (due : reached t u.nextAt = true) : u.left b t = slotsFrom b t + chain u.step := by
  rw [left_open free active, idle, decide_eq_false waits, Bool.false_or, if_neg Bool.false_ne_true,
    dueAt_of_reached due]

/-- What is left while a request runs. -/
theorem left_running {b t : Nat} (free : u.certRebootPending = false) (active : u.active = true)
    (running : u.requesting = true) :
    u.left b t = slotsFrom b (t + ENROLL_POLL_MS) + chain u.step := by
  rw [left_open free active, running, Bool.true_or, if_pos rfl]

/-- An answer that was applied leaves what the request left, and what the answer gives back. -/
theorem Advanced.left_le {u' : EnrollUnit} {status : Int} {b t : Nat} (le : t ≤ b)
    (next : Advanced u status (t % Word32.size) u')
    (more : u'.left b t ≠ 0) :
    u.certRebootPending = false ∧ u.active = true ∧
      u'.left b t ≤ slotsFrom b (t + ENROLL_POLL_MS) + chain u.step + givesBack u.step status := by
  obtain ⟨free', active'⟩ := open_of_left more
  have free : u.certRebootPending = false := by
    by_contra pending
    exact absurd (next.pending (by simpa using pending)) (by simp [free'])
  obtain ⟨active, going⟩ := next.active active'
  refine ⟨free, active, ?_⟩
  obtain ⟨failures, rnd, step, nextAt⟩ := next.follows
  rw [step] at going
  have due : u'.dueAt t = t + (enrollOnResponse u.step status failures rnd).delayMs :=
    dueAt_set (enrollOnResponse_delay u.step status failures rnd) nextAt
  have unstored : ¬(u.step = .poll ∧ status = 200) := fun ⟨poll, ok⟩ =>
    absurd (next.stored poll ok) (by simp [free'])
  have pays := enrollOnResponse_pays le u.step status failures rnd going unstored
  rw [left_open free' active', next.idle, due, step]
  simpa only [Bool.false_or, decide_eq_true_eq, apply_ite (t + ·)] using pays

theorem requested_of_running {u' : EnrollUnit} (running : u.requesting = true) :
    u.requested u' = none := by
  rw [requested, running]
  rfl

theorem requested_of_idle {u' : EnrollUnit} (idle : u'.requesting = false) :
    u.requested u' = none := by
  rw [requested, idle, Bool.and_false]
  rfl

theorem requested_of_same {u' : EnrollUnit} (same : u'.requesting = u.requesting) :
    u.requested u' = none := by
  cases running : u.requesting with
  | true => exact requested_of_running running
  | false => exact requested_of_idle (same.trans running)

/-- What the answers of a turn give back. -/
def refund (u : EnrollUnit) (now : Nat) : Nat :=
  (if u.certRefused now then 2 else 0) + if u.verifyFails now then 1 else 0

theorem givesBack_refund {status : Int} {now : Nat} (answer : u.answerAt now = some status) :
    givesBack u.step status = u.refund now := by
  simp only [givesBack, refund, verifyFails, certRefused, answer]
  simp [Nat.add_comm]

theorem reached_now (t : Nat) : reached t (t % Word32.size) = true := by
  simp only [reached, decide_eq_true_eq]
  unfold Word32.sub Word32.size
  omega

/-- A request takes one from the budget, and only answers give back. -/
theorem Turn.pays {u' : EnrollUnit} {io : TurnIo} {b t : Nat} (le : t ≤ b)
    (clock : io.now = t % Word32.size) (turn : Turn u io u') :
    (if (u.requested u').isSome then 1 else 0) + u'.left b t ≤ u.left b t + u.refund io.now := by
  have later := slotsFrom_later le
  cases turn with
  | keeps same =>
      rw [requested_of_same same.requesting]
      exact (Nat.zero_add _).le.trans (same.left_le.trans (Nat.le_add_right _ _))
  | answered status applied running answer next pays =>
      rw [requested_of_running running, ← givesBack_refund answer]
      by_cases more : u'.left b t = 0
      · simp [more]
      · obtain ⟨free, active, bound⟩ := (clock ▸ next).left_le le more
        rw [left_running free active running, Option.isSome_none, if_neg Bool.false_ne_true]
        omega
  | unsent idle due waits next =>
      rw [requested_of_idle next.idle]
      by_cases more : u'.left b t = 0
      · simp [more]
      · obtain ⟨free, active, bound⟩ := (clock ▸ next).left_le le more
        have back : givesBack u.step ST_LOCAL ≤ 1 := by
          cases u.step <;> decide
        rw [clock, reached_mod] at due
        rw [left_due free active idle waits due, Option.isSome_none, if_neg Bool.false_ne_true]
        omega
  | sent idle due waits free on step requests =>
      rw [clock, reached_mod] at due
      rw [left_due free on idle waits due]
      by_cases more : u'.left b t = 0
      · split <;> omega
      · obtain ⟨free', active'⟩ := open_of_left more
        rw [left_running free' active' requests, step]
        split <;> omega
  | stops inactive step same =>
      rw [requested_of_same same, left_closed (.inr inactive)]
      exact Nat.zero_le _
  | sessionUp waits up step nextAt active pending same =>
      rw [requested_of_same same, Option.isSome_none, if_neg Bool.false_ne_true]
      by_cases more : u'.left b t = 0
      · omega
      · obtain ⟨free', active'⟩ := open_of_left more
        have ack : chain .ack = 0 := rfl
        have before : u.left b t = slotsFrom b (t + ENROLL_POLL_MS) + 1 := by
          rw [left_open (pending ▸ free') (active ▸ active'), waits, decide_eq_true rfl,
            Bool.or_true, if_pos rfl, chain]
        cases running : u'.requesting with
        | true =>
            rw [left_running free' active' running, before, step, ack]
            omega
        | false =>
            have due : reached t u'.nextAt = true := by
              rw [nextAt, clock]
              exact reached_now t
            rw [left_due free' active' running (by simp [step]) due, before, step, ack]
            omega

end EnrollUnit

/-! ## An hour of a run -/

section

variable {deserializeJson : Reader} {tls : Mbedtls} {serialOf : Str → Option Str}

theorem enrollStep_pays (deserializeJson : Reader) (tls : Mbedtls)
    (serialOf : Str → Option Str) {s : Paced} {e : Nat × EnrollEvent} {b : Nat}
    (within : WithinBoot s e) (le : e.1 ≤ b) :
    (if (s.unit.requested (enrollStep deserializeJson tls serialOf s.unit e.2)).isSome then 1
        else 0) + (enrollStep deserializeJson tls serialOf s.unit e.2).left b e.1 ≤
      s.unit.left b s.now +
        (match e.2 with
          | .loop io => s.unit.refund io.now
          | _ => 0) := by
  obtain ⟨u, now⟩ := s
  obtain ⟨t, event⟩ := e
  obtain ⟨later, fits⟩ := within
  have passes := u.left_mono (b := b) later
  have free {u' : EnrollUnit} (same : EnrollUnit.Keeps u u') :
      (if (u.requested u').isSome then 1 else 0) + u'.left b t ≤ u.left b now + 0 := by
    rw [EnrollUnit.requested_of_same same.requesting]
    exact (Nat.zero_add _).le.trans (same.left_le.trans passes)
  cases event with
  | boot io => exact absurd fits id
  | loop io =>
      have turn := EnrollUnit.loop_turn deserializeJson tls serialOf u io
      exact (turn.pays le fits).trans (Nat.add_le_add_right passes _)
  | answer status reply =>
      refine free ⟨rfl, rfl, rfl, ?_, id⟩
      simp [EnrollUnit.requesting, enrollStep, Option.any_map]
  | lateAnswer status reply => exact free ⟨rfl, rfl, rfl, rfl, id⟩
  | certSet certPEM keyPEM io => exact free ⟨rfl, rfl, rfl, rfl, id⟩
  | certApply _ _ | certClear _ _ =>
      exact free ⟨rfl, rfl, rfl, rfl, fun pending => by simp [enrollStep, pending]⟩

/-- What is left of the budget of the hour from `a` on. -/
def hourLeft (a : Nat) (s : Paced) : Nat :=
  if s.now < a then 27
  else if a + HOUR_MS < s.now then 0
  else s.unit.left (a + HOUR_MS) s.now

theorem hourLeft_early {a : Nat} {s : Paced} (early : s.now < a) : hourLeft a s = 27 := if_pos early

theorem hourLeft_late {a : Nat} {s : Paced} (late : a + HOUR_MS < s.now) : hourLeft a s = 0 := by
  rw [hourLeft, if_neg (by omega), if_pos late]

theorem hourLeft_inside {a : Nat} {s : Paced} (begun : a ≤ s.now) (inside : s.now ≤ a + HOUR_MS) :
    hourLeft a s = s.unit.left (a + HOUR_MS) s.now := by
  rw [hourLeft, if_neg (Nat.not_lt.mpr begun), if_neg (Nat.not_lt.mpr inside)]

theorem hourLeft_le (a : Nat) (s : Paced) : hourLeft a s ≤ 27 := by
  rcases Nat.lt_or_ge s.now a with early | begun
  · exact (hourLeft_early early).le
  rcases Nat.lt_or_ge (a + HOUR_MS) s.now with late | inside
  · rw [hourLeft_late late]
    exact Nat.zero_le _
  · rw [hourLeft_inside begun inside]
    exact EnrollUnit.left_hour a begun

theorem pacedStep_pays (a : Nat) (s : Paced) (e : Nat × EnrollEvent) (within : WithinBoot s e) :
    (if requestIn deserializeJson tls serialOf a s e then 1 else 0) +
        hourLeft a (pacedStep deserializeJson tls serialOf s e) ≤
      hourLeft a s + (if certRefusedIn a s e then 2 else 0) +
        (if verifyFailsIn a s e then 1 else 0) := by
  have outside (out : inHour a e.1 = false) :
      requestIn deserializeJson tls serialOf a s e = false := by
    simp [requestIn, out]
  rcases Nat.lt_or_ge e.1 a with early | begun
  · rw [outside (by simp [inHour, Nat.not_le.mpr early]), hourLeft_early early,
      hourLeft_early (Nat.lt_of_le_of_lt within.1 early), if_neg Bool.false_ne_true]
    omega
  rcases Nat.lt_or_ge (a + HOUR_MS) e.1 with late | inside
  · rw [outside (by simp [inHour, Nat.not_le.mpr late]), hourLeft_late late,
      if_neg Bool.false_ne_true]
    exact Nat.zero_le _
  -- before the hour the client has as much left as at its start
  have start : s.unit.left (a + HOUR_MS) (max a s.now) ≤ hourLeft a s := by
    rcases Nat.lt_or_ge s.now a with early | after
    · rw [hourLeft_early early]
      exact EnrollUnit.left_hour a (Nat.le_max_left _ _)
    · rw [hourLeft_inside after (within.1.trans inside), Nat.max_eq_right after]
  have hour : inHour a e.1 = true := by simp [inHour, begun, inside]
  have pays := enrollStep_pays deserializeJson tls serialOf (s := ⟨s.unit, max a s.now⟩) (e := e)
    (b := a + HOUR_MS) ⟨Nat.max_le.mpr ⟨begun, within.1⟩, within.2⟩ inside
  rw [hourLeft_inside begun inside, requestIn, hour, Bool.true_and]
  apply pays.trans
  rw [Nat.add_assoc]
  apply Nat.add_le_add start
  cases event : e.2 with
  | loop io =>
      simp only [certRefusedIn, verifyFailsIn, event, hour, Bool.true_and]
      exact Nat.le_refl _
  | _ => exact Nat.zero_le _

/-- An hour holds 27 requests, and what failed verifies and refused cert requests make it repeat. -/
theorem requests_le (a : Nat) {s : Paced} {es : List (Nat × EnrollEvent)}
    (run : Meets (pacedStep deserializeJson tls serialOf) WithinBoot s es) :
    tally (pacedStep deserializeJson tls serialOf) (requestIn deserializeJson tls serialOf a) s es ≤
      27 + 2 * tally (pacedStep deserializeJson tls serialOf) (certRefusedIn a) s es +
        tally (pacedStep deserializeJson tls serialOf) (verifyFailsIn a) s es := by
  have spent := run.tally_spent (hourLeft a) 2 (pacedStep_pays a)
  have start := hourLeft_le a s
  omega

end

/-- Within a boot, an hour with few fallbacks to announce has no more requests than the app takes:
a refused cert request counts twice, a failed verify once, and there is room for three. -/
theorem requests_keep_pace (deserializeJson : Reader) (tls : Mbedtls)
    (serialOf : Str → Option Str) (u : EnrollUnit) (io : BootIo) (t a : Nat)
    (es : List (Nat × EnrollEvent))
    (run : Meets (pacedStep deserializeJson tls serialOf) WithinBoot
      ⟨enrollStep deserializeJson tls serialOf u (.boot io), t⟩ es)
    (few : 2 * tally (pacedStep deserializeJson tls serialOf) (certRefusedIn a)
        ⟨enrollStep deserializeJson tls serialOf u (.boot io), t⟩ es +
      tally (pacedStep deserializeJson tls serialOf) (verifyFailsIn a)
        ⟨enrollStep deserializeJson tls serialOf u (.boot io), t⟩ es ≤ 3) :
    tally (pacedStep deserializeJson tls serialOf) (requestIn deserializeJson tls serialOf a)
      ⟨enrollStep deserializeJson tls serialOf u (.boot io), t⟩ es ≤ 30 := by
  have bound := requests_le a run
  omega

/-! ## Cert requests that are refused -/

def challengeText : Str :=
  "\x7b\"challenge\":\"".toList ++ List.replicate 64 '0' ++ "\"\x7d".toList

def challengeDoc : Json := .obj [("challenge".toList, .str (List.replicate 64 '0'))]

def challengeReads : Reader := readsOnly challengeText challengeDoc

/-- Announce and verify go well, the cert request is answered 403. -/
def refusedFrom (t : Nat) : List (Nat × EnrollEvent) :=
  let turn (t : Nat) : Nat × EnrollEvent := (t, .loop (turnAt (t % Word32.size)))
  [turn t, (t + 900, .answer 200 challengeText), turn (t + 1000),
    turn (t + 1100), (t + 1900, .answer 200 []), turn (t + 2000),
    turn (t + 2100), (t + 2900, .answer 403 []), turn (t + 3000)]

/-- One refusal after another. -/
def refusals (n : Nat) : List (Nat × EnrollEvent) :=
  (List.range n).flatMap fun k => refusedFrom (153000 * k)

def enrollingUnit : EnrollUnit :=
  enrollStep challengeReads sampleTls sampleSerialOf (.poweredUp freshStores ⟨true, true, true⟩)
    (.boot bootsEnrollable)

theorem requests_keep_pace_once :
    tally (pacedStep challengeReads sampleTls sampleSerialOf)
      (requestIn challengeReads sampleTls sampleSerialOf 0) ⟨enrollingUnit, 0⟩ (refusals 1) ≤ 30 :=
  requests_keep_pace challengeReads sampleTls sampleSerialOf _ bootsEnrollable 0 0 (refusals 1)
    (by decide +kernel) (by decide +kernel)

/-- In the hour after the first, 30 requests are gone within a half. -/
theorem refusals_outpace_the_cap :
    Meets (pacedStep challengeReads sampleTls sampleSerialOf) WithinBoot ⟨enrollingUnit, 0⟩
        (refusals 36) ∧
      30 < tally (pacedStep challengeReads sampleTls sampleSerialOf)
        (requestIn challengeReads sampleTls sampleSerialOf HOUR_MS) ⟨enrollingUnit, 0⟩
        (refusals 36) := by
  decide +kernel

end Thesada.Enroll
