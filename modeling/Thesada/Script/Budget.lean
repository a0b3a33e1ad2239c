import Mathlib.Order.Interval.Finset.Nat
import Thesada.Library.Machine
import Thesada.Library.Word32

/-!
# The time budget of a call into Lua

Every call from C into Lua shares the budget of the outermost one. A binding that blocks gives its
own time back when it ends, up to `LUA_NATIVE_CREDIT_MS`, and it can have called Lua in between.

`BudgetHost.now` counts milliseconds without a wrap, and `millis()` is its value modulo `2 ^ 32`.
`entered` and `credited` only record what happened: no step reads them.
-/

namespace Thesada.Script

def LUA_SCRIPT_BUDGET_MS : Nat := 10000

def LUA_NATIVE_CREDIT_MS : Nat := 60000

/-- Lua's limit on nested C calls. -/
def LUAI_MAXCCALLS : Nat := 200

structure LuaBudget where
  startMs : Nat
  creditMs : Nat
  /-- A `uint16_t`. -/
  depth : Nat
  hit : Bool

def waitBudgetSpent (startMs nowMs budgetMs : Nat) : Bool :=
  decide (budgetMs ≤ Word32.sub nowMs startMs)

def luaBudgetEnter (b : LuaBudget) (nowMs : Nat) : LuaBudget :=
  let b := if b.depth = 0 then { b with startMs := nowMs, creditMs := 0, hit := false } else b
  { b with depth := (b.depth + 1) % 2 ^ 16 }

def luaBudgetCredit (b : LuaBudget) (ms : Nat) : LuaBudget :=
  if b.depth = 0 then b
  else
    let room := Word32.sub LUA_NATIVE_CREDIT_MS b.creditMs
    let ms := if room < ms then room else ms
    { b with startMs := Word32.add b.startMs ms, creditMs := Word32.add b.creditMs ms }

def luaBudgetTick (b : LuaBudget) (nowMs : Nat) : Bool × LuaBudget :=
  if b.depth = 0 then (false, b)
  else
    let hit := b.hit || waitBudgetSpent b.startMs nowMs LUA_SCRIPT_BUDGET_MS
    (hit, { b with hit })

def luaBudgetSpent (b : LuaBudget) : Bool := decide (0 < b.depth) && b.hit

def luaBudgetLeave (b : LuaBudget) : Bool × LuaBudget :=
  if b.depth = 0 then (false, b) else (b.hit, { b with depth := b.depth - 1 })

inductive BudgetFrame where
  /-- A `luaBudgetedCall`. -/
  | call
  /-- A binding that credits its time when it ends, with the time it began. -/
  | native (t0 : Nat)
  /-- Another binding. -/
  | binding
  deriving DecidableEq

structure BudgetHost where
  budget : LuaBudget
  now : Nat
  /-- The calls and bindings that run, the innermost first. -/
  frames : List BudgetFrame
  /-- When the outermost call was entered. -/
  entered : Nat
  /-- The milliseconds of the intervals credited in the outermost call. -/
  credited : Finset Nat

inductive BudgetEvent where
  | pass (ms : Nat)
  | enter
  | native
  | binding
  /-- The innermost binding returns. -/
  | endBinding
  /-- The count hook. -/
  | tick
  | leave
  deriving DecidableEq

def BudgetEvent.ms : BudgetEvent → Nat
  | .pass ms => ms
  | _ => 0

/-- The calls into Lua that run. -/
def callsOf (frames : List BudgetFrame) : Nat := frames.count .call

namespace BudgetHost

def boot (now : Nat) : BudgetHost where
  budget := ⟨0, 0, 0, false⟩
  now := now
  frames := []
  entered := 0
  credited := ∅

def millis (s : BudgetHost) : Nat := s.now % Word32.size

/-- A script runs. -/
def scripting (s : BudgetHost) : Bool := s.frames.head? = some .call

/-- C can call Lua: no script runs, or it is in a binding, and Lua's C stack has room. -/
def callable (s : BudgetHost) : Bool := !s.scripting && callsOf s.frames < LUAI_MAXCCALLS

def step (s : BudgetHost) : BudgetEvent → BudgetHost
  | .pass ms => { s with now := s.now + ms }
  | .enter =>
      if s.callable then
        { s with
          budget := luaBudgetEnter s.budget s.millis
          frames := .call :: s.frames
          entered := if s.frames = [] then s.now else s.entered
          credited := if s.frames = [] then ∅ else s.credited }
      else s
  | .native => if s.scripting then { s with frames := .native s.now :: s.frames } else s
  | .binding => if s.scripting then { s with frames := .binding :: s.frames } else s
  | .endBinding =>
      match s.frames with
      | .native t0 :: rest =>
          { s with
            budget := luaBudgetCredit s.budget (Word32.sub s.millis (t0 % Word32.size))
            frames := rest
            credited := s.credited ∪ Finset.Ico t0 s.now }
      | .binding :: rest => { s with frames := rest }
      | _ => s
  | .tick => if s.scripting then { s with budget := (luaBudgetTick s.budget s.millis).2 } else s
  | .leave =>
      if s.scripting then
        { s with budget := (luaBudgetLeave s.budget).2, frames := s.frames.tail }
      else s

/-- The milliseconds that pass in a run. -/
def elapsed : List BudgetEvent → Nat
  | [] => 0
  | e :: es => e.ms + elapsed es

/-- The length of the union of the credited intervals, capped. -/
def nativeMs (s : BudgetHost) : Nat := min s.credited.card LUA_NATIVE_CREDIT_MS

/-- What the budget promises of a step. -/
structure Exact (s : BudgetHost) (e : BudgetEvent) : Prop where
  /-- The outermost call starts the clock. -/
  outer : e = .enter → s.frames = [] → (s.step e).budget.startMs = s.millis
  /-- While a call runs, nothing but a credit moves the start. -/
  inner : e ≠ .endBinding → s.frames ≠ [] → (s.step e).budget.startMs = s.budget.startMs
  raises : e = .tick → s.scripting = true →
    ((luaBudgetTick s.budget s.millis).1 = true ↔
      luaBudgetSpent s.budget = true ∨ LUA_SCRIPT_BUDGET_MS ≤ s.now - s.entered - s.nativeMs)
  /-- The start does not pass the current time. -/
  start_le : (s.step e).frames ≠ [] →
    Word32.sub (s.step e).millis (s.step e).budget.startMs ≤ (s.step e).now - (s.step e).entered
  /-- A spent budget stays spent until the outermost call is left. -/
  stays : luaBudgetSpent s.budget = true →
    luaBudgetSpent (s.step e).budget = true ∨ (s.step e).frames = []

/-- An interval that is credited has no credited time in it, or with it the union reaches the
cap. -/
def CreditsApart (s : BudgetHost) (e : BudgetEvent) : Prop :=
  e = .endBinding → ∀ t0, s.frames.head? = some (.native t0) →
    Disjoint s.credited (Finset.Ico t0 s.now) ∨
      LUA_NATIVE_CREDIT_MS ≤ (s.credited ∪ Finset.Ico t0 s.now).card

/-! ## What each step keeps -/

/-- Each binding was called by a script. -/
def Grounded : List BudgetFrame → Prop
  | [] => True
  | .call :: rest => Grounded rest
  | .native _ :: rest => 0 < callsOf rest ∧ Grounded rest
  | .binding :: rest => 0 < callsOf rest ∧ Grounded rest

theorem Grounded.pos {frames : List BudgetFrame} (h : Grounded frames) (some_frame : frames ≠ []) :
    0 < callsOf frames := by
  cases frames with
  | nil => exact absurd rfl some_frame
  | cons f rest =>
      cases f with
      | call => simp [callsOf]
      | native t0 => simpa [callsOf] using h.1
      | binding => simpa [callsOf] using h.1

theorem Grounded.tail {f : BudgetFrame} {rest : List BudgetFrame} (h : Grounded (f :: rest)) :
    Grounded rest := by
  cases f with
  | call => exact h
  | native t0 => exact h.2
  | binding => exact h.2

/-- The start of the budget is the entry of the outermost call plus the capped length of the
credited intervals. -/
structure Sound (began : Nat) (s : BudgetHost) : Prop where
  grounded : Grounded s.frames
  calls : callsOf s.frames ≤ LUAI_MAXCCALLS
  depth : s.budget.depth = callsOf s.frames
  starts : ∀ t0, .native t0 ∈ s.frames → s.entered ≤ t0 ∧ t0 ≤ s.now
  entered : s.entered ≤ s.now
  recent : s.frames ≠ [] → began ≤ s.entered
  covered : s.credited ⊆ Finset.Ico s.entered s.now
  credit : s.budget.creditMs = s.nativeMs
  start : s.budget.startMs = (s.entered + s.nativeMs) % Word32.size

theorem boot_sound (now : Nat) : (boot now).Sound now where
  grounded := trivial
  calls := Nat.zero_le _
  depth := rfl
  starts t0 mem := by cases mem
  entered := Nat.zero_le _
  recent some_frame := absurd rfl some_frame
  covered := Finset.empty_subset _
  credit := rfl
  start := rfl

variable {began : Nat} {s : BudgetHost}

theorem frames_of_scripting (scripting : s.scripting = true) :
    s.frames = .call :: s.frames.tail := by
  unfold BudgetHost.scripting at scripting
  exact List.eq_cons_of_mem_head? (of_decide_eq_true scripting)

namespace Sound

theorem depth_pos (h : s.Sound began) (some_frame : s.frames ≠ []) : s.budget.depth ≠ 0 := by
  rw [h.depth]
  exact Nat.ne_of_gt (h.grounded.pos some_frame)

/-- The credited time lies between the entry and now. -/
theorem card_le (h : s.Sound began) : s.credited.card ≤ s.now - s.entered := by
  rw [← Nat.card_Ico]
  exact Finset.card_le_card h.covered

/-- What the code reads as the time since the start of the budget. -/
theorem since (h : s.Sound began) (some_frame : s.frames ≠ []) (short : s.now < began + 2 ^ 31) :
    Word32.sub s.millis s.budget.startMs = s.now - s.entered - s.nativeMs := by
  have within : s.nativeMs ≤ s.now - s.entered := Nat.le_trans (Nat.min_le_left _ _) h.card_le
  have entered := h.entered
  have recent := h.recent some_frame
  have below : s.now - (s.entered + s.nativeMs) < Word32.size := by
    unfold Word32.size
    omega
  rw [h.start, millis, Word32.sub_mod_mod (by omega) below]
  omega

theorem pass (h : s.Sound began) (ms : Nat) :
    ({ s with now := s.now + ms } : BudgetHost).Sound began where
  grounded := h.grounded
  calls := h.calls
  depth := h.depth
  starts t0 mem := ⟨(h.starts t0 mem).1, Nat.le_add_right_of_le (h.starts t0 mem).2⟩
  entered := Nat.le_add_right_of_le h.entered
  recent := h.recent
  covered := h.covered.trans (Finset.Ico_subset_Ico_right (Nat.le_add_right _ _))
  credit := h.credit
  start := h.start

/-- A binding of the script that runs. -/
theorem push (h : s.Sound began) (scripting : s.scripting = true) {f : BudgetFrame}
    (grounded : 0 < callsOf s.frames → Grounded s.frames → Grounded (f :: s.frames))
    (not_call : f ≠ .call) (starts : ∀ t0, f = .native t0 → t0 = s.now) :
    ({ s with frames := f :: s.frames } : BudgetHost).Sound began := by
  have some_frame : s.frames ≠ [] := by
    rw [frames_of_scripting scripting]
    exact List.cons_ne_nil _ _
  have same : callsOf (f :: s.frames) = callsOf s.frames :=
    List.count_cons_of_ne not_call
  refine { h with
    grounded := grounded (h.grounded.pos some_frame) h.grounded
    calls := by rw [same]; exact h.calls
    depth := by rw [same]; exact h.depth
    starts := ?_
    recent := fun _ => h.recent some_frame }
  intro t0 mem
  rcases List.mem_cons.mp mem with rfl | mem
  · rw [starts t0 rfl]
    exact ⟨h.entered, Nat.le_refl _⟩
  · exact h.starts t0 mem

theorem pop (h : s.Sound began) {f : BudgetFrame} {rest : List BudgetFrame}
    (frames : s.frames = f :: rest) (not_call : f ≠ .call) :
    ({ s with frames := rest } : BudgetHost).Sound began := by
  have same : callsOf s.frames = callsOf rest := by
    rw [frames]
    exact List.count_cons_of_ne not_call
  have grounded := h.grounded
  rw [frames] at grounded
  exact { h with
    grounded := grounded.tail
    calls := by rw [← same]; exact h.calls
    depth := by rw [← same]; exact h.depth
    starts := fun t0 mem => h.starts t0 (by rw [frames]; exact List.mem_cons_of_mem _ mem)
    recent := fun _ => h.recent (by simp [frames]) }

/-- A credit moves the start by what the cap leaves room for. -/
theorem luaBudgetCredit_capped {b : LuaBudget} (running : b.depth ≠ 0)
    (capped : b.creditMs ≤ LUA_NATIVE_CREDIT_MS) (ms : Nat) :
    luaBudgetCredit b ms = { b with
      startMs := Word32.add b.startMs (min (b.creditMs + ms) LUA_NATIVE_CREDIT_MS - b.creditMs)
      creditMs := min (b.creditMs + ms) LUA_NATIVE_CREDIT_MS } := by
  have room : Word32.sub LUA_NATIVE_CREDIT_MS b.creditMs = LUA_NATIVE_CREDIT_MS - b.creditMs :=
    Word32.sub_of_le capped (by decide)
  have given : (if LUA_NATIVE_CREDIT_MS - b.creditMs < ms then LUA_NATIVE_CREDIT_MS - b.creditMs
      else ms) = min (b.creditMs + ms) LUA_NATIVE_CREDIT_MS - b.creditMs := by
    split <;> omega
  have sum : Word32.add b.creditMs (min (b.creditMs + ms) LUA_NATIVE_CREDIT_MS - b.creditMs) =
      min (b.creditMs + ms) LUA_NATIVE_CREDIT_MS := by
    have fits : b.creditMs + (min (b.creditMs + ms) LUA_NATIVE_CREDIT_MS - b.creditMs) <
        Word32.size := by
      unfold LUA_NATIVE_CREDIT_MS Word32.size at *
      omega
    rw [Word32.add_of_lt fits]
    omega
  simp only [luaBudgetCredit, running, if_false, room, given, sum]

/-- The credit of an interval apart from the others keeps the start. -/
theorem giveBack (h : s.Sound began) {t0 : Nat} (some_frame : s.frames ≠ [])
    (started : s.entered ≤ t0 ∧ t0 ≤ s.now) (short : s.now < began + 2 ^ 31)
    (apart : Disjoint s.credited (Finset.Ico t0 s.now) ∨
      LUA_NATIVE_CREDIT_MS ≤ (s.credited ∪ Finset.Ico t0 s.now).card) :
    ({ s with
      budget := luaBudgetCredit s.budget (Word32.sub s.millis (t0 % Word32.size))
      credited := s.credited ∪ Finset.Ico t0 s.now } : BudgetHost).Sound began := by
  have recent := h.recent some_frame
  have below : s.now - t0 < Word32.size := by
    unfold Word32.size
    omega
  have interval : Word32.sub s.millis (t0 % Word32.size) = s.now - t0 :=
    Word32.sub_mod_mod started.2 below
  have capped : s.budget.creditMs ≤ LUA_NATIVE_CREDIT_MS := by
    rw [h.credit]
    exact Nat.min_le_right _ _
  have union : min (s.nativeMs + (s.now - t0)) LUA_NATIVE_CREDIT_MS =
      min (s.credited ∪ Finset.Ico t0 s.now).card LUA_NATIVE_CREDIT_MS := by
    have length : (Finset.Ico t0 s.now).card = s.now - t0 := Nat.card_Ico t0 s.now
    have most := Finset.card_union_le s.credited (Finset.Ico t0 s.now)
    rcases apart with apart | full
    · rw [Finset.card_union_of_disjoint apart, length, nativeMs]
      omega
    · unfold nativeMs
      omega
  rw [luaBudgetCredit_capped (h.depth_pos some_frame) capped, interval, h.credit, union]
  refine { h with
    covered := Finset.union_subset h.covered (Finset.Ico_subset_Ico_left started.1)
    credit := rfl
    start := ?_ }
  have grows : s.nativeMs ≤ min (s.credited ∪ Finset.Ico t0 s.now).card LUA_NATIVE_CREDIT_MS :=
    union ▸ Nat.le_min.mpr ⟨Nat.le_add_right _ _, Nat.min_le_right _ _⟩
  show Word32.add s.budget.startMs _ = _
  rw [h.start, Word32.add_mod, Nat.add_assoc, Nat.add_sub_of_le grows]
  rfl

theorem enter (h : s.Sound began) (callable : s.callable = true) (began_le : began ≤ s.now) :
    ({ s with
      budget := luaBudgetEnter s.budget s.millis
      frames := .call :: s.frames
      entered := if s.frames = [] then s.now else s.entered
      credited := if s.frames = [] then ∅ else s.credited } : BudgetHost).Sound began := by
  have one_more : callsOf (.call :: s.frames) = callsOf s.frames + 1 := List.count_cons_self
  have room : callsOf s.frames < LUAI_MAXCCALLS := by
    unfold BudgetHost.callable at callable
    simp only [Bool.and_eq_true, decide_eq_true_eq] at callable
    exact callable.2
  have no_wrap : (s.budget.depth + 1) % 2 ^ 16 = callsOf s.frames + 1 := by
    rw [h.depth]
    unfold LUAI_MAXCCALLS at room
    omega
  by_cases outermost : s.frames = []
  · have idle : s.budget.depth = 0 := by
      rw [h.depth, outermost]
      rfl
    rw [if_pos outermost, if_pos outermost]
    refine {
      grounded := h.grounded
      calls := by rw [one_more]; exact room
      depth := ?_
      starts := ?_
      entered := Nat.le_refl _
      recent := fun _ => began_le
      covered := Finset.empty_subset _
      credit := ?_
      start := ?_ }
    · rw [one_more, ← no_wrap]
      simp [luaBudgetEnter, idle]
    · intro t0 mem
      rw [outermost] at mem
      cases List.mem_singleton.mp mem
    · simp [luaBudgetEnter, idle, nativeMs]
    · simp [luaBudgetEnter, idle, nativeMs, millis]
  · have nested : luaBudgetEnter s.budget s.millis =
        { s.budget with depth := callsOf (.call :: s.frames) } := by
      rw [one_more, ← no_wrap]
      simp [luaBudgetEnter, h.depth_pos outermost]
    rw [if_neg outermost, if_neg outermost, nested]
    refine { h with
      grounded := h.grounded
      calls := by rw [one_more]; exact room
      depth := rfl
      starts := ?_
      recent := fun _ => h.recent outermost }
    intro t0 mem
    rcases List.mem_cons.mp mem with same | mem
    · cases same
    · exact h.starts t0 mem

/-- A tick changes no more than `hit`, and a leave no more than the depth. -/
theorem tick (h : s.Sound began) :
    ({ s with budget := (luaBudgetTick s.budget s.millis).2 } : BudgetHost).Sound began := by
  unfold luaBudgetTick
  split
  · exact h
  · exact { h with }

theorem leave (h : s.Sound began) (scripting : s.scripting = true) :
    ({ s with budget := (luaBudgetLeave s.budget).2, frames := s.frames.tail } :
      BudgetHost).Sound began := by
  have frames : s.frames = .call :: s.frames.tail := frames_of_scripting scripting
  have one_less : callsOf s.frames = callsOf s.frames.tail + 1 := by
    rw [frames]
    exact List.count_cons_self
  have some_frame : s.frames ≠ [] := by
    rw [frames]
    exact List.cons_ne_nil _ _
  have left : (luaBudgetLeave s.budget).2 = { s.budget with depth := callsOf s.frames.tail } := by
    have less : s.budget.depth - 1 = callsOf s.frames.tail := by
      rw [h.depth, one_less, Nat.add_sub_cancel]
    rw [luaBudgetLeave, if_neg (h.depth_pos some_frame), less]
  have grounded : Grounded (.call :: s.frames.tail) := frames ▸ h.grounded
  have fewer := h.calls
  rw [one_less] at fewer
  rw [left]
  exact { h with
    grounded := grounded.tail
    calls := Nat.le_of_succ_le fewer
    depth := rfl
    starts := fun t0 mem => h.starts t0 (List.mem_of_mem_tail mem)
    recent := fun _ => h.recent some_frame }

end Sound

theorem Sound.step (h : s.Sound began) (e : BudgetEvent)
    (short : (s.step e).now < began + 2 ^ 31) (began_le : began ≤ s.now)
    (apart : s.CreditsApart e) :
    (s.step e).Sound began := by
  cases e with
  | pass ms => exact h.pass ms
  | enter =>
      simp only [BudgetHost.step]
      split
      · next callable => exact h.enter callable began_le
      · exact h
  | native =>
      simp only [BudgetHost.step]
      split
      · next scripting =>
          refine h.push scripting (fun pos grounded => ⟨pos, grounded⟩) (by simp) ?_
          intro t0 same
          cases same
          rfl
      · exact h
  | binding =>
      simp only [BudgetHost.step]
      split
      · next scripting =>
          exact h.push scripting (fun pos grounded => ⟨pos, grounded⟩) (by simp)
            (fun t0 same => by cases same)
      · exact h
  | endBinding =>
      simp only [BudgetHost.step] at short ⊢
      split
      · next t0 rest frames =>
          have some_frame : s.frames ≠ [] := by simp [frames]
          have started := h.starts t0 (by simp [frames])
          simp only [frames] at short
          have credited := h.giveBack some_frame started short (apart rfl t0 (by simp [frames]))
          exact credited.pop frames (by simp)
      · next rest frames => exact h.pop frames (by simp)
      · exact h
  | tick =>
      simp only [BudgetHost.step]
      split
      · exact h.tick
      · exact h
  | leave =>
      simp only [BudgetHost.step]
      split
      · next scripting => exact h.leave scripting
      · exact h

/-! ## The promise of the budget -/

theorem step_now (s : BudgetHost) (e : BudgetEvent) : (s.step e).now = s.now + e.ms := by
  cases e with
  | pass ms => rfl
  | enter =>
      simp only [BudgetHost.step]
      split <;> rfl
  | native =>
      simp only [BudgetHost.step]
      split <;> rfl
  | binding =>
      simp only [BudgetHost.step]
      split <;> rfl
  | endBinding =>
      simp only [BudgetHost.step]
      split <;> rfl
  | tick =>
      simp only [BudgetHost.step]
      split <;> rfl
  | leave =>
      simp only [BudgetHost.step]
      split <;> rfl

theorem outer_clock (h : s.Sound began) (outermost : s.frames = []) :
    (s.step .enter).budget.startMs = s.millis := by
  have idle : s.budget.depth = 0 := by
    rw [h.depth, outermost]
    rfl
  have callable : s.callable = true := by
    simp [BudgetHost.callable, scripting, outermost, callsOf, LUAI_MAXCCALLS]
  simp [BudgetHost.step, callable, luaBudgetEnter, idle]

/-- While a call runs, only a credit moves the start, and `hit` stays: the outermost enter alone
resets them. -/
theorem step_budget (h : s.Sound began) (some_frame : s.frames ≠ []) (e : BudgetEvent) :
    (e ≠ .endBinding → (s.step e).budget.startMs = s.budget.startMs) ∧
      (s.budget.hit = true → (s.step e).budget.hit = true) := by
  have busy : s.budget.depth ≠ 0 := h.depth_pos some_frame
  have same {b : LuaBudget} (start : b.startMs = s.budget.startMs)
      (hit : s.budget.hit = true → b.hit = true) :
      (e ≠ .endBinding → b.startMs = s.budget.startMs) ∧ (s.budget.hit = true → b.hit = true) :=
    ⟨fun _ => start, hit⟩
  cases e with
  | pass ms => exact same rfl id
  | enter =>
      simp only [BudgetHost.step, luaBudgetEnter, busy, if_false]
      split <;> exact same rfl id
  | native =>
      simp only [BudgetHost.step]
      split <;> exact same rfl id
  | binding =>
      simp only [BudgetHost.step]
      split <;> exact same rfl id
  | endBinding =>
      simp only [BudgetHost.step, luaBudgetCredit, busy, if_false]
      refine ⟨fun other => absurd rfl other, fun hit => ?_⟩
      split <;> exact hit
  | tick =>
      simp only [BudgetHost.step, luaBudgetTick, busy, if_false]
      split
      · exact same rfl fun hit => by rw [hit, Bool.true_or]
      · exact same rfl id
  | leave =>
      simp only [BudgetHost.step, luaBudgetLeave, busy, if_false]
      split <;> exact same rfl id

theorem tick_raises (h : s.Sound began) (some_frame : s.frames ≠ [])
    (short : s.now < began + 2 ^ 31) :
    (luaBudgetTick s.budget s.millis).1 = true ↔
      luaBudgetSpent s.budget = true ∨ LUA_SCRIPT_BUDGET_MS ≤ s.now - s.entered - s.nativeMs := by
  have busy : s.budget.depth ≠ 0 := h.depth_pos some_frame
  simp only [luaBudgetTick, luaBudgetSpent, waitBudgetSpent, busy, if_false,
    h.since some_frame short, Nat.pos_of_ne_zero busy, decide_true, Bool.true_and,
    Bool.or_eq_true, decide_eq_true_eq]

theorem start_le_now (h : s.Sound began) (some_frame : s.frames ≠ [])
    (short : s.now < began + 2 ^ 31) :
    Word32.sub s.millis s.budget.startMs ≤ s.now - s.entered := by
  rw [h.since some_frame short]
  exact Nat.sub_le _ _

theorem Sound.exact (h : s.Sound began) {e : BudgetEvent} (next : (s.step e).Sound began)
    (short : (s.step e).now < began + 2 ^ 31) : s.Exact e where
  outer := by
    rintro rfl outermost
    exact outer_clock h outermost
  inner other some_frame := (step_budget h some_frame e).1 other
  raises := by
    rintro rfl scripting
    have some_frame : s.frames ≠ [] := by
      rw [frames_of_scripting scripting]
      exact List.cons_ne_nil _ _
    rw [step_now] at short
    exact tick_raises h some_frame short
  start_le some_frame := start_le_now next some_frame short
  stays := by
    intro spent
    simp only [luaBudgetSpent, Bool.and_eq_true, decide_eq_true_eq] at spent ⊢
    by_cases left : (s.step e).frames = []
    · exact Or.inr left
    · have some_frame : s.frames ≠ [] := by
        intro none
        rw [h.depth, none] at spent
        exact absurd spent.1 (Nat.lt_irrefl 0)
      have hit := (step_budget h some_frame e).2 spent.2
      exact Or.inl ⟨Nat.pos_of_ne_zero (next.depth_pos left), hit⟩

/-- Within a short run, each step ends before the clock has come halfway round. -/
theorem meets_short (began : Nat) (es : List BudgetEvent) (s : BudgetHost)
    (started : began ≤ s.now) (short : s.now + elapsed es < began + 2 ^ 31) :
    Machine.Meets step (fun s e => began ≤ s.now ∧ (s.step e).now < began + 2 ^ 31) s es := by
  induction es generalizing s with
  | nil => trivial
  | cons e es ih =>
      have passed := step_now s e
      rw [elapsed, ← Nat.add_assoc, ← passed] at short
      have later : began ≤ (s.step e).now := by omega
      exact ⟨⟨started, by omega⟩, ih (s.step e) later short⟩

end BudgetHost

end Thesada.Script
