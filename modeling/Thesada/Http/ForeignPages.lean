import Thesada.Http.Admission

/-!
# What a page of another site can do

The browser of an operator adds the credential it remembers to a request that a page of another
site makes, but no bearer token. Such a request is not let in where it would change something, and
it is no guess either, so that no page locks the operator out of a device it cannot even read. All
it does is age the lockout table, which the next look at the table does as well.
-/

namespace Thesada.Http

open CString Machine Secret

/-! ## The lockout table at a time -/

namespace RateEntry

theorem age_later (c : RateEntry) {now later : Nat} (le : now ≤ later) :
    (c.age now).age later = c.age later := by
  simp only [age]
  split_ifs <;> simp_all [cleared, LOGIN_RATE_MAX_FAILS] <;> omega

theorem age_ip_ne {c : RateEntry} {ip : Str} (some_ : ip ≠ []) (other : c.ip ≠ ip) (now : Nat) :
    (c.age now).ip ≠ ip := by
  obtain same | gone := c.age_ip now
  · rw [same]
    exact other
  · rw [gone]
    exact some_.symm

end RateEntry

namespace LoginRateTable

open RateEntry

variable {N now : Nat} {t : LoginRateTable N} {ip : Str}

/-- Every entry as the next look at it leaves it. -/
def agedTo (t : LoginRateTable N) (now : Nat) : LoginRateTable N :=
  ⟨fun i => (t.slots i).age now, t.overEntry.age now⟩

theorem agedTo_of_aged {slots : Fin N → RateEntry} (aged : Aged now t.slots slots) :
    agedTo { t with slots } now = t.agedTo now := by
  simp only [agedTo, aged.age]

theorem agedTo_later {later : Nat} (le : now ≤ later) :
    (t.agedTo now).agedTo later = t.agedTo later := by
  simp only [agedTo, age_later _ le]

theorem aged_agedTo (t : LoginRateTable N) (now : Nat) : Aged now t.slots (t.agedTo now).slots :=
  fun _ => .inr rfl

/-- A lookup ends at the slot that is for the address at that time. -/
theorem find_agedTo (h : SlotsInv t.slots) (address : ip ≠ []) (now : Nat) :
    ∃ slots, Aged now t.slots slots ∧ t.find ip now = ({ t with slots },
      (List.finRange N).find? fun i => decide (((t.agedTo now).slots i).ip = clip ip)) ∧
      ∀ i, ((t.agedTo now).slots i).ip = clip ip → slots i = (t.agedTo now).slots i := by
  have inv := h.aged (aged_agedTo t now)
  obtain ⟨slots, aged, ⟨i, same, held, found⟩ | ⟨absent, found⟩⟩ := find_cases h address now
  · have only (j : Fin N) (other : ((t.agedTo now).slots j).ip = clip ip) : j = i := by
      apply inv.apart
      · rw [other]
        exact clip_ne_nil address
      · rw [other, ← held, same]
        rfl
    refine ⟨slots, aged, ?_, fun j other => only j other ▸ same⟩
    cases first : (List.finRange N).find?
      fun i => decide (((t.agedTo now).slots i).ip = clip ip) with
    | none =>
        have misses := List.find?_eq_none.mp first i (List.mem_finRange i)
        rw [same] at held
        simp [agedTo, held] at misses
    | some j =>
        rw [found, only j (by simpa using List.find?_some first)]
  · have none_ (i : Fin N) : ((t.agedTo now).slots i).ip ≠ clip ip := by
      have still := age_ip_ne (clip_ne_nil address) (absent i) now
      rwa [aged.age] at still
    refine ⟨slots, aged, ?_, fun i held => absurd held (none_ i)⟩
    rw [found, List.find?_eq_none.mpr (by simp [none_])]

/-- A new address goes to the first slot that is free at that time. -/
theorem freeSlot_agedTo (t : LoginRateTable N) (now : Nat) :
    ∃ slots, Aged now t.slots slots ∧ t.freeSlot now = ({ t with slots },
      (List.finRange N).find? fun i => decide (((t.agedTo now).slots i).ip = [])) ∧
      ∀ i, (t.freeSlot now).2 = some i → slots i = (t.agedTo now).slots i := by
  have first (slots : Fin N → RateEntry) (is : List (Fin N)) :
      (freeSlotIn now slots is).2 = is.find? fun i => decide (((slots i).age now).ip = []) := by
    induction is generalizing slots with
    | nil => rfl
    | cons i rest ih =>
        by_cases empty : ((slots i).age now).ip = []
        · simp [freeSlotIn, empty]
        · simp only [freeSlotIn, empty, if_false, decide_false, List.find?_cons_of_neg, ih,
            (Aged.ageSlot slots i now).age, Bool.false_eq_true, not_false_eq_true]
  refine ⟨_, freeSlotIn_aged now t.slots (List.finRange N), Prod.ext rfl (first _ _), ?_⟩
  intro i found
  obtain ⟨full, -⟩ | ⟨j, -, taken, -, left⟩ := freeSlotIn_cases now t.slots (List.finRange N)
  · cases full.symm.trans found
  · obtain rfl := Option.some.inj (taken.symm.trans found)
    exact left

/-! ### The calls at that time -/

/-- The verdict of `allow`, from the entries as they are at its time. -/
def serves (a : LoginRateTable N) (ip : Str) : Bool :=
  match (List.finRange N).find? fun i => decide ((a.slots i).ip = clip ip) with
  | some i => (a.slots i).fails < LOGIN_RATE_MAX_FAILS
  | none =>
      match (List.finRange N).find? fun i => decide ((a.slots i).ip = []) with
      | some _ => true
      | none => a.overEntry.fails < LOGIN_RATE_MAX_FAILS

/-- What `fail` leaves, from and to entries as they are at its time. -/
def failAt (a : LoginRateTable N) (ip : Str) (now : Nat) : LoginRateTable N :=
  match (List.finRange N).find? fun i => decide ((a.slots i).ip = clip ip) with
  | some i =>
      { a with slots := Function.update a.slots i (((a.slots i).count now).age now) }
  | none =>
      match (List.finRange N).find? fun i => decide ((a.slots i).ip = []) with
      | some i =>
          { a with
            slots := Function.update a.slots i ((((a.slots i).claim ip).count now).age now) }
      | none => { a with overEntry := (a.overEntry.count now).age now }

def resetAt (a : LoginRateTable N) (ip : Str) : LoginRateTable N :=
  { a with slots := fun i => if (a.slots i).ip = clip ip then cleared else a.slots i }

theorem allow_agedTo (h : SlotsInv t.slots) (address : ip ≠ []) (now : Nat) :
    (t.allow ip now).1.agedTo now = t.agedTo now ∧
      (t.allow ip now).2 = (t.agedTo now).serves ip := by
  obtain ⟨slots, aged, found, same⟩ := find_agedTo h address now
  simp only [allow, serves, found]
  cases held : (List.finRange N).find?
    fun i => decide (((t.agedTo now).slots i).ip = clip ip) with
  | some i =>
      have mine : ((t.agedTo now).slots i).ip = clip ip := by simpa using List.find?_some held
      exact ⟨agedTo_of_aged aged, by simp only [same i mine]⟩
  | none =>
      obtain ⟨slots', aged', taken, -⟩ := freeSlot_agedTo { t with slots } now
      rw [agedTo_of_aged aged] at taken
      simp only [address, if_false, taken]
      cases (List.finRange N).find? fun i => decide (((t.agedTo now).slots i).ip = []) with
      | some i => exact ⟨agedTo_of_aged (aged.trans aged'), rfl⟩
      | none =>
          refine ⟨?_, rfl⟩
          simp only [overflow, agedTo, (aged.trans aged').age, age_age]

theorem fail_agedTo (h : SlotsInv t.slots) (address : ip ≠ []) (now : Nat) :
    (t.fail ip now).agedTo now = (t.agedTo now).failAt ip now := by
  have counted {slots : Fin N → RateEntry} (aged : Aged now t.slots slots) (i : Fin N)
      (e : RateEntry) : agedTo { t with slots := Function.update slots i e } now =
        { t.agedTo now with slots := Function.update (t.agedTo now).slots i (e.age now) } := by
    simp only [agedTo, LoginRateTable.mk.injEq, and_true]
    funext j
    simp only [Function.update_apply]
    split_ifs
    · rfl
    · exact aged.age j
  obtain ⟨slots, aged, found, same⟩ := find_agedTo h address now
  simp only [fail, failAt, address, if_false, found]
  cases held : (List.finRange N).find?
    fun i => decide (((t.agedTo now).slots i).ip = clip ip) with
  | some i =>
      have mine : ((t.agedTo now).slots i).ip = clip ip := by simpa using List.find?_some held
      simp only [counted aged, same i mine]
  | none =>
      obtain ⟨slots', aged', taken, first⟩ := freeSlot_agedTo { t with slots } now
      rw [agedTo_of_aged aged] at taken first
      simp only [taken] at first ⊢
      cases free : (List.finRange N).find?
        fun i => decide (((t.agedTo now).slots i).ip = []) with
      | some i => simp only [counted (aged.trans aged'), first i free]
      | none => simp only [overflow, agedTo, (aged.trans aged').age]

theorem reset_agedTo (h : SlotsInv t.slots) (address : ip ≠ []) (now : Nat) :
    (t.reset ip).agedTo now = (t.agedTo now).resetAt ip := by
  have forgets : t.reset ip =
      { t with slots := fun i => if (t.slots i).ip = clip ip then cleared else t.slots i } := by
    obtain ⟨slots, aged, found, same⟩ := find_agedTo h address 0
    have unaged : slots = t.slots := funext fun i => (aged i).elim id (·.trans (age_zero h i))
    have now_ (i : Fin N) : (t.agedTo 0).slots i = t.slots i := age_zero h i
    simp only [now_] at found
    subst unaged
    simp only [reset, found]
    cases held : (List.finRange N).find? fun i => decide ((t.slots i).ip = clip ip) with
    | some i =>
        have mine : (t.slots i).ip = clip ip := by simpa using List.find?_some held
        simp only [LoginRateTable.mk.injEq, and_true]
        funext j
        by_cases here : j = i
        · subst here
          simp [mine]
        · have other : (t.slots j).ip ≠ clip ip := fun also =>
            here (h.apart j i (also ▸ clip_ne_nil address) (also.trans mine.symm))
          simp [here, other]
    | none =>
        have other (i : Fin N) : (t.slots i).ip ≠ clip ip := by
          simpa using List.find?_eq_none.mp held i (List.mem_finRange i)
        simp [other]
  rw [forgets]
  refine congrArg (LoginRateTable.mk · _) (funext fun i => ?_)
  change (if (t.slots i).ip = clip ip then cleared else t.slots i).age now =
    if ((t.slots i).age now).ip = clip ip then cleared else (t.slots i).age now
  by_cases held : (t.slots i).ip = clip ip
  · rw [if_pos held]
    obtain same | gone := age_ip (t.slots i) now
    · rw [if_pos (same.trans held)]
      rfl
    · rw [gone, ite_self]
      rfl
  · rw [if_neg held, if_neg (age_ip_ne (clip_ne_nil address) held now)]

end LoginRateTable

theorem IPv4.text_ne_nil (ip : IPv4) : ip.text ≠ [] := by simp [IPv4.text]

/-- Tables that only the time of the last look tells apart. -/
structure SameTables {N : Nat} (now : Nat) (a b : LoginRateTable N) : Prop where
  slots : SlotsInv a.slots
  slots' : SlotsInv b.slots
  same : a.agedTo now = b.agedTo now

namespace SameTables

variable {N now : Nat} {a b : LoginRateTable N}

theorem refl (slots : SlotsInv a.slots) : SameTables now a a := ⟨slots, slots, rfl⟩

theorem later (h : SameTables now a b) {later : Nat} (le : now ≤ later) :
    SameTables later a b :=
  ⟨h.slots, h.slots', by
    rw [← LoginRateTable.agedTo_later le, h.same, LoginRateTable.agedTo_later le]⟩

theorem allow (h : SameTables now a b) (ip : IPv4) :
    (a.allow ip.text now).2 = (b.allow ip.text now).2 ∧
      SameTables now (a.allow ip.text now).1 (b.allow ip.text now).1 := by
  obtain ⟨left, verdict⟩ := LoginRateTable.allow_agedTo h.slots ip.text_ne_nil now
  obtain ⟨left', verdict'⟩ := LoginRateTable.allow_agedTo h.slots' ip.text_ne_nil now
  refine ⟨by rw [verdict, verdict', h.same], ?_, ?_, by rw [left, left', h.same]⟩
  · exact LoginRateTable.step_inv h.slots (.allow ip.text now)
  · exact LoginRateTable.step_inv h.slots' (.allow ip.text now)

theorem fail (h : SameTables now a b) (ip : IPv4) :
    SameTables now (a.fail ip.text now) (b.fail ip.text now) where
  slots := LoginRateTable.step_inv h.slots (.fail ip.text now)
  slots' := LoginRateTable.step_inv h.slots' (.fail ip.text now)
  same := by
    rw [LoginRateTable.fail_agedTo h.slots ip.text_ne_nil,
      LoginRateTable.fail_agedTo h.slots' ip.text_ne_nil, h.same]

theorem reset (h : SameTables now a b) (ip : IPv4) :
    SameTables now (a.reset ip.text) (b.reset ip.text) where
  slots := LoginRateTable.step_inv h.slots (.reset ip.text now)
  slots' := LoginRateTable.step_inv h.slots' (.reset ip.text now)
  same := by
    rw [LoginRateTable.reset_agedTo h.slots ip.text_ne_nil,
      LoginRateTable.reset_agedTo h.slots' ip.text_ne_nil, h.same]

/-- A look at one of the tables. -/
theorem looked (h : SameTables now a b) (ip : IPv4) :
    SameTables now (a.allow ip.text now).1 b where
  slots := LoginRateTable.step_inv h.slots (.allow ip.text now)
  slots' := h.slots'
  same := by rw [(LoginRateTable.allow_agedTo h.slots ip.text_ne_nil now).1, h.same]

end SameTables

/-! ## Requests of another site -/

/-- The request of a page of another site. -/
def WebRequest.foreign (r : WebRequest) : Bool :=
  r.secFetchSite = some "cross-site".toList && r.bearer.isNone

def AdminEvent.foreign : AdminEvent → Bool
  | .request _ r _ => r.foreign
  | _ => false

section Foreign

variable {N : Nat} (authenticate : WebRequest → Str → Str → Bool) (s : AdminUnit N)
  {r : WebRequest} {io : WebIo}

namespace AdminUnit

/-- A change that a foreign page asks for is refused, and is no guess. -/
theorem checkAuth_foreign (foreign : r.foreign = true) {route : Route}
    (changes : route.stateChanging = true) (opens : Bool) :
    (s.checkAuth authenticate route r opens).allowed = false ∧
      (s.checkAuth authenticate route r opens).guessed = false := by
  simp only [WebRequest.foreign, Bool.and_eq_true, decide_eq_true_eq, Option.isNone_iff_eq_none]
    at foreign
  have refused : webAuthBasicAllowed route.stateChanging r.secFetchSite = false := by
    rw [foreign.1, changes]
    decide
  simp [checkAuth, bearerValid, foreign.2, refused, webAuthAllowed, webAuthCountsAsGuess]

theorem tryLogin_foreign (foreign : r.foreign = true) {route : Route}
    (changes : route.stateChanging = true) (io : WebIo) :
    (s.tryLogin authenticate route r io).1 =
        { s with limiter := (s.limiter.allow r.ip.text s.clock).1 } ∧
      (s.tryLogin authenticate route r io).2.letsIn = false := by
  have refused := checkAuth_foreign authenticate
    { s with limiter := (s.limiter.allow r.ip.text s.clock).1 } foreign changes io.opens
  simp only [tryLogin, refused.1, refused.2]
  split
  · exact ⟨rfl, rfl⟩
  · split <;> exact ⟨rfl, rfl⟩

/-- A foreign page is not let in where it would change something, and all it leaves is time on the
entries that its address is looked for in. -/
theorem handle_foreign (foreign : r.foreign = true) (route : Route) (io : WebIo) :
    ((s.handle authenticate route r io).1 = s ∨ (s.handle authenticate route r io).1 =
        { s with limiter := (s.limiter.allow r.ip.text s.clock).1 }) ∧
      (route.stateChanging = true → (s.handle authenticate route r io).2.letsIn = false) := by
  cases route with
  | authCheck =>
      obtain ⟨left, refused⟩ := tryLogin_foreign authenticate s foreign
        (show Route.authCheck.stateChanging = true from rfl) io
      exact ⟨.inr left, fun _ => refused⟩
  | login random =>
      obtain ⟨left, refused⟩ := tryLogin_foreign authenticate s foreign
        (show (Route.login random).stateChanging = true from rfl) io
      have same : s.handle authenticate (.login random) r io =
          s.tryLogin authenticate (.login random) r io := by
        simp only [handle]
        split
        next tried =>
          rw [tried] at refused
          cases refused
        · rfl
      rw [same]
      exact ⟨.inr left, fun _ => refused⟩
  | wsToken =>
      have refused := (checkAuth_foreign authenticate s foreign
        (show Route.wsToken.stateChanging = true from rfl) io.opens).1
      simp [handle, refused, Answer.letsIn]
  | admin method surface =>
      refine ⟨.inl ?_, fun changes => ?_⟩
      · simp only [handle]
        split
        · rfl
        · cases surface with
          | none => rfl
          | some surface =>
              simp only
              split <;> rfl
      · simp [handle, (checkAuth_foreign authenticate s foreign changes io.opens).1,
          Answer.letsIn]

/-! ## The unit without them -/

variable {s} {limiter : LoginRateTable N}

theorem tryLogin_same (h : SameTables s.clock s.limiter limiter) (answers : List Answered)
    (route : Route) (r : WebRequest) (io : WebIo) :
    ∃ l l' answer, SameTables s.clock l l' ∧
      s.tryLogin authenticate route r io = ({ s with limiter := l }, answer) ∧
      { s with limiter, answers }.tryLogin authenticate route r io =
        ({ s with limiter := l', answers }, answer) := by
  obtain ⟨verdict, looked⟩ := h.allow r.ip
  have check (l l' : LoginRateTable N) :
      { s with limiter := l', answers }.checkAuth authenticate route r io.opens =
        { s with limiter := l }.checkAuth authenticate route r io.opens := rfl
  have cred (l l' : LoginRateTable N) :
      { s with limiter := l', answers }.webCred io.lockOpens =
        { s with limiter := l }.webCred io.lockOpens := rfl
  simp only [tryLogin, ← verdict,
    check (s.limiter.allow r.ip.text s.clock).1 (limiter.allow r.ip.text s.clock).1,
    cred (s.limiter.allow r.ip.text s.clock).1 (limiter.allow r.ip.text s.clock).1]
  split
  · exact ⟨_, _, _, looked, rfl, rfl⟩
  · split
    · exact ⟨_, _, _, looked, rfl, rfl⟩
    · split
      · split
        · exact ⟨_, _, _, looked.fail r.ip, rfl, rfl⟩
        · exact ⟨_, _, _, looked, rfl, rfl⟩
      · exact ⟨_, _, _, looked.reset r.ip, rfl, rfl⟩

/-- A request finds the same unit in both. -/
theorem handle_same (h : SameTables s.clock s.limiter limiter) (answers : List Answered)
    (route : Route) (r : WebRequest) (io : WebIo) :
    ∃ tokens ws l l' answer, SameTables s.clock l l' ∧
      s.handle authenticate route r io = ({ s with tokens, ws, limiter := l }, answer) ∧
      { s with limiter, answers }.handle authenticate route r io =
        ({ s with tokens, ws, limiter := l', answers }, answer) := by
  have check : { s with limiter, answers }.checkAuth authenticate route r io.opens =
      s.checkAuth authenticate route r io.opens := rfl
  cases route with
  | authCheck =>
      obtain ⟨l, l', answer, same, tried, tried'⟩ :=
        tryLogin_same authenticate h answers .authCheck r io
      exact ⟨_, _, l, l', answer, same, tried, tried'⟩
  | login random =>
      obtain ⟨l, l', answer, same, tried, tried'⟩ :=
        tryLogin_same authenticate h answers (.login random) r io
      simp only [handle, tried, tried']
      cases answer <;> exact ⟨_, _, l, l', _, same, rfl, rfl⟩
  | wsToken =>
      simp only [handle, check]
      split <;> exact ⟨_, _, _, _, _, h, rfl, rfl⟩
  | admin method surface =>
      simp only [handle, check]
      split
      · exact ⟨_, _, _, _, _, h, rfl, rfl⟩
      · cases surface with
        | none => exact ⟨_, _, _, _, _, h, rfl, rfl⟩
        | some surface =>
            simp only
            split <;> exact ⟨_, _, _, _, _, h, rfl, rfl⟩

end AdminUnit

/-- The units of a run and of the run without foreign pages. -/
structure SameUnit (s t : AdminUnit N) : Prop where
  same : t = { s with limiter := t.limiter, answers := t.answers }
  tables : SameTables s.clock s.limiter t.limiter
  answers : s.answers.filter (fun a => !a.request.foreign) = t.answers
  refused : ∀ a ∈ s.answers, a.request.foreign = true → a.route.stateChanging = true →
    a.answer.letsIn = false

variable {s} {t : AdminUnit N}

theorem SameUnit.foreign (h : SameUnit s t) {e : AdminEvent} (foreign : e.foreign = true) :
    SameUnit (adminStep authenticate s e) t := by
  cases e with
  | request route r io =>
      have page : r.foreign = true := foreign
      obtain ⟨left, refused⟩ := s.handle_foreign authenticate page route io
      have log : ∀ answer : Answer, (route.stateChanging = true → answer.letsIn = false) →
          ∀ a ∈ ⟨route, r, s.clock, s.webCred io.opens, s.mode, answer⟩ :: s.answers,
            a.request.foreign = true → a.route.stateChanging = true → a.answer.letsIn = false :=
        fun _ refused => List.forall_mem_cons.mpr ⟨fun _ => refused, h.refused⟩
      cases handled : s.handle authenticate route r io with
      | mk s' answer =>
        rw [handled] at left refused
        simp only [adminStep, handled]
        obtain rfl | rfl := left
        · exact ⟨h.same, h.tables, (List.filter_cons_of_neg (by simp [page])).trans h.answers,
            log answer refused⟩
        · exact ⟨h.same, h.tables.looked r.ip,
            (List.filter_cons_of_neg (by simp [page])).trans h.answers, log answer refused⟩
  | waits | snapshot | shellMode | secret | connects => cases foreign

theorem SameUnit.step (h : SameUnit s t) {e : AdminEvent} (own : e.foreign = false) :
    SameUnit (adminStep authenticate s e) (adminStep authenticate t e) := by
  obtain ⟨same, tables, answers, refused⟩ := h
  generalize t.limiter = limiter at same tables
  generalize t.answers = log at same answers
  subst same
  cases e with
  | waits ms => exact ⟨rfl, tables.later (Nat.le_add_right ..), answers, refused⟩
  | snapshot | shellMode | secret => exact ⟨rfl, tables, answers, refused⟩
  | connects ip =>
      have connected : { s with limiter, answers := log }.connect ip =
          { s.connect ip with limiter, answers := log } := by
        simp only [AdminUnit.connect]
        split
        · rfl
        · split <;> rfl
      obtain unchanged | ⟨-, i, -, opened⟩ := s.connect_cases ip
      · simp only [adminStep, connected, unchanged]
        exact ⟨rfl, tables, answers, refused⟩
      · simp only [adminStep, connected, opened]
        exact ⟨rfl, tables, answers, refused⟩
  | request route r io =>
      have page : r.foreign = false := own
      obtain ⟨tokens, ws, l, l', answer, tables, handled, handled'⟩ :=
        AdminUnit.handle_same authenticate tables log route r io
      have cred : { s with limiter, answers := log }.webCred io.opens = s.webCred io.opens := rfl
      simp only [adminStep, handled, handled', cred]
      refine ⟨rfl, tables, ?_, ?_⟩
      · rw [List.filter_cons_of_pos (by simp [page]), answers]
      · refine List.forall_mem_cons.mpr ⟨fun foreign => ?_, refused⟩
        rw [page] at foreign
        cases foreign

end Foreign

end Thesada.Http
