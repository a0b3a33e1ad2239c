import Mathlib.Data.Fintype.Basic
import Mathlib.Data.List.FinRange
import Thesada.Library.CString
import Thesada.Library.Machine

/-!
# The login lockout table

Five wrong guesses from one address lock it out for 30 s, and after that one more locks it again;
ten quiet minutes or a right password forget it. An address that finds no free slot counts on one
shared entry.

Every call ages the slots it looks at, those of other addresses too. Time is 64-bit uptime,
which does not wrap.
-/

namespace Thesada.Http

open CString Machine

def LOGIN_RATE_MAX_FAILS : Nat := 5
def LOGIN_RATE_LOCKOUT_MS : Nat := 30000
def LOGIN_RATE_QUIET_MS : Nat := 600000
def LOGIN_RATE_IP_CAP : Nat := 46

structure RateEntry where
  ip : Str
  fails : Nat
  /-- Lockout end while `fails` is at the limit. -/
  untilMs : Nat
  /-- Uptime of the latest counted failure. -/
  last : Nat
  deriving DecidableEq

namespace RateEntry

def cleared : RateEntry := ⟨[], 0, 0, 0⟩

/-- A quiet entry is cleared, a passed lockout drops to one below the limit. -/
def age (c : RateEntry) (now : Nat) : RateEntry :=
  if c.fails = 0 then c
  else if c.last + LOGIN_RATE_QUIET_MS ≤ now then cleared
  else if LOGIN_RATE_MAX_FAILS ≤ c.fails ∧ c.untilMs ≤ now then
    { c with fails := LOGIN_RATE_MAX_FAILS - 1, untilMs := 0 }
  else c

/-- One counted failure. -/
def count (c : RateEntry) (now : Nat) : RateEntry :=
  if LOGIN_RATE_MAX_FAILS ≤ c.fails then c
  else
    let fails := c.fails + 1
    { c with
      last := now
      fails
      untilMs := if LOGIN_RATE_MAX_FAILS ≤ fails then now + LOGIN_RATE_LOCKOUT_MS else c.untilMs }

/-- What a slot keeps of an address. -/
def clip (ip : Str) : Str := ip.take (LOGIN_RATE_IP_CAP - 1)

/-- `strncmp(c.ip, ip, LOGIN_RATE_IP_CAP - 1) == 0` for a slot that is taken. -/
def isFor (c : RateEntry) (ip : Str) : Bool := c.ip ≠ [] && clip c.ip = clip ip

def claim (c : RateEntry) (ip : Str) : RateEntry := { c with ip := clip ip }

end RateEntry

structure LoginRateTable (N : Nat) where
  /-- `_e`. -/
  slots : Fin N → RateEntry
  /-- `_over`, which counts every address that found no free slot. -/
  overEntry : RateEntry

def noLogins (N : Nat) : LoginRateTable N := ⟨fun _ => .cleared, .cleared⟩

namespace LoginRateTable

open RateEntry

variable {N : Nat}

def ageSlot (slots : Fin N → RateEntry) (i : Fin N) (now : Nat) : Fin N → RateEntry :=
  Function.update slots i ((slots i).age now)

/-- `find` over the slots that are left. -/
def findIn (ip : Str) (now : Nat) (slots : Fin N → RateEntry) :
    List (Fin N) → (Fin N → RateEntry) × Option (Fin N)
  | [] => (slots, none)
  | i :: rest =>
      if (slots i).isFor ip then
        (ageSlot slots i now, if ((slots i).age now).ip = [] then none else some i)
      else findIn ip now slots rest

def find (t : LoginRateTable N) (ip : Str) (now : Nat) : LoginRateTable N × Option (Fin N) :=
  if ip = [] then (t, none)
  else
    let (slots, s) := findIn ip now t.slots (List.finRange N)
    ({ t with slots }, s)

/-- `freeSlot` over the slots that are left: none while every slot holds a live address. -/
def freeSlotIn (now : Nat) (slots : Fin N → RateEntry) :
    List (Fin N) → (Fin N → RateEntry) × Option (Fin N)
  | [] => (slots, none)
  | i :: rest =>
      if ((slots i).age now).ip = [] then (ageSlot slots i now, some i)
      else freeSlotIn now (ageSlot slots i now) rest

def freeSlot (t : LoginRateTable N) (now : Nat) : LoginRateTable N × Option (Fin N) :=
  let (slots, i) := freeSlotIn now t.slots (List.finRange N)
  ({ t with slots }, i)

def overflow (t : LoginRateTable N) (now : Nat) : LoginRateTable N :=
  { t with overEntry := t.overEntry.age now }

/-- Whether to serve an attempt. -/
def allow (t : LoginRateTable N) (ip : Str) (now : Nat) : LoginRateTable N × Bool :=
  let (t, s) := t.find ip now
  match s with
  | some i => (t, (t.slots i).fails < LOGIN_RATE_MAX_FAILS)
  | none =>
      if ip = [] then (t, true)
      else
        let (t, free) := t.freeSlot now
        match free with
        | some _ => (t, true)
        | none =>
            let t := t.overflow now
            (t, t.overEntry.fails < LOGIN_RATE_MAX_FAILS)

/-- Count one wrong guess. -/
def fail (t : LoginRateTable N) (ip : Str) (now : Nat) : LoginRateTable N :=
  if ip = [] then t
  else
    let (t, s) := t.find ip now
    match s with
    | some i => { t with slots := Function.update t.slots i ((t.slots i).count now) }
    | none =>
        let (t, free) := t.freeSlot now
        match free with
        | some i => { t with slots := Function.update t.slots i (((t.slots i).claim ip).count now) }
        | none =>
            let t := t.overflow now
            { t with overEntry := t.overEntry.count now }

/-- Forget an address after a right password. -/
def reset (t : LoginRateTable N) (ip : Str) : LoginRateTable N :=
  let (t, s) := t.find ip 0
  match s with
  | some i => { t with slots := Function.update t.slots i cleared }
  | none => t

end LoginRateTable

inductive RateCall where
  | allow (ip : Str) (now : Nat)
  | fail (ip : Str) (now : Nat)
  /-- The call does not read the uptime it is made at. -/
  | reset (ip : Str) (now : Nat)
  deriving DecidableEq

namespace RateCall

def ip : RateCall → Str
  | allow ip _ => ip
  | fail ip _ => ip
  | reset ip _ => ip

def now : RateCall → Nat
  | allow _ now => now
  | fail _ now => now
  | reset _ now => now

def isReset : RateCall → Bool
  | reset .. => true
  | _ => false

end RateCall

def rateStep {N : Nat} (t : LoginRateTable N) : RateCall → LoginRateTable N
  | .allow ip now => (t.allow ip now).1
  | .fail ip now => t.fail ip now
  | .reset ip _ => t.reset ip

/-! ## Aging -/

namespace RateEntry

theorem age_cases (c : RateEntry) (now : Nat) :
    c.age now = c ∨ c.last + LOGIN_RATE_QUIET_MS ≤ now ∧ c.age now = cleared ∨
      LOGIN_RATE_MAX_FAILS ≤ c.fails ∧ c.untilMs ≤ now ∧
        c.age now = { c with fails := LOGIN_RATE_MAX_FAILS - 1, untilMs := 0 } := by
  simp only [age]
  split_ifs with idle quiet ended
  · exact .inl rfl
  · exact .inr (.inl ⟨quiet, rfl⟩)
  · exact .inr (.inr ⟨ended.1, ended.2, rfl⟩)
  · exact .inl rfl

@[simp] theorem age_age (c : RateEntry) (now : Nat) : (c.age now).age now = c.age now := by
  simp only [age]
  split_ifs <;> simp_all [cleared, LOGIN_RATE_MAX_FAILS]

/-- Aging keeps the address or forgets it. -/
theorem age_ip (c : RateEntry) (now : Nat) : (c.age now).ip = c.ip ∨ c.age now = cleared := by
  obtain same | ⟨-, gone⟩ | ⟨-, -, released⟩ := c.age_cases now
  · exact .inl (by rw [same])
  · exact .inr gone
  · exact .inl (by rw [released])

@[simp] theorem count_ip (c : RateEntry) (now : Nat) : (c.count now).ip = c.ip := by
  simp only [count]
  split <;> rfl

end RateEntry

/-- Slots that time alone has changed, each to the same uptime or not at all. -/
def Aged {N : Nat} (now : Nat) (slots slots' : Fin N → RateEntry) : Prop :=
  ∀ i, slots' i = slots i ∨ slots' i = (slots i).age now

namespace Aged

variable {N now : Nat} {slots slots' slots'' : Fin N → RateEntry}

theorem refl (now : Nat) (slots : Fin N → RateEntry) : Aged now slots slots := fun _ => .inl rfl

theorem trans (h : Aged now slots slots') (h' : Aged now slots' slots'') :
    Aged now slots slots'' := by
  intro i
  obtain first | first := h i <;> obtain second | second := h' i
  · exact .inl (second.trans first)
  · exact .inr (by rw [second, first])
  · exact .inr (second.trans first)
  · exact .inr (by rw [second, first, RateEntry.age_age])

theorem ageSlot (slots : Fin N → RateEntry) (i : Fin N) (now : Nat) :
    Aged now slots (LoginRateTable.ageSlot slots i now) := by
  intro j
  by_cases same : j = i
  · subst same
    exact .inr (Function.update_self ..)
  · exact .inl (Function.update_of_ne same ..)

theorem age (h : Aged now slots slots') (i : Fin N) : (slots' i).age now = (slots i).age now := by
  obtain same | same := h i <;> simp [same]

end Aged

/-! ## The invariant -/

/-- Slots hold clipped addresses, no address twice, and a lockout ends 30 s after its last
failure. -/
structure SlotsInv {N : Nat} (slots : Fin N → RateEntry) : Prop where
  clipped : ∀ i, RateEntry.clip (slots i).ip = (slots i).ip
  free : ∀ i, (slots i).ip = [] → (slots i).fails = 0
  apart : ∀ i j, (slots i).ip ≠ [] → (slots i).ip = (slots j).ip → i = j
  locked : ∀ i, LOGIN_RATE_MAX_FAILS ≤ (slots i).fails →
    (slots i).untilMs = (slots i).last + LOGIN_RATE_LOCKOUT_MS

namespace SlotsInv

open RateEntry

variable {N now : Nat} {slots slots' : Fin N → RateEntry} {ip : Str}

theorem none (N : Nat) : SlotsInv (noLogins N).slots where
  clipped := fun _ => rfl
  free := fun _ _ => rfl
  apart := fun _ _ taken => absurd rfl taken
  locked := fun _ limit => absurd limit (by simp [noLogins, cleared, LOGIN_RATE_MAX_FAILS])

theorem aged (h : SlotsInv slots) (aged : Aged now slots slots') : SlotsInv slots' := by
  have ip_of (i : Fin N) : (slots' i).ip = (slots i).ip ∨ slots' i = cleared := by
    obtain same | same := aged i
    · exact .inl (by rw [same])
    · rw [same]
      exact age_ip _ now
  refine ⟨?_, ?_, ?_, ?_⟩
  · intro i
    obtain same | gone := ip_of i
    · rw [same]
      exact h.clipped i
    · rw [gone]
      rfl
  · intro i empty
    obtain same | same := aged i
    · rw [same] at empty ⊢
      exact h.free i empty
    · rw [same] at empty ⊢
      obtain kept | ⟨-, gone⟩ | ⟨limit, -, released⟩ := age_cases (slots i) now
      · rw [kept] at empty ⊢
        exact h.free i empty
      · rw [gone]
        rfl
      · rw [released] at empty
        rw [h.free i empty] at limit
        exact absurd limit (by decide)
  · intro i j taken same
    obtain ipI | gone := ip_of i
    · obtain ipJ | gone := ip_of j
      · exact h.apart i j (ipI ▸ taken) (by rw [← ipI, ← ipJ, same])
      · rw [gone] at same
        exact absurd same taken
    · rw [gone] at taken
      exact absurd rfl taken
  · intro i limit
    obtain same | same := aged i
    · rw [same] at limit ⊢
      exact h.locked i limit
    · rw [same] at limit ⊢
      obtain kept | ⟨-, gone⟩ | ⟨-, -, released⟩ := age_cases (slots i) now
      · rw [kept] at limit ⊢
        exact h.locked i limit
      · rw [gone] at limit
        exact absurd limit (by decide)
      · rw [released] at limit
        exact absurd (show LOGIN_RATE_MAX_FAILS ≤ LOGIN_RATE_MAX_FAILS - 1 from limit) (by decide)

/-- A slot gets an entry under an address that no other slot holds. -/
theorem update (h : SlotsInv slots) {i : Fin N} {e : RateEntry} (clipped : clip e.ip = e.ip)
    (free : e.ip = [] → e.fails = 0) (alone : ∀ j, j ≠ i → e.ip ≠ [] → (slots j).ip ≠ e.ip)
    (locked : LOGIN_RATE_MAX_FAILS ≤ e.fails → e.untilMs = e.last + LOGIN_RATE_LOCKOUT_MS) :
    SlotsInv (Function.update slots i e) := by
  refine ⟨?_, ?_, ?_, ?_⟩
  · apply (Function.forall_update_iff slots fun _ e => clip e.ip = e.ip).mpr
    exact ⟨clipped, fun j _ => h.clipped j⟩
  · apply (Function.forall_update_iff slots fun _ e => e.ip = [] → e.fails = 0).mpr
    exact ⟨free, fun j _ => h.free j⟩
  · intro j k taken both
    by_cases first : j = i
    · by_cases second : k = i
      · exact first.trans second.symm
      · subst first
        rw [Function.update_self] at taken both
        rw [Function.update_of_ne second] at both
        exact absurd both.symm (alone k second taken)
    · rw [Function.update_of_ne first] at taken both
      by_cases second : k = i
      · subst second
        rw [Function.update_self] at both
        exact absurd both (alone j first (both ▸ taken))
      · rw [Function.update_of_ne second] at both
        exact h.apart j k taken both
  · apply (Function.forall_update_iff slots fun _ e =>
      LOGIN_RATE_MAX_FAILS ≤ e.fails → e.untilMs = e.last + LOGIN_RATE_LOCKOUT_MS).mpr
    exact ⟨locked, fun j _ => h.locked j⟩

/-- A count keeps what a slot's entry promises. -/
theorem count (h : SlotsInv slots) (i : Fin N) (taken : (slots i).ip ≠ []) (now : Nat) :
    SlotsInv (Function.update slots i ((slots i).count now)) := by
  apply h.update
  · rw [count_ip]
    exact h.clipped i
  · intro empty
    exact absurd (by rwa [count_ip] at empty) taken
  · intro j other _ same
    rw [count_ip] at same
    exact other (h.apart j i (same ▸ taken) same)
  · intro limit
    simp only [RateEntry.count] at limit ⊢
    split at limit
    · rename_i already
      rw [if_pos already]
      exact h.locked i already
    · rename_i below
      simp only [below, if_false]
      exact if_pos limit

end SlotsInv

/-! ## Looking for a slot -/

namespace LoginRateTable

open RateEntry

variable {N now : Nat} {slots : Fin N → RateEntry} {ip : Str} {is : List (Fin N)}

/-- No slot is for the address. -/
theorem findIn_of_not_isFor (absent : ∀ i ∈ is, (slots i).isFor ip = false) :
    findIn ip now slots is = (slots, none) := by
  induction is with
  | nil => rfl
  | cons i rest ih =>
      obtain ⟨first, later⟩ := List.forall_mem_cons.mp absent
      simp only [findIn, first, Bool.false_eq_true, if_false]
      exact ih later

/-- One slot is for the address. -/
theorem findIn_of_isFor {i : Fin N} (mem : i ∈ is) (held : (slots i).isFor ip = true)
    (only : ∀ j, (slots j).isFor ip = true → j = i) :
    findIn ip now slots is =
      (ageSlot slots i now, if ((slots i).age now).ip = [] then none else some i) := by
  induction is with
  | nil => simp at mem
  | cons j rest ih =>
      cases first : (slots j).isFor ip with
      | true =>
          obtain rfl := only j first
          simp [findIn, first]
      | false =>
          have other : i ≠ j := by
            rintro rfl
            simp [held] at first
          simp only [findIn, first, Bool.false_eq_true, if_false]
          exact ih (List.mem_of_ne_of_mem other mem)

theorem freeSlotIn_aged (now : Nat) (slots : Fin N → RateEntry) (is : List (Fin N)) :
    Aged now slots (freeSlotIn now slots is).1 := by
  induction is generalizing slots with
  | nil => exact .refl now slots
  | cons i rest ih =>
      simp only [freeSlotIn]
      split
      · exact .ageSlot slots i now
      · exact (Aged.ageSlot slots i now).trans (ih _)

/-- A slot is found exactly when one is free or quiet, and the one found is empty by then. -/
theorem freeSlotIn_cases (now : Nat) (slots : Fin N → RateEntry) (is : List (Fin N)) :
    (freeSlotIn now slots is).2 = none ∧ (∀ i ∈ is, ((slots i).age now).ip ≠ []) ∨
      ∃ i ∈ is, (freeSlotIn now slots is).2 = some i ∧ ((slots i).age now).ip = [] ∧
        (freeSlotIn now slots is).1 i = (slots i).age now := by
  induction is generalizing slots with
  | nil => exact .inl ⟨rfl, by simp⟩
  | cons i rest ih =>
      by_cases empty : ((slots i).age now).ip = []
      · refine .inr ⟨i, List.mem_cons_self, ?_, empty, ?_⟩
        · simp only [freeSlotIn, empty, if_true]
        · simp only [freeSlotIn, empty, if_true]
          exact Function.update_self ..
      · have same (j : Fin N) : (ageSlot slots i now j).age now = (slots j).age now :=
          (Aged.ageSlot slots i now).age j
        simp only [freeSlotIn, empty, if_false]
        obtain ⟨full, live⟩ | ⟨j, mem, found, gone, left⟩ := ih (ageSlot slots i now)
        · refine .inl ⟨full, List.forall_mem_cons.mpr ⟨empty, ?_⟩⟩
          intro j mem
          rw [← same]
          exact live j mem
        · exact .inr ⟨j, List.mem_cons_of_mem _ mem, found, same j ▸ gone, same j ▸ left⟩

/-! ### What a call does -/

variable {t : LoginRateTable N}

theorem clip_ne_nil (address : ip ≠ []) : clip ip ≠ [] := by
  simp [clip, LOGIN_RATE_IP_CAP, address]

theorem isFor_iff (h : SlotsInv slots) {i : Fin N} (address : ip ≠ []) :
    (slots i).isFor ip = true ↔ (slots i).ip = clip ip := by
  simp only [isFor, h.clipped i, Bool.and_eq_true, decide_eq_true_eq]
  constructor
  · exact And.right
  · intro same
    exact ⟨same ▸ clip_ne_nil address, same⟩

/-- A call that reads no clock ages nothing. -/
theorem age_zero (h : SlotsInv slots) (i : Fin N) : (slots i).age 0 = slots i := by
  obtain same | ⟨quiet, -⟩ | ⟨limit, ended, -⟩ := age_cases (slots i) 0
  · exact same
  · simp [LOGIN_RATE_QUIET_MS] at quiet
  · rw [h.locked i limit] at ended
    simp [LOGIN_RATE_LOCKOUT_MS] at ended

theorem age_of_free (h : SlotsInv slots) {i : Fin N} (free : (slots i).ip = []) :
    (slots i).age now = slots i := by
  simp [age, h.free i free]

theorem find_of_held (h : SlotsInv t.slots) (address : ip ≠ []) {i : Fin N}
    (held : (t.slots i).ip = clip ip) (now : Nat) :
    t.find ip now = ({ t with slots := ageSlot t.slots i now },
      if ((t.slots i).age now).ip = [] then none else some i) := by
  have only : ∀ j, (t.slots j).isFor ip = true → j = i := by
    intro j other
    rw [isFor_iff h address] at other
    exact h.apart j i (other ▸ clip_ne_nil address) (other.trans held.symm)
  simp only [find, address, if_false,
    findIn_of_isFor (List.mem_finRange i) ((isFor_iff h address).mpr held) only]

/-- A lookup ends at the slot of the address, or no slot is left for it. -/
theorem find_cases (h : SlotsInv t.slots) (address : ip ≠ []) (now : Nat) :
    ∃ slots, Aged now t.slots slots ∧
      ((∃ i, slots i = (t.slots i).age now ∧ (slots i).ip = clip ip ∧
          t.find ip now = ({ t with slots }, some i)) ∨
        (∀ i, (slots i).ip ≠ clip ip) ∧ t.find ip now = ({ t with slots }, none)) := by
  by_cases present : ∃ i, (t.slots i).ip = clip ip
  · obtain ⟨i, held⟩ := present
    have aged : ageSlot t.slots i now i = (t.slots i).age now := Function.update_self ..
    refine ⟨ageSlot t.slots i now, Aged.ageSlot t.slots i now, ?_⟩
    rw [find_of_held h address held]
    obtain same | gone := age_ip (t.slots i) now
    · refine .inl ⟨i, aged, by rw [aged, same, held], ?_⟩
      rw [if_neg (by rw [same, held]; exact clip_ne_nil address)]
    · refine .inr ⟨?_, by rw [if_pos (by rw [gone]; rfl)]⟩
      intro j
      by_cases same : j = i
      · subst same
        rw [aged, gone]
        exact (clip_ne_nil address).symm
      · rw [ageSlot, Function.update_of_ne same]
        intro other
        exact same (h.apart j i (other ▸ clip_ne_nil address) (other.trans held.symm))
  · refine ⟨t.slots, .refl now _, .inr ⟨fun i held => present ⟨i, held⟩, ?_⟩⟩
    have absent : ∀ i ∈ List.finRange N, (t.slots i).isFor ip = false := by
      intro i _
      rw [Bool.eq_false_iff, Ne, isFor_iff h address]
      exact fun held => present ⟨i, held⟩
    simp only [find, address, if_false, findIn_of_not_isFor absent]

theorem not_held_of_aged {slots' : Fin N → RateEntry} (aged : Aged now slots slots')
    (address : ip ≠ []) (absent : ∀ i, (slots i).ip ≠ clip ip) (i : Fin N) :
    (slots' i).ip ≠ clip ip := by
  obtain same | same := aged i
  · rw [same]
    exact absent i
  · rw [same]
    obtain kept | gone := age_ip (slots i) now
    · rw [kept]
      exact absent i
    · rw [gone]
      exact (clip_ne_nil address).symm

/-- A slot is found for a new address, or every slot holds a live one. -/
theorem freeSlot_cases (t : LoginRateTable N) (now : Nat) :
    ∃ slots, Aged now t.slots slots ∧
      ((∃ i, slots i = (t.slots i).age now ∧ (slots i).ip = [] ∧
          t.freeSlot now = ({ t with slots }, some i)) ∨
        (∀ i, ((t.slots i).age now).ip ≠ []) ∧ t.freeSlot now = ({ t with slots }, none)) := by
  refine ⟨_, freeSlotIn_aged now t.slots (List.finRange N), ?_⟩
  obtain ⟨full, live⟩ | ⟨i, -, found, gone, left⟩ :=
    freeSlotIn_cases now t.slots (List.finRange N)
  · refine .inr ⟨fun i => live i (List.mem_finRange i), ?_⟩
    simp only [freeSlot, full]
  · refine .inl ⟨i, left, by rw [left, gone], ?_⟩
    simp only [freeSlot, found]

/-- What `allow` answers by: the slot of the address, a free slot, or the shared entry. -/
theorem allow_cases (h : SlotsInv t.slots) (address : ip ≠ []) (now : Nat) :
    ∃ slots, Aged now t.slots slots ∧
      ((∃ i, slots i = (t.slots i).age now ∧ (slots i).ip = clip ip ∧
          t.allow ip now = ({ t with slots }, decide ((slots i).fails < LOGIN_RATE_MAX_FAILS))) ∨
        (∀ i, (slots i).ip ≠ clip ip) ∧
          ((∃ i, (slots i).ip = []) ∧ t.allow ip now = ({ t with slots }, true) ∨
            (∀ i, ((t.slots i).age now).ip ≠ []) ∧ t.allow ip now =
              (⟨slots, t.overEntry.age now⟩,
                decide ((t.overEntry.age now).fails < LOGIN_RATE_MAX_FAILS)))) := by
  obtain ⟨slots, aged, ⟨i, same, held, found⟩ | ⟨absent, found⟩⟩ := find_cases h address now
  · exact ⟨slots, aged, .inl ⟨i, same, held, by simp only [allow, found]⟩⟩
  · obtain ⟨slots', aged', room⟩ := freeSlot_cases { t with slots } now
    refine ⟨slots', aged.trans aged', .inr ⟨not_held_of_aged aged' address absent, ?_⟩⟩
    obtain ⟨i, -, free, taken⟩ | ⟨live, full⟩ := room
    · exact .inl ⟨⟨i, free⟩, by simp only [allow, found, address, if_false, taken]⟩
    · refine .inr ⟨fun i => aged.age i ▸ live i, ?_⟩
      simp only [allow, found, address, if_false, full, overflow]

/-- Where `fail` counts: the slot of the address, a free slot, or the shared entry. -/
theorem fail_cases (h : SlotsInv t.slots) (address : ip ≠ []) (now : Nat) :
    ∃ slots, Aged now t.slots slots ∧
      ((∃ i, slots i = (t.slots i).age now ∧ (slots i).ip = clip ip ∧
          t.fail ip now = { t with slots := Function.update slots i ((slots i).count now) }) ∨
        (∀ i, (slots i).ip ≠ clip ip) ∧
          ((∃ i, slots i = (t.slots i).age now ∧ (slots i).ip = [] ∧ t.fail ip now =
              { t with slots := Function.update slots i (((slots i).claim ip).count now) }) ∨
            (∀ i, ((t.slots i).age now).ip ≠ []) ∧
              t.fail ip now = ⟨slots, (t.overEntry.age now).count now⟩)) := by
  obtain ⟨slots, aged, ⟨i, same, held, found⟩ | ⟨absent, found⟩⟩ := find_cases h address now
  · exact ⟨slots, aged, .inl ⟨i, same, held, by simp only [fail, address, if_false, found]⟩⟩
  · obtain ⟨slots', aged', room⟩ := freeSlot_cases { t with slots } now
    refine ⟨slots', aged.trans aged', .inr ⟨not_held_of_aged aged' address absent, ?_⟩⟩
    obtain ⟨i, same, free, taken⟩ | ⟨live, full⟩ := room
    · refine .inl ⟨i, same.trans (aged.age i), free, ?_⟩
      simp only [fail, found, address, if_false, taken]
    · refine .inr ⟨fun i => aged.age i ▸ live i, ?_⟩
      simp only [fail, found, address, if_false, full, overflow]

/-- A call without an address leaves every slot. -/
theorem rateStep_blank {c : RateCall} (blank : c.ip = []) (i : Fin N) :
    (rateStep t c).slots i = t.slots i := by
  cases c with
  | allow ip now =>
      obtain rfl : ip = [] := blank
      simp [rateStep, allow, find]
  | fail ip now =>
      obtain rfl : ip = [] := blank
      simp [rateStep, fail]
  | reset ip now =>
      obtain rfl : ip = [] := blank
      simp [rateStep, reset, find]

/-- A right password clears the slot of its address and no other. -/
theorem reset_slot (h : SlotsInv t.slots) {ip : Str} (address : ip ≠ []) (now : Nat) (i : Fin N) :
    (rateStep t (.reset ip now)).slots i = t.slots i ∨ (t.slots i).ip = clip ip := by
  obtain ⟨slots, aged, found⟩ := find_cases h address 0
  have unaged (j : Fin N) : slots j = t.slots j := by
    obtain same | same := aged j
    · exact same
    · rw [same, age_zero h]
  obtain ⟨j, -, held, found⟩ | ⟨-, found⟩ := found
  · by_cases here : i = j
    · subst here
      exact .inr (by rw [← unaged i, held])
    · refine .inl ?_
      simp only [rateStep, reset, found]
      rw [Function.update_of_ne here, unaged]
  · simp only [rateStep, reset, found]
    exact .inl (unaged i)

/-- What a call does to one slot: time ages it, a failure counts on it or claims it, a right
password forgets it. -/
theorem step_slot (h : SlotsInv t.slots) (c : RateCall) (i : Fin N) :
    ((rateStep t c).slots i = t.slots i ∨ (rateStep t c).slots i = (t.slots i).age c.now) ∨
      (c.ip ≠ [] ∧ ((t.slots i).age c.now).ip = clip c.ip ∧
        (rateStep t c).slots i = ((t.slots i).age c.now).count c.now) ∨
      (((t.slots i).age c.now).ip = [] ∧
        (rateStep t c).slots i = (((t.slots i).age c.now).claim c.ip).count c.now) ∨
      (c.isReset = true ∧ c.ip ≠ [] ∧ (t.slots i).ip = clip c.ip) := by
  by_cases address : c.ip = []
  · exact .inl (.inl (rateStep_blank address i))
  · cases c with
    | allow ip now =>
        obtain ⟨slots, aged, ⟨j, -, -, result⟩ | ⟨-, ⟨-, result⟩ | ⟨-, result⟩⟩⟩ :=
          allow_cases h address now
        all_goals
          simp only [RateCall.ip] at result
          simp only [rateStep, result]
          exact .inl (aged i)
    | fail ip now =>
        obtain ⟨slots, aged, ⟨j, same, held, result⟩ |
            ⟨-, ⟨j, same, free, result⟩ | ⟨-, result⟩⟩⟩ := fail_cases h address now
        · simp only [RateCall.ip] at result held
          simp only [rateStep, result, RateCall.ip, RateCall.now]
          by_cases here : i = j
          · subst here
            rw [Function.update_self, ← same]
            exact .inr (.inl ⟨address, held, rfl⟩)
          · rw [Function.update_of_ne here]
            exact .inl (aged i)
        · simp only [RateCall.ip] at result
          simp only [rateStep, result, RateCall.ip, RateCall.now]
          by_cases here : i = j
          · subst here
            rw [Function.update_self, ← same]
            exact .inr (.inr (.inl ⟨free, rfl⟩))
          · rw [Function.update_of_ne here]
            exact .inl (aged i)
        · simp only [RateCall.ip] at result
          simp only [rateStep, result]
          exact .inl (aged i)
    | reset ip now =>
        obtain kept | held := reset_slot h address now i
        · exact .inl (.inl kept)
        · exact .inr (.inr (.inr ⟨rfl, address, held⟩))

theorem clip_clip (ip : Str) : clip (clip ip) = clip ip := by simp [clip]

/-- A slot that is free goes to an address that no slot holds. -/
theorem SlotsInv.claim (h : SlotsInv slots) {i : Fin N} (free : (slots i).ip = [])
    (address : ip ≠ []) (absent : ∀ j, (slots j).ip ≠ clip ip) (now : Nat) :
    SlotsInv (Function.update slots i (((slots i).claim ip).count now)) := by
  apply h.update
  · rw [count_ip]
    exact clip_clip ip
  · intro empty
    rw [count_ip] at empty
    exact absurd empty (clip_ne_nil address)
  · intro j _ _
    rw [count_ip]
    exact absent j
  · intro limit
    simp [RateEntry.count, RateEntry.claim, h.free i free, LOGIN_RATE_MAX_FAILS] at limit

theorem step_inv (h : SlotsInv t.slots) (c : RateCall) : SlotsInv (rateStep t c).slots := by
  cases c with
  | allow ip now =>
      by_cases address : ip = []
      · simpa [rateStep, allow, find, address] using h
      · obtain ⟨slots, aged, ⟨j, -, -, result⟩ | ⟨-, ⟨-, result⟩ | ⟨-, result⟩⟩⟩ :=
          allow_cases h address now
        all_goals
          simp only [rateStep, result]
          exact h.aged aged
  | fail ip now =>
      by_cases address : ip = []
      · simpa [rateStep, fail, address] using h
      · obtain ⟨slots, aged, ⟨j, -, held, result⟩ | ⟨absent, ⟨j, -, free, result⟩ | ⟨-, result⟩⟩⟩ :=
          fail_cases h address now
        · simp only [rateStep, result]
          exact (h.aged aged).count j (held ▸ clip_ne_nil address) now
        · simp only [rateStep, result]
          exact SlotsInv.claim (h.aged aged) free address absent now
        · simp only [rateStep, result]
          exact h.aged aged
  | reset ip now =>
      by_cases address : ip = []
      · simpa [rateStep, reset, find, address] using h
      · obtain ⟨slots, aged, ⟨j, -, -, found⟩ | ⟨-, found⟩⟩ := find_cases h address 0
        · simp only [rateStep, reset, found]
          exact (h.aged aged).update rfl (fun _ => rfl) (fun _ _ some => absurd rfl some)
            (fun limit => absurd limit (by decide))
        · simp only [rateStep, reset, found]
          exact h.aged aged

theorem run_inv (h : SlotsInv t.slots) (cs : List RateCall) :
    SlotsInv (run rateStep t cs).slots := by
  induction cs generalizing t with
  | nil => exact h
  | cons c cs ih => exact ih (step_inv h c)

/-! ## Isolation -/

/-- A slot is locked for its address: the limit is reached and the lockout has not ended. -/
structure LockedAt (slots : Fin N → RateEntry) (i : Fin N) (now : Nat) : Prop where
  taken : (slots i).ip ≠ []
  limit : LOGIN_RATE_MAX_FAILS ≤ (slots i).fails
  before : now < (slots i).untilMs

theorem LockedAt.age (locked : LockedAt slots i now) (h : SlotsInv slots) :
    (slots i).age now = slots i := by
  obtain same | ⟨quiet, -⟩ | ⟨-, ended, -⟩ := age_cases (slots i) now
  · exact same
  · have ends := h.locked i locked.limit
    have := locked.before
    simp only [LOGIN_RATE_LOCKOUT_MS, LOGIN_RATE_QUIET_MS] at ends quiet
    omega
  · exact absurd locked.before (Nat.not_lt.mpr ended)

theorem LockedAt.earlier {later : Nat} (locked : LockedAt slots i later) (le : now ≤ later) :
    LockedAt slots i now :=
  ⟨locked.taken, locked.limit, Nat.lt_of_le_of_lt le locked.before⟩

/-- A locked slot stays as it is, whoever calls, until its address is reset. -/
theorem LockedAt.step {i : Fin N} {c : RateCall} (locked : LockedAt t.slots i c.now)
    (h : SlotsInv t.slots) (keeps : c.isReset = true → clip c.ip ≠ (t.slots i).ip) :
    (rateStep t c).slots i = t.slots i := by
  have aged := locked.age h
  obtain (same | same) | ⟨-, -, counted⟩ | ⟨free, -⟩ | ⟨isReset, -, held⟩ := step_slot h c i
  · exact same
  · rw [same, aged]
  · rw [counted, aged]
    exact if_pos locked.limit
  · rw [aged] at free
    exact absurd free locked.taken
  · exact absurd held.symm (keeps isReset)

theorem LockedAt.run {i : Fin N} {cs : List RateCall} (locked : LockedAt t.slots i now)
    (h : SlotsInv t.slots) (past : ∀ c ∈ cs, c.now ≤ now)
    (keeps : ∀ c ∈ cs, c.isReset = true → clip c.ip ≠ (t.slots i).ip) :
    (run rateStep t cs).slots i = t.slots i := by
  induction cs generalizing t with
  | nil => rfl
  | cons c cs ih =>
      obtain ⟨first, later⟩ := List.forall_mem_cons.mp past
      obtain ⟨keep, keepLater⟩ := List.forall_mem_cons.mp keeps
      have same := (locked.earlier first).step h keep
      rw [run_cons, ih (t := rateStep t c)]
      · exact same
      · exact ⟨same ▸ locked.taken, same ▸ locked.limit, same ▸ locked.before⟩
      · exact step_inv h c
      · exact later
      · rw [same]
        exact keepLater

/-- A locked address is refused, and a guess for it leaves the table as it is. -/
theorem LockedAt.refused {i : Fin N} (locked : LockedAt t.slots i now) (h : SlotsInv t.slots)
    (held : (t.slots i).ip = clip ip) :
    (t.allow ip now).2 = false ∧ t.fail ip now = t := by
  have address : ip ≠ [] := by
    rintro rfl
    exact locked.taken (by simpa [clip] using held)
  have aged := locked.age h
  have same : ageSlot t.slots i now = t.slots := by
    rw [ageSlot, aged, Function.update_eq_self]
  have found := find_of_held h address held now
  rw [same, aged, if_neg locked.taken] at found
  have counted : (t.slots i).count now = t.slots i := if_pos locked.limit
  constructor
  · simp only [allow, found, decide_eq_false_iff_not, Nat.not_lt]
    exact locked.limit
  · simp only [fail, address, if_false, found, counted, Function.update_eq_self]

/-- A call for another address leaves a slot or ages it, or the slot was forgotten by then. -/
theorem step_other (h : SlotsInv t.slots) {c : RateCall} {i : Fin N}
    (other : clip c.ip ≠ (t.slots i).ip) :
    (rateStep t c).slots i = t.slots i ∨ (rateStep t c).slots i = (t.slots i).age c.now ∨
      ((t.slots i).age c.now).ip = [] := by
  obtain (same | same) | ⟨address, held, -⟩ | ⟨free, -⟩ | ⟨-, -, held⟩ := step_slot h c i
  · exact .inl same
  · exact .inr (.inl same)
  · obtain kept | gone := age_ip (t.slots i) c.now
    · exact absurd (held.symm.trans kept) other
    · exact .inr (.inr (by rw [gone]; rfl))
  · exact .inr (.inr free)
  · exact absurd held.symm other

end LoginRateTable

open LoginRateTable in
/-- In every table that calls can lead to: no two slots hold one address; a call for another
address leaves a held slot alone or ages it, unless time alone has the slot forgotten; and once a
slot is locked its address is refused and a guess for it changes nothing, whatever is called in
between, until the lockout ends or the address is reset. -/
theorem login_slots_isolated {N : Nat} (cs : List RateCall) :
    let t := run rateStep (noLogins N) cs
    (∀ i j, (t.slots i).ip ≠ [] → (t.slots i).ip = (t.slots j).ip → i = j) ∧
      ∀ i, (t.slots i).ip ≠ [] →
        (∀ c : RateCall, c.ip.length < LOGIN_RATE_IP_CAP → c.ip ≠ (t.slots i).ip →
          (rateStep t c).slots i = t.slots i ∨
            (rateStep t c).slots i = (t.slots i).age c.now ∨
            ((t.slots i).age c.now).ip = []) ∧
        (LOGIN_RATE_MAX_FAILS ≤ (t.slots i).fails → ∀ (later : List RateCall) (now : Nat),
          now < (t.slots i).untilMs →
          (∀ c ∈ later, c.now ≤ now ∧ c.ip.length < LOGIN_RATE_IP_CAP ∧
            (c.isReset = true → c.ip ≠ (t.slots i).ip)) →
          let t' := run rateStep t later
          t'.slots i = t.slots i ∧ (t'.allow (t.slots i).ip now).2 = false ∧
            t'.fail (t.slots i).ip now = t') := by
  intro t
  have inv : SlotsInv t.slots := run_inv (SlotsInv.none N) cs
  have whole {ip : Str} (fits : ip.length < LOGIN_RATE_IP_CAP) : RateEntry.clip ip = ip :=
    List.take_of_length_le (Nat.le_sub_one_of_lt fits)
  refine ⟨inv.apart, fun i taken => ⟨?_, ?_⟩⟩
  · intro c fits other
    exact step_other inv (by rwa [whole fits])
  · intro limit later now before calls t'
    have locked : LockedAt t.slots i now := ⟨taken, limit, before⟩
    have same : t'.slots i = t.slots i := by
      apply locked.run inv (fun c mem => (calls c mem).1)
      intro c mem isReset
      rw [whole (calls c mem).2.1]
      exact (calls c mem).2.2 isReset
    have still : LockedAt t'.slots i now :=
      ⟨same ▸ taken, same ▸ limit, same ▸ before⟩
    refine ⟨same, still.refused (run_inv inv later) ?_⟩
    rw [same, inv.clipped i]

end Thesada.Http
