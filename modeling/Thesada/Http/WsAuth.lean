import Mathlib.Data.Fintype.Card
import Mathlib.Logic.Function.Basic
import Thesada.Http.Tokens
import Thesada.Library.Machine

/-!
# Pre-authorised WebSocket clients

`GET /api/ws/token` lets the address of the caller open the terminal once in the next 30 s. Four
such grants are kept, in the first slot that is not live. When all four are live the scan leaves
the slot at 0, whatever it holds, where the login tokens look for the oldest.

The grants of a run have numbers, and the run records the grant each slot holds, the grants that
no client has used, newest first, and the numbers of those that were used.
-/

namespace Thesada.Http

open CString Machine

def WS_AUTH_SLOTS : Nat := 4
def WS_AUTH_TTL_MS : Nat := 30000

/-- `char ip[20]`. -/
def WS_IP_CAP : Nat := 20

structure WsAuth where
  ip : Str
  expiry : Nat
  deriving DecidableEq

abbrev WsTable := Fin WS_AUTH_SLOTS → WsAuth

/-- The slot a grant takes: the first that is not live, else the one the scan starts with. -/
def grantSlot (now : Nat) (t : WsTable) : Fin WS_AUTH_SLOTS :=
  ((List.finRange WS_AUTH_SLOTS).find? fun i => !ttlActive now (t i).expiry).getD ⟨0, by decide⟩

def grantWsAuth (t : WsTable) (ip : Str) (now : Nat) : WsTable :=
  Function.update t (grantSlot now t) ⟨ip.take (WS_IP_CAP - 1), now + WS_AUTH_TTL_MS⟩

/-- The slot a consume uses up. -/
def consumeSlot (now : Nat) (t : WsTable) (ip : Str) : Option (Fin WS_AUTH_SLOTS) :=
  (List.finRange WS_AUTH_SLOTS).find? fun i => ttlActive now (t i).expiry && (t i).ip = ip

def consumeWsAuth (t : WsTable) (ip : Str) (now : Nat) : WsTable × Bool :=
  match consumeSlot now t ip with
  | some i => (Function.update t i { t i with expiry := 0 }, true)
  | none => (t, false)

/-! ## IPv4 addresses -/

structure IPv4 where
  a : UInt8
  b : UInt8
  c : UInt8
  d : UInt8
  deriving DecidableEq

def octetText (n : UInt8) : Str := Nat.toDigits 10 n.toNat

/-- `IPAddress::toString`. -/
def IPv4.text (ip : IPv4) : Str :=
  octetText ip.a ++ '.' :: (octetText ip.b ++ '.' :: (octetText ip.c ++ '.' :: octetText ip.d))

/-- What `octetText` is read back with. -/
def octetValue (s : Str) : Nat := s.foldl (fun n c => n * 10 + (c.toNat - 48)) 0

theorem octetText_facts (n : UInt8) :
    octetValue (octetText n) = n.toNat ∧ (octetText n).length ≤ 3 ∧
      (octetText n).contains '.' = false := by
  have each : ∀ n : Fin 256, octetValue (Nat.toDigits 10 n) = n ∧
      (Nat.toDigits 10 n).length ≤ 3 ∧ (Nat.toDigits 10 n).contains '.' = false := by
    decide +kernel
  exact each ⟨n.toNat, n.toNat_lt⟩

theorem octetText_inj {m n : UInt8} (same : octetText m = octetText n) : m = n := by
  apply UInt8.toNat_inj.mp
  rw [← (octetText_facts m).1, same, (octetText_facts n).1]

/-- Texts up to a dot are the same when the whole texts are. -/
theorem dotted_inj {x y s t : Str} (noDot : x.contains '.' = false) (noDot' : y.contains '.' = false)
    (same : x ++ '.' :: s = y ++ '.' :: t) : x = y ∧ s = t := by
  induction x generalizing y with
  | nil =>
      cases y with
      | nil => exact ⟨rfl, (List.cons.inj same).2⟩
      | cons c y =>
          rw [← (List.cons.inj same).1] at noDot'
          simp at noDot'
  | cons c x ih =>
      cases y with
      | nil =>
          rw [(List.cons.inj same).1] at noDot
          simp at noDot
      | cons c' y =>
          obtain ⟨head, tail⟩ := List.cons.inj same
          rw [List.contains_cons, Bool.or_eq_false_iff] at noDot noDot'
          obtain ⟨rest, after⟩ := ih noDot.2 noDot'.2 tail
          exact ⟨by rw [head, rest], after⟩

theorem IPv4.text_inj {ip ip' : IPv4} (same : ip.text = ip'.text) : ip = ip' := by
  obtain ⟨a, same⟩ := dotted_inj (octetText_facts ip.a).2.2 (octetText_facts ip'.a).2.2 same
  obtain ⟨b, same⟩ := dotted_inj (octetText_facts ip.b).2.2 (octetText_facts ip'.b).2.2 same
  obtain ⟨c, d⟩ := dotted_inj (octetText_facts ip.c).2.2 (octetText_facts ip'.c).2.2 same
  cases ip
  cases ip'
  rw [IPv4.mk.injEq]
  exact ⟨octetText_inj a, octetText_inj b, octetText_inj c, octetText_inj d⟩

/-- An address fits its slot whole. -/
theorem IPv4.text_take (ip : IPv4) : ip.text.take (WS_IP_CAP - 1) = ip.text := by
  have a := (octetText_facts ip.a).2.1
  have b := (octetText_facts ip.b).2.1
  have c := (octetText_facts ip.c).2.1
  have d := (octetText_facts ip.d).2.1
  apply List.take_of_length_le
  simp only [IPv4.text, List.length_append, List.length_cons, WS_IP_CAP]
  omega

/-! ## Runs -/

structure Grant where
  number : Nat
  ip : IPv4
  since : Nat
  deriving DecidableEq

/-- The grant is less than 30 s old. -/
def Grant.Fresh (now : Nat) (g : Grant) : Prop := now - g.since < WS_AUTH_TTL_MS

instance (now : Nat) (g : Grant) : Decidable (g.Fresh now) :=
  inferInstanceAs (Decidable (_ < _))

inductive WsEvent where
  | grant (ip : IPv4) (now : Nat)
  | consume (ip : IPv4) (now : Nat)
  deriving DecidableEq

def WsEvent.now : WsEvent → Nat
  | .grant _ now => now
  | .consume _ now => now

structure WsRun where
  slots : WsTable
  /-- The uptime of the last event. -/
  clock : Nat
  granted : Nat
  /-- The grant a slot holds. -/
  holds : Fin WS_AUTH_SLOTS → Option Grant
  /-- The grants not yet consumed, newest first. -/
  pending : List Grant
  /-- The numbers of the grants that were consumed. -/
  consumed : List Nat

def WsRun.boot : WsRun where
  slots := fun _ => ⟨[], 0⟩
  clock := 0
  granted := 0
  holds := fun _ => none
  pending := []
  consumed := []

def wsStep (s : WsRun) : WsEvent → WsRun
  | .grant ip now =>
      let g : Grant := ⟨s.granted, ip, now⟩
      { slots := grantWsAuth s.slots ip.text now
        clock := now
        granted := s.granted + 1
        holds := Function.update s.holds (grantSlot now s.slots) (some g)
        pending := g :: s.pending
        consumed := s.consumed }
  | .consume ip now =>
      match consumeSlot now s.slots ip.text with
      | none => { s with clock := now }
      | some i =>
          { s with
            slots := (consumeWsAuth s.slots ip.text now).1
            clock := now
            holds := Function.update s.holds i none
            pending := s.pending.filter fun g => s.holds i ≠ some g
            consumed := ((s.holds i).map Grant.number).toList ++ s.consumed }

/-- Uptime does not go back. -/
def WsInTime (s : WsRun) (e : WsEvent) : Prop := s.clock ≤ e.now

/-- A consume succeeds exactly when one of the last four grants not yet consumed is for that
address and less than 30 s old. -/
def ConsumeLaw (s : WsRun) : WsEvent → Prop
  | .grant .. => True
  | .consume ip now =>
      (consumeWsAuth s.slots ip.text now).2 = true ↔
        ∃ g ∈ s.pending.take 4, g.ip = ip ∧ g.Fresh now

/-- A grant finds a slot that is not live. -/
def FindsSlot (s : WsRun) : WsEvent → Prop
  | .grant _ now => ∃ i, ttlActive now (s.slots i).expiry = false
  | .consume .. => True

instance (s : WsRun) (e : WsEvent) : Decidable (WsInTime s e) :=
  inferInstanceAs (Decidable (_ ≤ _))

instance (s : WsRun) : (e : WsEvent) → Decidable (ConsumeLaw s e)
  | .grant .. => inferInstanceAs (Decidable True)
  | .consume .. => inferInstanceAs (Decidable (_ ↔ _))

instance (s : WsRun) : (e : WsEvent) → Decidable (FindsSlot s e)
  | .grant .. => inferInstanceAs (Decidable (∃ _, _))
  | .consume .. => inferInstanceAs (Decidable True)

/-! ## What the slots hold -/

/-- Each slot holds what its grant wrote, and a number is used for one grant only. -/
structure WsRun.Numbered (s : WsRun) : Prop where
  past : ∀ g ∈ s.pending, g.since ≤ s.clock
  issued : ∀ g ∈ s.pending, g.number < s.granted
  newest : s.pending.Pairwise fun newer older =>
    older.number < newer.number ∧ older.since ≤ newer.since
  held : ∀ i g, s.holds i = some g →
    g ∈ s.pending ∧ s.slots i = ⟨g.ip.text, g.since + WS_AUTH_TTL_MS⟩
  empty : ∀ i, s.holds i = none → (s.slots i).expiry = 0
  apart : ∀ i j g, s.holds i = some g → s.holds j = some g → i = j
  used : ∀ k ∈ s.consumed, k < s.granted ∧ ∀ g ∈ s.pending, g.number ≠ k
  once : s.consumed.Nodup

/-- No grant that is still fresh has lost its slot. -/
def WsRun.Kept (s : WsRun) : Prop :=
  ∀ g ∈ s.pending, g.Fresh s.clock → ∃ i, s.holds i = some g

theorem consumeSlot_none {now : Nat} {t : WsTable} {ip : Str} (none : consumeSlot now t ip = none)
    (i : Fin WS_AUTH_SLOTS) : ¬(ttlActive now (t i).expiry = true ∧ (t i).ip = ip) := by
  have misses := List.find?_eq_none.mp none i (List.mem_finRange i)
  simpa using misses

theorem consumeSlot_some {now : Nat} {t : WsTable} {ip : Str} {i : Fin WS_AUTH_SLOTS}
    (found : consumeSlot now t ip = some i) :
    ttlActive now (t i).expiry = true ∧ (t i).ip = ip := by
  have matches' := List.find?_some found
  simpa using matches'

theorem consumeWsAuth_iff {now : Nat} {t : WsTable} {ip : Str} :
    (consumeWsAuth t ip now).2 = true ↔ ∃ i, ttlActive now (t i).expiry = true ∧ (t i).ip = ip := by
  simp only [consumeWsAuth]
  cases found : consumeSlot now t ip with
  | none => simpa using fun i => not_and.mp (consumeSlot_none found i)
  | some i => exact ⟨fun _ => ⟨i, consumeSlot_some found⟩, fun _ => rfl⟩

/-- A grant that finds a slot that is not live takes such a slot. -/
theorem grantSlot_free {now : Nat} {t : WsTable}
    (free : ∃ i, ttlActive now (t i).expiry = false) :
    ttlActive now (t (grantSlot now t)).expiry = false := by
  obtain ⟨i, free⟩ := free
  have found : ((List.finRange WS_AUTH_SLOTS).find?
      fun i => !ttlActive now (t i).expiry).isSome := by
    rw [List.find?_isSome]
    exact ⟨i, List.mem_finRange i, by rw [free]; rfl⟩
  obtain ⟨j, same⟩ := Option.isSome_iff_exists.mp found
  have dead := List.find?_some same
  rw [grantSlot, same]
  simpa using dead

theorem WsRun.Kept.consume {s : WsRun} (kept : s.Kept) {ip : IPv4} {now : Nat}
    (later : s.clock ≤ now) :
    (wsStep s (.consume ip now)).Kept := by
  have before {g : Grant} (fresh : g.Fresh now) : g.Fresh s.clock :=
    Nat.lt_of_le_of_lt (Nat.sub_le_sub_right later _) fresh
  simp only [wsStep]
  cases found : consumeSlot now s.slots ip.text with
  | none => exact fun g mem fresh => kept g mem (before fresh)
  | some i =>
      intro g mem fresh
      rw [List.mem_filter, decide_eq_true_eq] at mem
      obtain ⟨j, holds⟩ := kept g mem.1 (before fresh)
      refine ⟨j, ?_⟩
      have other : j ≠ i := by
        rintro rfl
        exact mem.2 holds
      show Function.update s.holds i none j = some g
      rw [Function.update_of_ne other, holds]

namespace WsRun.Numbered

variable {s : WsRun} (h : s.Numbered)

include h

theorem live_iff {now : Nat} (later : s.clock ≤ now) (i : Fin WS_AUTH_SLOTS) :
    ttlActive now (s.slots i).expiry = true ↔ ∃ g, s.holds i = some g ∧ g.Fresh now := by
  cases holds : s.holds i with
  | none => simp [ttlActive, h.empty i holds]
  | some g =>
      obtain ⟨mem, slot⟩ := h.held i g holds
      have past := h.past g mem
      simp only [ttlActive, slot, Option.some.injEq, exists_eq_left', Grant.Fresh, WS_AUTH_TTL_MS,
        Bool.and_eq_true, decide_eq_true_eq]
      omega

theorem grant {ip : IPv4} {now : Nat} (later : s.clock ≤ now) :
    (wsStep s (.grant ip now)).Numbered := by
  have new : ∀ i, s.holds i ≠ some ⟨s.granted, ip, now⟩ := by
    intro i same
    exact Nat.lt_irrefl _ (h.issued _ (h.held i _ same).1)
  refine ⟨?_, ?_, ?_, ?_, ?_, ?_, ?_, h.once⟩
  · intro g mem
    obtain rfl | old := List.mem_cons.mp mem
    · exact Nat.le_refl _
    · exact Nat.le_trans (h.past g old) later
  · intro g mem
    obtain rfl | old := List.mem_cons.mp mem
    · exact Nat.lt_succ_self _
    · exact Nat.lt_succ_of_lt (h.issued g old)
  · refine List.pairwise_cons.mpr ⟨?_, h.newest⟩
    intro g old
    exact ⟨h.issued g old, Nat.le_trans (h.past g old) later⟩
  · intro i g holds
    simp only [wsStep, grantWsAuth] at holds ⊢
    by_cases taken : i = grantSlot now s.slots
    · rw [taken, Function.update_self] at holds ⊢
      cases holds
      exact ⟨List.mem_cons_self, by rw [IPv4.text_take]⟩
    · rw [Function.update_of_ne taken] at holds ⊢
      obtain ⟨mem, slot⟩ := h.held i g holds
      exact ⟨List.mem_cons_of_mem _ mem, slot⟩
  · intro i none
    simp only [wsStep, grantWsAuth] at none ⊢
    by_cases taken : i = grantSlot now s.slots
    · rw [taken, Function.update_self] at none
      cases none
    · rw [Function.update_of_ne taken] at none ⊢
      exact h.empty i none
  · intro i j g holds holds'
    simp only [wsStep] at holds holds'
    by_cases first : i = grantSlot now s.slots
    · by_cases second : j = grantSlot now s.slots
      · exact first.trans second.symm
      · rw [first, Function.update_self] at holds
        rw [Function.update_of_ne second, ← holds] at holds'
        exact absurd holds' (new j)
    · by_cases second : j = grantSlot now s.slots
      · rw [second, Function.update_self] at holds'
        rw [Function.update_of_ne first, ← holds'] at holds
        exact absurd holds (new i)
      · rw [Function.update_of_ne first] at holds
        rw [Function.update_of_ne second] at holds'
        exact h.apart i j g holds holds'
  · intro k mem
    obtain ⟨old, apart⟩ := h.used k mem
    refine ⟨Nat.lt_succ_of_lt old, ?_⟩
    intro g pending
    obtain rfl | before := List.mem_cons.mp pending
    · exact Nat.ne_of_gt old
    · exact apart g before

/-- Time passes. -/
theorem waits {now : Nat} (later : s.clock ≤ now) : Numbered { s with clock := now } :=
  ⟨fun g mem => Nat.le_trans (h.past g mem) later, h.issued, h.newest, h.held, h.empty, h.apart,
    h.used, h.once⟩

theorem number_inj {g g' : Grant} (mem : g ∈ s.pending) (mem' : g' ∈ s.pending)
    (same : g.number = g'.number) : g = g' := by
  have distinct : (s.pending.map Grant.number).Nodup := by
    rw [List.Nodup, List.pairwise_map]
    exact h.newest.imp fun order => Nat.ne_of_gt order.1
  exact List.inj_on_of_nodup_map distinct mem mem' same

theorem consume {ip : IPv4} {now : Nat} (later : s.clock ≤ now) :
    (wsStep s (.consume ip now)).Numbered := by
  simp only [wsStep]
  cases found : consumeSlot now s.slots ip.text with
  | none => exact h.waits later
  | some i =>
      obtain ⟨g, holds, -⟩ := (h.live_iff later i).mp (consumeSlot_some found).1
      have mem := (h.held i g holds).1
      have slots : (consumeWsAuth s.slots ip.text now).1 =
          Function.update s.slots i { s.slots i with expiry := 0 } := by
        simp only [consumeWsAuth, found]
      simp only [slots, holds, Option.map_some, Option.toList_some, List.singleton_append]
      have left {x : Grant} (still : x ∈ s.pending.filter fun x => some g ≠ some x) :
          x ∈ s.pending ∧ x ≠ g := by
        rw [List.mem_filter, decide_eq_true_eq] at still
        exact ⟨still.1, fun same => still.2 (congrArg some same.symm)⟩
      have new : g.number ∉ s.consumed := fun twice => (h.used _ twice).2 g mem rfl
      refine ⟨?_, ?_, h.newest.filter _, ?_, ?_, ?_, ?_, List.nodup_cons.mpr ⟨new, h.once⟩⟩
      · intro x still
        exact Nat.le_trans (h.past x (left still).1) later
      · intro x still
        exact h.issued x (left still).1
      · intro j x holds'
        simp only at holds' ⊢
        by_cases same : j = i
        · rw [same, Function.update_self] at holds'
          cases holds'
        · rw [Function.update_of_ne same] at holds' ⊢
          obtain ⟨mem', slot⟩ := h.held j x holds'
          refine ⟨List.mem_filter.mpr ⟨mem', ?_⟩, slot⟩
          rw [decide_eq_true_eq]
          intro one
          rw [← one] at holds'
          exact same (h.apart j i g holds' holds)
      · intro j none
        simp only at none ⊢
        by_cases same : j = i
        · rw [same, Function.update_self]
        · rw [Function.update_of_ne same] at none ⊢
          exact h.empty j none
      · intro j k x first second
        simp only at first second
        by_cases same : j = i
        · rw [same, Function.update_self] at first
          cases first
        by_cases same' : k = i
        · rw [same', Function.update_self] at second
          cases second
        · rw [Function.update_of_ne same] at first
          rw [Function.update_of_ne same'] at second
          exact h.apart j k x first second
      · intro k spent
        obtain rfl | before := List.mem_cons.mp spent
        · refine ⟨h.issued g mem, ?_⟩
          intro x still same
          exact (left still).2 (h.number_inj (left still).1 mem same)
        · obtain ⟨old, apart⟩ := h.used k before
          exact ⟨old, fun x still => apart x (left still).1⟩

/-- A grant that finds a slot takes it from no fresh grant. -/
theorem kept_grant {ip : IPv4} {now : Nat} (later : s.clock ≤ now) (kept : s.Kept)
    (free : ∃ i, ttlActive now (s.slots i).expiry = false) :
    (wsStep s (.grant ip now)).Kept := by
  intro g mem fresh
  obtain rfl | old := List.mem_cons.mp mem
  · exact ⟨_, Function.update_self ..⟩
  · have fresh : g.Fresh now := fresh
    obtain ⟨i, holds⟩ := kept g old (Nat.lt_of_le_of_lt (Nat.sub_le_sub_right later _) fresh)
    refine ⟨i, ?_⟩
    have other : i ≠ grantSlot now s.slots := by
      intro same
      have live := (h.live_iff later i).mpr ⟨g, holds, fresh⟩
      rw [same, grantSlot_free free] at live
      cases live
    show Function.update s.holds _ _ i = some g
    rw [Function.update_of_ne other, holds]

/-- Where every fresh grant has its slot there are no more of them than slots. -/
theorem few_fresh {now : Nat} (later : s.clock ≤ now) (kept : s.Kept) :
    (s.pending.filter fun g => g.Fresh now).length ≤ WS_AUTH_SLOTS := by
  have slot : ∀ g : { g // g ∈ s.pending.filter fun g => g.Fresh now },
      ∃ i, s.holds i = some g.1 := by
    intro ⟨g, mem⟩
    rw [List.mem_filter, decide_eq_true_eq] at mem
    exact kept g mem.1 (Nat.lt_of_le_of_lt (Nat.sub_le_sub_right later _) mem.2)
  choose slotOf holds using slot
  have injective : Function.Injective slotOf := by
    intro g g' same
    have holds' := holds g'
    rw [← same, holds g, Option.some.injEq] at holds'
    exact Subtype.ext holds'
  have distinct : (s.pending.filter fun g => g.Fresh now).Nodup := by
    apply List.Nodup.filter
    refine h.newest.imp ?_
    rintro newer older order rfl
    exact Nat.lt_irrefl _ order.1
  have few := ((List.nodup_attach.mpr distinct).map injective).length_le_card
  rwa [List.length_map, List.length_attach, Fintype.card_fin] at few

end WsRun.Numbered

/-- Where the members with a property come first, and are at most `n`, they are among the first
`n`. -/
theorem mem_take_of_filter_le {α : Type*} {p : α → Bool} {l : List α} {n : Nat} {x : α}
    (first : l.Pairwise fun a b => p b = true → p a = true) (few : (l.filter p).length ≤ n)
    (mem : x ∈ l) (holds : p x = true) : x ∈ l.take n := by
  induction l generalizing n with
  | nil => cases mem
  | cons a l ih =>
      obtain ⟨ahead, first⟩ := List.pairwise_cons.mp first
      have head : p a = true := by
        obtain rfl | later := List.mem_cons.mp mem
        · exact holds
        · exact ahead x later holds
      rw [List.filter_cons_of_pos head, List.length_cons] at few
      obtain ⟨n, rfl⟩ : ∃ m, n = m + 1 := ⟨n - 1, by omega⟩
      rw [List.take_succ_cons]
      obtain rfl | later := List.mem_cons.mp mem
      · exact List.mem_cons_self
      · exact List.mem_cons_of_mem _ (ih first (Nat.le_of_succ_le_succ few) later)

theorem WsRun.Numbered.law {s : WsRun} (h : s.Numbered) (kept : s.Kept) {e : WsEvent}
    (later : s.clock ≤ e.now) : ConsumeLaw s e := by
  cases e with
  | grant ip now => trivial
  | consume ip now =>
      have order : s.pending.Pairwise fun a b =>
          decide (b.Fresh now) = true → decide (a.Fresh now) = true := by
        refine h.newest.imp ?_
        intro newer older since fresh
        rw [decide_eq_true_eq] at fresh ⊢
        exact Nat.lt_of_le_of_lt (Nat.sub_le_sub_left since.2 now) fresh
      show _ ↔ _
      rw [consumeWsAuth_iff]
      constructor
      · intro ⟨i, live, same⟩
        obtain ⟨g, holds, fresh⟩ := (h.live_iff later i).mp live
        obtain ⟨mem, slot⟩ := h.held i g holds
        refine ⟨g, ?_, ?_, fresh⟩
        · exact mem_take_of_filter_le order (h.few_fresh later kept) mem (decide_eq_true fresh)
        · rw [slot] at same
          exact IPv4.text_inj same
      · intro ⟨g, mem, same, fresh⟩
        have old := List.mem_of_mem_take mem
        obtain ⟨i, holds⟩ :=
          kept g old (Nat.lt_of_le_of_lt (Nat.sub_le_sub_right later _) fresh)
        refine ⟨i, (h.live_iff later i).mpr ⟨g, holds, fresh⟩, ?_⟩
        rw [(h.held i g holds).2, same]

theorem WsRun.Numbered.step {s : WsRun} (h : s.Numbered) {e : WsEvent} (inTime : WsInTime s e) :
    (wsStep s e).Numbered := by
  cases e with
  | grant ip now => exact h.grant inTime
  | consume ip now => exact h.consume inTime

theorem WsRun.boot_numbered : WsRun.boot.Numbered where
  past := by simp [WsRun.boot]
  issued := by simp [WsRun.boot]
  newest := List.Pairwise.nil
  held := by simp [WsRun.boot]
  empty := by simp [WsRun.boot]
  apart := by simp [WsRun.boot]
  used := by simp [WsRun.boot]
  once := List.nodup_nil

/-- When every slot is live, a grant takes the slot of one that is fresh and still unused. -/
theorem full_grant_drops {s : WsRun} (h : s.Numbered) {ip : IPv4} {now : Nat}
    (later : s.clock ≤ now) (full : ¬FindsSlot s (.grant ip now)) :
    ¬(wsStep s (.grant ip now)).Kept := by
  intro kept
  have live : ttlActive now (s.slots (grantSlot now s.slots)).expiry = true := by
    by_contra dead
    exact full ⟨_, Bool.eq_false_iff.mpr dead⟩
  obtain ⟨g, holds, fresh⟩ := (h.live_iff later _).mp live
  have old := (h.held _ g holds).1
  obtain ⟨i, holds'⟩ := kept g (List.mem_cons_of_mem _ old) fresh
  simp only [wsStep] at holds'
  by_cases taken : i = grantSlot now s.slots
  · rw [taken, Function.update_self, Option.some.injEq] at holds'
    have issued := h.issued g old
    rw [← holds'] at issued
    exact Nat.lt_irrefl _ issued
  · rw [Function.update_of_ne taken] at holds'
    exact taken (h.apart i _ g holds' holds)

/-- No grant is consumed twice. In a run whose grants all find a slot that is not live, a consume
succeeds exactly when one of the last four grants not yet consumed is for that address and less
than 30 s old. -/
theorem wsAuth_runs (es : List WsEvent) (times : Meets wsStep WsInTime .boot es) :
    (run wsStep .boot es).consumed.Nodup ∧
      (Meets wsStep FindsSlot .boot es → Meets wsStep ConsumeLaw .boot es) := by
  constructor
  · exact (Meets.invariant (fun s e h inTime => h.step inTime) WsRun.boot_numbered times).once
  · intro finds
    have start : WsRun.boot.Numbered ∧ WsRun.boot.Kept :=
      ⟨WsRun.boot_numbered, by simp [WsRun.Kept, WsRun.boot]⟩
    have each (s : WsRun) (e : WsEvent) (inv : s.Numbered ∧ s.Kept)
        (ok : WsInTime s e ∧ FindsSlot s e) :
        ((wsStep s e).Numbered ∧ (wsStep s e).Kept) ∧ ConsumeLaw s e := by
      obtain ⟨h, kept⟩ := inv
      refine ⟨⟨h.step ok.1, ?_⟩, h.law kept ok.1⟩
      cases e with
      | grant ip now => exact h.kept_grant ok.1 kept ok.2
      | consume ip now => exact kept.consume ok.1
    exact Meets.yields each start (times.and finds)

def client (n : UInt8) : IPv4 := ⟨192, 168, 1, n⟩

/-- Four clients come, one is served, a fifth takes its slot, and the first is late. -/
def fiveClients : List WsEvent :=
  [.grant (client 1) 10, .grant (client 2) 20, .grant (client 3) 30, .grant (client 4) 40,
    .consume (client 3) 50, .grant (client 5) 60, .consume (client 5) 70,
    .consume (client 1) 30010]

theorem wsAuth_runs_fiveClients :
    (run wsStep .boot fiveClients).consumed.Nodup ∧ Meets wsStep ConsumeLaw .boot fiveClients := by
  obtain ⟨once, law⟩ := wsAuth_runs fiveClients (by decide +kernel)
  exact ⟨once, law (by decide +kernel)⟩

/-- Six clients in a row, and the fifth comes back: its grant was the last but one, but the sixth
took its slot. -/
def sixClients : List WsEvent :=
  [.grant (client 1) 10, .grant (client 2) 20, .grant (client 3) 30, .grant (client 4) 40,
    .grant (client 5) 50, .grant (client 6) 60, .consume (client 5) 70]

theorem wsAuth_sixClients :
    ¬∀ es, Meets wsStep WsInTime .boot es → Meets wsStep ConsumeLaw .boot es := by
  intro all
  have law := all sixClients (by decide +kernel)
  exact absurd law (by decide +kernel)

end Thesada.Http
