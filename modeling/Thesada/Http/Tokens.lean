import Thesada.Identity.Keypair
import Thesada.Library.ExpiringSlots

/-!
# Bearer tokens

A login gets a random token that is good for an hour. Four are kept: a new one takes the first
slot that has expired, or the one closest to expiry. Time is 64-bit uptime, which does not wrap.

The random bytes of a token are part of the event that issues it.
-/

namespace Thesada.Http

open CString Machine ExpiringSlots

def MAX_TOKENS : Nat := 4
def TOKEN_TTL_MS : Nat := 3600000
def TOKEN_LEN : Nat := 16

/-- `ttl_policy.h`. -/
def ttlActive (now expiry : Nat) : Bool := expiry ≠ 0 && now < expiry

structure TokenEntry where
  token : Str
  expiry : Nat
  deriving DecidableEq

abbrev TokenTable := Fin MAX_TOKENS → TokenEntry

def noTokens : TokenTable := fun _ => ⟨[], 0⟩

def firstSlot : Fin MAX_TOKENS := ⟨0, by decide⟩

/-- Two hex digits for each of the random bytes. -/
def genToken (random : Fin TOKEN_LEN → UInt8) : Str :=
  Identity.hexOf ((List.finRange TOKEN_LEN).map fun i => (random i).toNat)

/-- The scan for a slot over the indices that are left, with the one chosen so far. -/
def chooseSlot (now : Nat) (tokens : TokenTable) :
    List (Fin MAX_TOKENS) → Fin MAX_TOKENS → Fin MAX_TOKENS
  | [], slot => slot
  | i :: rest, slot =>
      if !ttlActive now (tokens i).expiry then i
      else chooseSlot now tokens rest (if (tokens i).expiry < (tokens slot).expiry then i else slot)

def createToken (tokens : TokenTable) (random : Fin TOKEN_LEN → UInt8) (now : Nat) : TokenTable :=
  Function.update tokens (chooseSlot now tokens (List.finRange MAX_TOKENS) firstSlot)
    ⟨genToken random, now + TOKEN_TTL_MS⟩

/-- Every slot is looked at, whether or not an earlier one matched. -/
def validateToken (tokens : TokenTable) (token : Str) (now : Nat) : Bool :=
  if token.length ≠ TOKEN_LEN * 2 then false
  else (List.finRange MAX_TOKENS).foldl
    (fun found i => found || (ttlActive now (tokens i).expiry && (tokens i).token = token)) false

inductive TokenEvent where
  | issue (random : Fin TOKEN_LEN → UInt8) (now : Nat)
  | validate (token : Str) (now : Nat)

def TokenEvent.now : TokenEvent → Nat
  | .issue _ now => now
  | .validate _ now => now

def tokenStep (tokens : TokenTable) : TokenEvent → TokenTable
  | .issue random now => createToken tokens random now
  | .validate .. => tokens

/-- The token an event issues and when. -/
def TokenEvent.issued : TokenEvent → Option (Str × Nat)
  | .issue random now => some (genToken random, now)
  | .validate .. => none

/-- The tokens a run issued, oldest first. -/
def issuedIn (es : List TokenEvent) : List (Str × Nat) := es.filterMap TokenEvent.issued

/-! ## The slot that is taken -/

theorem ttlActive_iff {now : Nat} {e : TokenEntry} :
    ttlActive now e.expiry = true ↔ Live TokenEntry.expiry now e := by
  simp [ttlActive, Live]

/-- The scan ends at an expired slot, or every slot is active and it ends at a least expiry. -/
theorem chooseSlot_cases (now : Nat) (tokens : TokenTable) (is : List (Fin MAX_TOKENS))
    (slot : Fin MAX_TOKENS) :
    ¬Live TokenEntry.expiry now (tokens (chooseSlot now tokens is slot)) ∨
      (∀ i ∈ is, Live TokenEntry.expiry now (tokens i)) ∧
        (tokens (chooseSlot now tokens is slot)).expiry ≤ (tokens slot).expiry ∧
        ∀ i ∈ is, (tokens (chooseSlot now tokens is slot)).expiry ≤ (tokens i).expiry := by
  induction is generalizing slot with
  | nil => simp [chooseSlot]
  | cons i rest ih =>
      cases active : ttlActive now (tokens i).expiry with
      | false =>
          refine .inl ?_
          simp only [chooseSlot, active, Bool.not_false, if_true]
          intro live
          rw [← ttlActive_iff, active] at live
          cases live
      | true =>
          simp only [chooseSlot, active, Bool.not_true, Bool.false_eq_true, if_false]
          obtain dead | ⟨live, first, least⟩ :=
            ih (if (tokens i).expiry < (tokens slot).expiry then i else slot)
          · exact .inl dead
          · have smaller : (tokens (if (tokens i).expiry < (tokens slot).expiry then i
                else slot)).expiry = min (tokens i).expiry (tokens slot).expiry := by
              split <;> omega
            rw [smaller, Nat.le_min] at first
            exact .inr ⟨List.forall_mem_cons.mpr ⟨ttlActive_iff.mp active, live⟩, first.2,
              List.forall_mem_cons.mpr ⟨first.1, least⟩⟩

theorem chooseSlot_reusable (now : Nat) (tokens : TokenTable) :
    Reusable TokenEntry.expiry now tokens
      (chooseSlot now tokens (List.finRange MAX_TOKENS) firstSlot) := by
  obtain dead | ⟨live, -, least⟩ := chooseSlot_cases now tokens (List.finRange MAX_TOKENS) firstSlot
  · exact .inl dead
  · exact .inr ⟨fun i => live i (List.mem_finRange i), fun i => least i (List.mem_finRange i)⟩

/-! ## Runs -/

theorem genToken_length (random : Fin TOKEN_LEN → UInt8) :
    (genToken random).length = TOKEN_LEN * 2 := by
  have two (buf : List Nat) : (Identity.hexOf buf).length = buf.length * 2 := by
    simp [Identity.hexOf, List.length_flatMap]
  simp [genToken, two]

theorem foldl_or {α : Type*} (p : α → Bool) (l : List α) (found : Bool) :
    l.foldl (fun found i => found || p i) found = (found || l.any p) := by
  induction l generalizing found with
  | nil => simp
  | cons a l ih => rw [List.foldl_cons, ih, List.any_cons, Bool.or_assoc]

theorem validateToken_iff {tokens : TokenTable} {token : Str} {now : Nat} :
    validateToken tokens token now = true ↔
      token.length = TOKEN_LEN * 2 ∧
        ∃ i, Live TokenEntry.expiry now (tokens i) ∧ (tokens i).token = token := by
  simp only [validateToken]
  split
  · rename_i long
    simp [long]
  · rename_i fits
    rw [foldl_or, Bool.false_or, List.any_eq_true]
    simp only [Bool.and_eq_true, decide_eq_true_eq, List.mem_finRange, true_and,
      ttlActive_iff, not_not.mp fits]

/-- The entry of an issued token. -/
def entryOf (issue : Str × Nat) : TokenEntry := ⟨issue.1, issue.2 + TOKEN_TTL_MS⟩

/-- The uptimes of a run never go back, and no two tokens are issued at one. -/
structure OnUptime (es : List TokenEvent) : Prop where
  ordered : es.Pairwise fun earlier later => earlier.now ≤ later.now
  issues : (issuedIn es).Pairwise fun earlier later => earlier.2 < later.2

instance (es : List TokenEvent) : Decidable (OnUptime es) :=
  decidable_of_iff (es.Pairwise (fun earlier later => earlier.now ≤ later.now) ∧
      (issuedIn es).Pairwise fun earlier later => earlier.2 < later.2)
    ⟨fun ⟨ordered, issues⟩ => ⟨ordered, issues⟩, fun ⟨ordered, issues⟩ => ⟨ordered, issues⟩⟩

theorem issuedIn_append (es : List TokenEvent) (e : TokenEvent) :
    issuedIn (es ++ [e]) = issuedIn es ++ e.issued.toList := by
  cases issued : e.issued <;> simp [issuedIn, issued]

/-- The table holds the newest tokens of the run, at any time from its last event on. -/
theorem tokens_hold {es : List TokenEvent} {now : Nat} (times : OnUptime es)
    (past : ∀ e ∈ es, e.now ≤ now) :
    Holds TokenEntry.expiry now (run tokenStep noTokens es)
      ((issuedIn es).reverse.map entryOf) := by
  induction es using List.reverseRecOn generalizing now with
  | nil => exact Holds.empty (by simp [noTokens, Live])
  | append_singleton es e ih =>
      obtain ⟨ordered, last⟩ := List.pairwise_append.mp times.ordered
      have before : ∀ e' ∈ es, e'.now ≤ e.now := fun e' mem =>
        last.2 e' mem e (List.mem_singleton.mpr rfl)
      have issues := times.issues
      rw [issuedIn_append] at issues ⊢
      obtain ⟨earlier, -, apart⟩ := List.pairwise_append.mp issues
      have held := ih ⟨ordered, earlier⟩ before
      refine Holds.later ?_ (past e (by simp))
      rw [run_append]
      cases e with
      | validate token time => simpa [TokenEvent.issued, tokenStep] using held
      | issue random time =>
          simp only [TokenEvent.issued, Option.toList_some, List.reverse_append,
            List.reverse_singleton, List.singleton_append, List.map_cons, run_cons, run_nil,
            tokenStep]
          apply held.put (chooseSlot_reusable time _)
          intro x mem
          obtain ⟨issue, old, rfl⟩ := List.mem_map.mp mem
          have := apart issue (List.mem_reverse.mp old) _ (List.mem_singleton.mpr rfl)
          simpa [entryOf] using this

/-- A member of the newest `n` of a log that is kept oldest first. -/
theorem mem_take_reverse {α : Type*} {log : List α} {n : Nat} {x : α} :
    x ∈ log.reverse.take n ↔ ∃ before after, log = before ++ x :: after ∧ after.length < n := by
  constructor
  · intro mem
    obtain ⟨i, bound, rfl⟩ := List.mem_iff_getElem.mp mem
    rw [List.length_take, List.length_reverse] at bound
    have inside : log.length - 1 - i < log.length := by omega
    refine ⟨log.take (log.length - 1 - i), log.drop (log.length - 1 - i + 1), ?_, ?_⟩
    · rw [List.getElem_take, List.getElem_reverse, ← List.drop_eq_getElem_cons inside,
        List.take_append_drop]
    · rw [List.length_drop]
      omega
  · rintro ⟨before, after, rfl, few⟩
    have front : (before ++ x :: after).reverse = after.reverse ++ x :: before.reverse := by
      simp
    rw [front, List.take_append, List.length_reverse, List.mem_append]
    obtain ⟨k, room⟩ : ∃ k, n - after.length = k + 1 := ⟨n - after.length - 1, by omega⟩
    rw [room, List.take_succ_cons]
    exact .inr List.mem_cons_self

/-- From an empty table, whatever is issued and validated at uptimes that never go back: a text
validates exactly when it was issued less than an hour ago and fewer than four tokens were
issued after it. -/
theorem token_validates_iff (es : List TokenEvent) (token : Str) (now : Nat)
    (times : OnUptime es) (past : ∀ e ∈ es, e.now ≤ now) :
    validateToken (run tokenStep noTokens es) token now = true ↔
      ∃ before issuedAt after, issuedIn es = before ++ (token, issuedAt) :: after ∧
        now < issuedAt + TOKEN_TTL_MS ∧ after.length < MAX_TOKENS := by
  have held := tokens_hold times past
  rw [validateToken_iff, held.live_iff fun e => e.token = token]
  constructor
  · rintro ⟨-, e, mem, live, rfl⟩
    rw [← List.map_take] at mem
    obtain ⟨⟨issuedToken, issuedAt⟩, newest, rfl⟩ := List.mem_map.mp mem
    obtain ⟨before, after, log, few⟩ := mem_take_reverse.mp newest
    exact ⟨before, issuedAt, after, log, live.2, few⟩
  · rintro ⟨before, issuedAt, after, log, fresh, few⟩
    have newest := mem_take_reverse.mpr ⟨before, after, log, few⟩
    refine ⟨?_, entryOf (token, issuedAt), ?_, ⟨?_, fresh⟩, rfl⟩
    · have issued : (token, issuedAt) ∈ issuedIn es := by simp [log]
      obtain ⟨e, -, made⟩ := List.mem_filterMap.mp issued
      cases e with
      | validate text time => cases made
      | issue random time =>
          obtain ⟨rfl, -⟩ := Prod.mk.inj (Option.some.inj made)
          exact genToken_length random
    · rw [← List.map_take]
      exact List.mem_map_of_mem newest
    · exact Nat.ne_of_gt (Nat.zero_lt_of_lt fresh)

/-- Random bytes that are all `b`. -/
def sameBytes (b : UInt8) : Fin TOKEN_LEN → UInt8 := fun _ => b

/-- Five logins in a row leave the second token valid up to the end of its hour. -/
def fiveLogins : List TokenEvent :=
  [.issue (sameBytes 1) 10, .issue (sameBytes 2) 20, .issue (sameBytes 3) 30,
    .issue (sameBytes 4) 40, .validate (genToken (sameBytes 1)) 45, .issue (sameBytes 5) 50]

theorem token_validates_second :
    validateToken (run tokenStep noTokens fiveLogins) (genToken (sameBytes 2)) 3600019 = true :=
  (token_validates_iff fiveLogins (genToken (sameBytes 2)) 3600019 (by decide) (by decide)).mpr
    ⟨[(genToken (sameBytes 1), 10)], 20, [(genToken (sameBytes 3), 30),
      (genToken (sameBytes 4), 40), (genToken (sameBytes 5), 50)], by decide +kernel,
      by decide, by decide⟩

end Thesada.Http
