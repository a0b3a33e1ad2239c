import Thesada.Mqtt.Reconnect

/-!
# How many restarts a broker outage costs

The budget left is what the count leaves of `mqtt.max_exhaust_reboots`. A restart takes one
from it when its count lands. The budget is filled again by a restart that found the count
aged out and by a rollback that gives the restored settings a fresh start.

The count ages by the clock of the unit, which may be unset, floored or corrected. A reading
is off when it lies before the stored epoch or further after it than the real time gone by;
only then can a count age out early.
-/

namespace Thesada.Mqtt

open CString Machine

namespace Client

/-- The NVS calls and the clock of the branch that restarts. -/
def budgetIo (c : Client) (f : Failure) : CountIo :=
  if c.defragReboots f then f.defrag else f.exhaust

/-- A failed connect that restarts the unit, in either branch. -/
def budgetReboots (c : Client) (f : Failure) : Bool :=
  c.up && (c.countFailure.defragReboots f || c.countFailure.exhaustReboots f)

/-- Six real hours have passed since the last counted restart. -/
def longRest (c : Client) : Bool := RB_STALE_WINDOW_S ≤ c.time - c.countedAt

/-- The clock lies before the stored epoch, or after it by more than the real time since the
last counted restart. -/
def clockOff (c : Client) (io : CountIo) : Bool :=
  let now := io.now % 2 ^ 32
  let epoch := epochRead c.nvs io % 2 ^ 32
  now < epoch || c.time - c.countedAt < now - epoch

def countUnread (io : CountIo) : Bool := !io.readOpens || !io.readCount

def countUnwritten (io : CountIo) : Bool := !io.bumpOpens || !io.putCount

end Client

section Picks

variable (codec : CriticalCodec)

/-- A broker reboot of either branch. -/
def brokerReboot (c : Client) : ClientEvent → Bool
  | .connectFailed f => c.budgetReboots f
  | _ => false

/-- What fills the budget by design: a reboot six real hours after the last counted one, and a
boot whose rollback to last-good was saved. -/
def renewal (c : Client) : ClientEvent → Bool
  | .connectFailed f => c.budgetReboots f && c.longRest
  | .boot mounted io => ((c.load mounted).rollbackTarget codec io).isSome && io.saved
  | _ => false

/-- A reboot whose count could not be read or whose clock reading was off. -/
def misread (c : Client) : ClientEvent → Bool
  | .connectFailed f =>
      c.budgetReboots f && (Client.countUnread (c.countFailure.budgetIo f) ||
        c.clockOff (c.countFailure.budgetIo f))
  | _ => false

/-- A reboot whose count did not reach flash. -/
def uncounted (c : Client) : ClientEvent → Bool
  | .connectFailed f =>
      c.budgetReboots f && Client.countUnwritten (c.countFailure.budgetIo f)
  | _ => false

end Picks

/-- No connect succeeds, and `mqtt.max_exhaust_reboots` reads as at most `max`. -/
def NeverConnects (max : Nat) (c : Client) : ClientEvent → Prop
  | .connected _ => False
  | .connectFailed _ => c.live.maxReboots ≤ max
  | _ => True

instance NeverConnects.decidable (max : Nat) (c : Client) :
    ∀ e, Decidable (NeverConnects max c e)
  | .connected _ => isFalse id
  | .connectFailed _ => inferInstanceAs (Decidable (c.live.maxReboots ≤ max))
  | .wait _ | .boot _ _ | .reinit | .edit _ _ => isTrue trivial

/-- What the stored count leaves of a budget. -/
def budgetLeft (max : Nat) (c : Client) : Nat := max - c.nvs.count

/-! ## Reading the count -/

theorem epochAge_of_le {now epoch : Nat} (order : epoch % 2 ^ 32 ≤ now % 2 ^ 32) :
    epochAge now epoch = now % 2 ^ 32 - epoch % 2 ^ 32 := by
  have : now % 2 ^ 32 < 2 ^ 32 := Nat.mod_lt _ (by decide)
  simp only [epochAge]
  omega

/-- A count that ages out under a clock that is right has rested six real hours. -/
theorem longRest_of_agedOut {c : Client} {io : CountIo} (aged : agedOut c.nvs io = true)
    (right : c.clockOff io = false) : c.longRest = true := by
  simp only [agedOut, Bool.and_eq_true, decide_eq_true_eq] at aged
  simp only [Client.clockOff, Bool.or_eq_false_iff, decide_eq_false_iff_not, Nat.not_lt] at right
  simp only [Client.longRest, decide_eq_true_eq]
  have age := epochAge_of_le right.1
  omega

/-- A count read as less than it is was unread or had aged out. -/
theorem mqttRebootCount_cases (n : BootNvs) (io : CountIo) :
    mqttRebootCount n io = n.count ∨ Client.countUnread io = true ∨ agedOut n io = true := by
  simp only [mqttRebootCount, Client.countUnread]
  cases io.readOpens with
  | false => simp
  | true =>
      cases io.readCount with
      | false => simp
      | true =>
          simp only [Bool.not_true, Bool.false_eq_true, if_false, if_true, Bool.or_self,
            false_or]
          split_ifs with stale
          · exact Or.inr stale.2
          · exact Or.inl rfl

/-- The count a restart reads is the stored one, unless the budget is renewed or misread. -/
theorem mqttRebootCount_eq {c : Client} {io : CountIo} (rested : c.longRest = false)
    (read : Client.countUnread io = false) (right : c.clockOff io = false) :
    mqttRebootCount c.nvs io = c.nvs.count := by
  rcases mqttRebootCount_cases c.nvs io with same | unread | aged
  · exact same
  · simp [read] at unread
  · simp [longRest_of_agedOut aged right] at rested

theorem bump_count (n : BootNvs) (io : CountIo) (newCount : Nat) :
    (mqttRebootCountBump n io newCount).count =
      if Client.countUnwritten io then n.count else newCount := by
  cases opens : io.bumpOpens with
  | false => simp [mqttRebootCountBump, Client.countUnwritten, opens]
  | true => cases put : io.putCount <;>
      simp [mqttRebootCountBump, Client.countUnwritten, opens, put]

/-! ## What a failed connect does to the count -/

namespace Client

variable (codec : CriticalCodec)

@[simp] theorem countFailure_nvs (c : Client) : c.countFailure.nvs = c.nvs := rfl

@[simp] theorem countFailure_live (c : Client) : c.countFailure.live = c.live := rfl

theorem recordFailing_count (c : Client) (lands : Bool) :
    (c.recordFailing codec lands).nvs.count = c.nvs.count ∧
      (c.recordFailing codec lands).nvs.epoch = c.nvs.epoch := by
  simp only [recordFailing]
  cases mqttCriticalJson codec c.live with
  | none => exact ⟨rfl, rfl⟩
  | some failing => cases lands <;> exact ⟨rfl, rfl⟩

theorem mqttRebootCount_congr {n n' : BootNvs} (count : n.count = n'.count)
    (epoch : n.epoch = n'.epoch) (io : CountIo) : mqttRebootCount n io = mqttRebootCount n' io := by
  obtain ⟨_, _, _, _, _⟩ := n
  obtain ⟨_, _, _, _, _⟩ := n'
  subst count epoch
  rfl

/-- A failed connect that does not restart leaves the count. -/
theorem giveUp_count_of_stays {c : Client} {f : Failure} (defrag : c.defragReboots f = false)
    (exhaust : c.exhaustReboots f = false) : (c.giveUp codec f).nvs.count = c.nvs.count := by
  simp only [giveUp, defrag, exhaust]
  split_ifs <;> first | contradiction | rfl

/-- A failed connect that restarts read a count below the budget and bumps it. -/
theorem giveUp_count_of_reboots {c : Client} {f : Failure}
    (reboots : (c.defragReboots f || c.exhaustReboots f) = true) :
    mqttRebootCount c.nvs (c.budgetIo f) < c.live.maxReboots ∧
      (c.giveUp codec f).nvs.count =
        if countUnwritten (c.budgetIo f) then c.nvs.count
        else mqttRebootCount c.nvs (c.budgetIo f) + 1 := by
  cases defrag : c.defragReboots f with
  | true =>
      have below : mqttRebootCount c.nvs f.defrag < c.live.maxReboots := by
        simp only [defragReboots, Bool.and_eq_true, decide_eq_true_eq] at defrag
        exact defrag.2
      simp only [giveUp, budgetIo, defrag, if_true, budgetReboot, bump_count]
      exact ⟨below, trivial⟩
  | false =>
      have exhaust : c.exhaustReboots f = true := by simpa [defrag] using reboots
      have parts := exhaust
      simp only [exhaustReboots, Bool.and_eq_true, decide_eq_true_eq] at parts
      obtain ⟨count, epoch⟩ := recordFailing_count codec c f.writeRbCfg
      simp only [giveUp, budgetIo, defrag, parts.1, exhaust, if_true, budgetReboot, bump_count,
        Bool.false_eq_true, if_false, mqttRebootCount_congr count epoch f.exhaust, count]
      exact ⟨parts.2, trivial⟩

end Client

/-! ## One event and the budget -/

variable {codec : CriticalCodec}

theorem spends_of_count_eq {max : Nat} {c : Client} {e : ClientEvent}
    (quiet : brokerReboot c e = false) (same : (clientStep codec c e).nvs.count = c.nvs.count) :
    (if brokerReboot c e then 1 else 0) + budgetLeft max (clientStep codec c e) ≤
      budgetLeft max c + (if renewal codec c e || misread c e then max else 0) +
        (if uncounted c e then 1 else 0) := by
  simp only [quiet, budgetLeft, same, Bool.false_eq_true, if_false]
  omega

/-- A boot without a saved rollback leaves the count. -/
theorem boot_count {c : Client} {mounted : Bool} {io : RollbackIo}
    (h : renewal codec c (.boot mounted io) = false) :
    (c.boot codec mounted io).nvs.count = c.nvs.count := by
  simp only [Client.boot, Client.begin]
  cases target : (c.load mounted).rollbackTarget codec io with
  | none => rw [Client.rollbackIfUncommitted_of_none target]; rfl
  | some lg =>
      have unsaved : io.saved = false := by simpa [renewal, target] using h
      rw [(Client.rollbackIfUncommitted_unsaved unsaved).1]
      rfl

/-- A failed connect: a restart takes one from the budget, unless the budget is renewed or
misread or the count does not land. -/
theorem connectFailed_spends {max : Nat} {c : Client} {f : Failure}
    (bound : c.live.maxReboots ≤ max) :
    (if brokerReboot c (.connectFailed f) then 1 else 0) +
        budgetLeft max (clientStep codec c (.connectFailed f)) ≤
      budgetLeft max c +
        (if renewal codec c (.connectFailed f) || misread c (.connectFailed f) then max else 0) +
        (if uncounted c (.connectFailed f) then 1 else 0) := by
  cases up : c.up with
  | false =>
      exact spends_of_count_eq (by simp [brokerReboot, Client.budgetReboots, up])
        (by simp [clientStep, up])
  | true =>
      simp only [clientStep, up, if_true, Client.connectFailed, brokerReboot, renewal, misread,
        uncounted, Client.budgetReboots, Bool.true_and, budgetLeft]
      cases reboots : c.countFailure.defragReboots f || c.countFailure.exhaustReboots f with
      | false =>
          obtain ⟨defrag, exhaust⟩ := Bool.or_eq_false_iff.mp reboots
          have same := Client.giveUp_count_of_stays codec defrag exhaust
          simp only [Client.countFailure_nvs] at same
          simp [same]
      | true =>
          obtain ⟨below, count⟩ := Client.giveUp_count_of_reboots codec reboots
          simp only [Client.countFailure_nvs, Client.countFailure_live] at below count
          simp only [count, if_true, Bool.true_and]
          cases unwritten : Client.countUnwritten (c.countFailure.budgetIo f) with
          | true => simp only [if_true]; omega
          | false =>
              simp only [Bool.false_eq_true, if_false]
              split_ifs with filled
              · omega
              · simp only [Bool.or_eq_true, not_or, Bool.not_eq_true] at filled
                have same := mqttRebootCount_eq filled.1 filled.2.1 filled.2.2
                omega

/-- Whatever happens, restarts are paid from the budget, from a renewal, from a misread count
or not counted. -/
theorem step_spends {max : Nat} {c : Client} {e : ClientEvent} (never : NeverConnects max c e) :
    (if brokerReboot c e then 1 else 0) + budgetLeft max (clientStep codec c e) ≤
      budgetLeft max c + (if renewal codec c e || misread c e then max else 0) +
        (if uncounted c e then 1 else 0) := by
  cases e with
  | wait seconds => exact spends_of_count_eq rfl rfl
  | boot mounted io =>
      by_cases renewed : renewal codec c (.boot mounted io) = true
      · simp only [brokerReboot, renewed, Bool.false_eq_true, if_false, Bool.true_or, if_true,
          budgetLeft]
        omega
      · have same : (clientStep codec c (.boot mounted io)).nvs.count = c.nvs.count :=
          boot_count (Bool.not_eq_true _ ▸ renewed)
        exact spends_of_count_eq rfl same
  | connectFailed f => exact connectFailed_spends never
  | connected io => exact never.elim
  | reinit => exact spends_of_count_eq rfl (by cases up : c.up <;> simp [clientStep, up])
  | edit live file => exact spends_of_count_eq rfl (by cases up : c.up <;> simp [clientStep, up])

/-- Every NVS call of a count answers, under a clock that reads `now`. -/
def answered (now : Nat) : CountIo where
  readOpens := true
  readCount := true
  readEpoch := true
  now := now
  bumpOpens := true
  putCount := true
  putEpoch := true
  bumpNow := now

def clearLands : ClearIo := ⟨true, true, true, true⟩

def rollbackLands : RollbackIo := ⟨true, true, true, true, true, clearLands, true⟩

/-- The broker refuses the session, which no defragmentation mends. -/
def refused (io : CountIo) : ClientEvent :=
  .connectFailed
    { resolved := true, rc := 5, maxAllocHeap := 60000, defrag := io, exhaust := io,
      writeRbCfg := true }

def mqttOf (broker : Str) (max after : Option Int) : MqttDoc :=
  some { broker := some broker, port := some 8883, user := none, password := none,
         maxExhaustReboots := max, rebootAfterFails := after }

/-- A unit before its first boot, with broker `a` committed as last-good. -/
def unbooted (file : MqttDoc) : Client where
  nvs := { count := 0, epoch := 0, lgSet := true, rbCfg := []
           lg := arduinoJson.render (critical (mqttOf ['a'] none none)) }
  file := file
  live := none
  broker := noBroker
  retryCount := 0
  rebootHalted := false
  up := false
  time := 0
  countedAt := 0
  committed := none

/-- A reboot six real hours after the last counted one. -/
def restedReboot (c : Client) : ClientEvent → Bool
  | .connectFailed f => c.budgetReboots f && c.longRest
  | _ => false

/-- A boot and the restart it ends in. -/
def lifeOf (io : CountIo) : List ClientEvent := [.boot true rollbackLands, refused io]

/-- A run that reboots, restores last-good and reboots again. -/
def restoredLife : List ClientEvent := lifeOf (answered 0) ++ lifeOf (answered 0)

/-- Without a connect, more reboots than one budget and no rested one among them. -/
def Overspends (max : Nat) (c : Client) (es : List ClientEvent) : Prop :=
  Meets (clientStep arduinoJson) (NeverConnects max) c es ∧
    max < tally (clientStep arduinoJson) brokerReboot c es ∧
    tally (clientStep arduinoJson) restedReboot c es = 0

instance Overspends.decidable (max : Nat) (c : Client) (es : List ClientEvent) :
    Decidable (Overspends max c es) :=
  inferInstanceAs (Decidable (_ ∧ _ ∧ _))

/-- A boot and the thirty failures that restart it by default. -/
def defaultLife : List ClientEvent :=
  .boot true rollbackLands :: List.replicate 30 (refused (answered 0))

end Thesada.Mqtt
