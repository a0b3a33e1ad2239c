import Thesada.Mqtt.RebootBudget

/-!
# When last-good comes back

A unit boots with settings that never connect while other settings are committed as
last-good. Two branches spend the restart budget, and only the exhaustion branch writes the
failing settings down. So last-good comes back exactly when that branch has restarted the unit
once, for settings that can be written down and put back.

Until then the run is in one of two phases: nothing recorded, or recorded and restarting. The
boot that ends the second phase restores.
-/

namespace Thesada.Mqtt

open CString Machine

/-- Every NVS and file access of the run lands, no connect succeeds and nobody edits. -/
def Lands (_ : Client) : ClientEvent → Prop
  | .boot mounted io =>
      mounted = true ∧ io.opens = true ∧ io.readSet = true ∧ io.readLg = true ∧
        io.readRbCfg = true ∧ io.saved = true
  | .connectFailed f => f.writeRbCfg = true
  | .connected _ | .edit _ _ => False
  | .wait _ | .reinit => True

instance Lands.decidable (c : Client) : ∀ e, Decidable (Lands c e)
  | .boot _ _ => inferInstanceAs (Decidable (_ ∧ _ ∧ _ ∧ _ ∧ _ ∧ _))
  | .connectFailed f => inferInstanceAs (Decidable (f.writeRbCfg = true))
  | .connected _ | .edit _ _ => isFalse id
  | .wait _ | .reinit => isTrue trivial

/-- A restart by the exhaustion branch. -/
def exhaustionReboot (c : Client) : ClientEvent → Bool
  | .connectFailed f =>
      c.up && !c.countFailure.defragReboots f && c.countFailure.exhaustReboots f
  | _ => false

/-- A boot that puts the settings `lg` in the place of others, in the file and in the live
document. -/
def restores (codec : CriticalCodec) (lg : Critical) (c : Client) : ClientEvent → Bool
  | .boot mounted io =>
      critical c.file ≠ lg && critical (c.boot codec mounted io).file = lg &&
        critical (c.boot codec mounted io).live = lg
  | _ => false

/-- A unit before a boot, with settings other than the committed last-good. -/
structure Uncommitted (codec : CriticalCodec) (lg : Critical) (c : Client) : Prop where
  down : c.up = false
  set : c.nvs.lgSet = true
  text : c.nvs.lg = codec.render lg
  fits : c.nvs.lg ≠ [] ∧ c.nvs.lg.length < LG_MAX_LEN
  differs : critical c.file ≠ lg

/-- The settings can be written down and put back: they fit the buffer and the document has
an `mqtt` object. -/
def Recordable (codec : CriticalCodec) (d : MqttDoc) : Prop :=
  d.isSome ∧ (mqttCriticalJson codec d).isSome

/-! ## What the steps leave alone -/

namespace Client

variable (codec : CriticalCodec)

/-- The parts of a unit that only a boot, a commit or an edit changes. -/
structure Keeps (c c' : Client) : Prop where
  file : c'.file = c.file
  live : c'.live = c.live
  lg : c'.nvs.lg = c.nvs.lg
  lgSet : c'.nvs.lgSet = c.nvs.lgSet

theorem Keeps.trans {a b c : Client} (first : a.Keeps b) (second : b.Keeps c) : a.Keeps c :=
  ⟨second.file.trans first.file, second.live.trans first.live, second.lg.trans first.lg,
    second.lgSet.trans first.lgSet⟩

theorem budgetReboot_keeps (c : Client) (io : CountIo) : c.Keeps (c.budgetReboot io) := by
  constructor
  · rfl
  · rfl
  all_goals
    simp only [budgetReboot, mqttRebootCountBump]
    split_ifs <;> rfl

theorem budgetReboot_rbCfg (c : Client) (io : CountIo) :
    (c.budgetReboot io).nvs.rbCfg = c.nvs.rbCfg := by
  simp only [budgetReboot, mqttRebootCountBump]
  split_ifs <;> rfl

theorem recordFailing_keeps (c : Client) (lands : Bool) :
    c.Keeps (c.recordFailing codec lands) := by
  simp only [recordFailing]
  cases mqttCriticalJson codec c.live with
  | none => exact ⟨rfl, rfl, rfl, rfl⟩
  | some failing => cases lands <;> exact ⟨rfl, rfl, rfl, rfl⟩

theorem giveUp_keeps (c : Client) (f : Failure) : c.Keeps (c.giveUp codec f) := by
  simp only [giveUp]
  split_ifs
  · exact budgetReboot_keeps c f.defrag
  · exact (recordFailing_keeps codec c f.writeRbCfg).trans (budgetReboot_keeps _ f.exhaust)
  · exact ⟨rfl, rfl, rfl, rfl⟩
  · exact ⟨rfl, rfl, rfl, rfl⟩

/-- Only the exhaustion branch records. -/
theorem giveUp_unrecorded {c : Client} {f : Failure}
    (branch : (!c.defragReboots f && c.exhaustReboots f) = false) :
    (c.giveUp codec f).nvs.rbCfg = c.nvs.rbCfg := by
  cases defrag : c.defragReboots f with
  | true => simp only [giveUp, defrag, if_true, budgetReboot_rbCfg]
  | false =>
      have stays : c.exhaustReboots f = false := by simpa [defrag] using branch
      simp only [giveUp, defrag, stays, Bool.false_eq_true, if_false]
      split_ifs <;> rfl

theorem giveUp_recorded {c : Client} {f : Failure} {failing : Str}
    (branch : (!c.defragReboots f && c.exhaustReboots f) = true)
    (json : mqttCriticalJson codec c.live = some failing) (lands : f.writeRbCfg = true) :
    (c.giveUp codec f).nvs.rbCfg = failing ∧ (c.giveUp codec f).up = false := by
  simp only [Bool.and_eq_true, Bool.not_eq_true'] at branch
  obtain ⟨defrag, exhaust⟩ := branch
  have exhausted : c.exhausted = true := by
    simp only [exhaustReboots, Bool.and_eq_true] at exhaust
    exact exhaust.1
  simp only [giveUp, defrag, exhausted, exhaust, Bool.false_eq_true, if_false, if_true,
    budgetReboot_rbCfg, recordFailing, json, mqttWriteRbCfg, lands]
  exact ⟨trivial, rfl⟩

end Client

/-! ## The phases of the run -/

variable {codec : CriticalCodec} {lg : Critical}

/-- Last-good is committed, and the failing document `d` is in the file and, on a running unit,
live. -/
structure Failing (codec : CriticalCodec) (lg : Critical) (d : MqttDoc) (c : Client) : Prop where
  set : c.nvs.lgSet = true
  text : c.nvs.lg = codec.render lg
  fits : c.nvs.lg ≠ [] ∧ c.nvs.lg.length < LG_MAX_LEN
  file : c.file = d
  live : c.up = true → c.live = d
  differs : critical d ≠ lg

theorem Failing.keep {d : MqttDoc} {c c' : Client} (h : Failing codec lg d c)
    (keeps : c.Keeps c') (up : c'.up = true → c.up = true) : Failing codec lg d c' where
  set := keeps.lgSet.trans h.set
  text := keeps.lg.trans h.text
  fits := keeps.lg ▸ h.fits
  file := keeps.file.trans h.file
  live := fun running => keeps.live.trans (h.live (up running))
  differs := h.differs

/-- Everything but a boot leaves the phase. -/
theorem Failing.step {d : MqttDoc} {c : Client} {e : ClientEvent} (h : Failing codec lg d c)
    (lands : Lands c e) (noBoot : ∀ mounted io, e ≠ .boot mounted io) :
    Failing codec lg d (clientStep codec c e) := by
  cases e with
  | wait seconds => exact h.keep ⟨rfl, rfl, rfl, rfl⟩ id
  | boot mounted io => exact absurd rfl (noBoot mounted io)
  | connectFailed f =>
      cases up : c.up with
      | false => simpa [clientStep, up] using h
      | true =>
          simp only [clientStep, up, if_true]
          have counted : c.Keeps c.countFailure := ⟨rfl, rfl, rfl, rfl⟩
          exact h.keep (counted.trans (Client.giveUp_keeps codec c.countFailure f)) fun _ => up
  | connected io => exact lands.elim
  | reinit =>
      cases up : c.up with
      | false => simpa [clientStep, up] using h
      | true =>
          simp only [clientStep, up, if_true]
          exact h.keep ⟨rfl, rfl, rfl, rfl⟩ fun _ => up
  | edit live file => exact lands.elim

/-- A snapshot that fits is read back as the committed settings. -/
theorem Failing.lgRead {d : MqttDoc} {c : Client} {io : RollbackIo} (h : Failing codec lg d c)
    (readSet : io.readSet = true) (readLg : io.readLg = true) :
    (c.load true).lgRead io = codec.render lg := by
  have set : (c.load true).nvs.lgSet = true := h.set
  have text : (c.load true).nvs.lg = codec.render lg := h.text
  have fits : (codec.render lg).length < LG_MAX_LEN := h.text ▸ h.fits.2
  simp [Client.lgRead, getString, readSet, readLg, set, text, fits]

/-- The decision of a boot whose reads all land. -/
theorem Failing.rollbackTarget {d : MqttDoc} {c : Client} {io : RollbackIo} {cur : Str}
    (h : Failing codec lg d c) (lands : Lands c (.boot true io))
    (json : mqttCriticalJson codec d = some cur) :
    (c.load true).rollbackTarget codec io = if c.nvs.rbCfg = cur then some lg else none := by
  obtain ⟨-, opens, readSet, readLg, readRbCfg, -⟩ := lands
  obtain ⟨rendered, curNe, curFits⟩ := mqttCriticalJson_eq_some json
  have live : mqttCriticalJson codec (c.load true).live = some cur := by
    simp only [Client.load, if_true, h.file, json]
  have lgNe : codec.render lg ≠ [] := h.text ▸ h.fits.1
  have differs : cur ≠ codec.render lg := by
    intro same
    exact h.differs (codec.render_injective (rendered.symm.trans same))
  have set : (io.readSet && (c.load true).nvs.lgSet) = true := by
    rw [readSet]
    exact h.set
  simp only [Client.rollbackTarget, opens, live, set, h.lgRead readSet readLg, Bool.not_true,
    Bool.false_eq_true, if_false, codec.parse_render]
  by_cases recorded : c.nvs.rbCfg = cur
  · have read : getString io.readRbCfg (c.load true).nvs.rbCfg = cur := by
      simp only [Client.load, recorded, getString, readRbCfg, curFits, and_self, if_true]
    have should : mqttRollbackShould (codec.render lg) true
        (getString io.readRbCfg (c.load true).nvs.rbCfg) cur = true :=
      mqttRollbackShould_iff.mpr ⟨rfl, lgNe, read ▸ curNe, read.symm, differs⟩
    rw [if_pos should, if_pos recorded]
  · rw [if_neg recorded, if_neg]
    intro should
    obtain ⟨-, -, rbNe, same, -⟩ := mqttRollbackShould_iff.mp should
    simp only [Client.load, getString] at rbNe same
    split_ifs at rbNe same with fits
    · exact recorded same.symm
    · exact rbNe rfl

/-- A boot whose rollback finds nothing to do loads the file. -/
theorem Failing.boot_idle {d : MqttDoc} {c : Client} {io : RollbackIo}
    (h : Failing codec lg d c) (idle : (c.load true).rollbackTarget codec io = none) :
    Failing codec lg d (c.boot codec true io) ∧ (c.boot codec true io).nvs = c.nvs := by
  simp only [Client.boot, Client.rollbackIfUncommitted_of_none idle]
  exact ⟨⟨h.set, h.text, h.fits, h.file, fun _ => h.file, h.differs⟩, rfl⟩

/-- The boot after the record restores. -/
theorem Failing.boot_restores {d : MqttDoc} {c : Client} {io : RollbackIo} {cur : Str}
    (h : Failing codec lg d c) (lands : Lands c (.boot true io)) (object : d.isSome)
    (json : mqttCriticalJson codec d = some cur) (recorded : c.nvs.rbCfg = cur) :
    restores codec lg c (.boot true io) = true := by
  have target : (c.load true).rollbackTarget codec io = some lg := by
    rw [h.rollbackTarget lands json, if_pos recorded]
  obtain ⟨m, rfl⟩ := Option.isSome_iff_exists.mp object
  have live : (c.load true).live = some m := h.file
  have differs : critical c.file ≠ lg := h.file ▸ h.differs
  simp only [restores, Client.boot, Client.begin,
    Client.rollbackIfUncommitted_saved target lands.2.2.2.2.2, live, critical_restore]
  simpa using differs

/-- A boot does not put back settings that cannot be written down. -/
theorem Failing.boot_unrecordable {d : MqttDoc} (lost : ¬Recordable codec d) {c : Client}
    (h : Failing codec lg d c) (io : RollbackIo) :
    Failing codec lg d (c.boot codec true io) ∧ restores codec lg c (.boot true io) = false := by
  cases target : (c.load true).rollbackTarget codec io with
  | none =>
      have next := (h.boot_idle target).1
      refine ⟨next, ?_⟩
      simp [restores, next.file, h.differs]
  | some lg' =>
      obtain ⟨cur, json, -⟩ := Client.rollbackTarget_eq_some target
      have empty : d = none := by
        have loaded : (c.load true).live = d := h.file
        rw [loaded] at json
        cases d with
        | none => rfl
        | some m => exact absurd ⟨rfl, by rw [json]; rfl⟩ lost
      subst empty
      have loaded : (c.load true).live = none := h.file
      have file : (c.boot codec true io).file = none := by
        simp only [Client.boot, Client.begin, Client.rollbackIfUncommitted, target, loaded]
        cases io.saved with
        | false => exact h.file
        | true => rfl
      have live : (c.boot codec true io).live = none := by
        simp only [Client.boot, Client.begin, Client.rollbackIfUncommitted, target, loaded]
        cases io.saved <;> rfl
      have nvs : (c.boot codec true io).nvs.lg = c.nvs.lg ∧
          (c.boot codec true io).nvs.lgSet = c.nvs.lgSet := by
        simp only [Client.boot, Client.begin, Client.rollbackIfUncommitted, target]
        cases io.saved with
        | false => exact ⟨rfl, rfl⟩
        | true =>
            simp only [if_true, mqttClearRbCfg, mqttRebootCountClear]
            constructor <;> (split_ifs <;> rfl)
      refine ⟨⟨nvs.2.trans h.set, nvs.1.trans h.text, nvs.1 ▸ h.fits, file, fun _ => live,
        h.differs⟩, ?_⟩
      simp [restores, file, h.differs]

/-! ## Runs -/

/-- Settings that cannot be written down or put back stay. -/
theorem Failing.unrecordable {d : MqttDoc} (lost : ¬Recordable codec d) {c : Client}
    (h : Failing codec lg d c) {es : List ClientEvent}
    (lands : Meets (clientStep codec) Lands c es) :
    tally (clientStep codec) (restores codec lg) c es = 0 := by
  induction es generalizing c with
  | nil => rfl
  | cons e es ih =>
      cases e with
      | boot mounted io =>
          obtain rfl : mounted = true := lands.1.1
          obtain ⟨next, quiet⟩ := h.boot_unrecordable lost io
          simp only [tally, quiet, Bool.false_eq_true, if_false, Nat.zero_add]
          exact ih next lands.2
      | wait _ | connectFailed _ | connected _ | reinit | edit _ _ =>
          have next := h.step lands.1 (by intro _ _ same; cases same)
          simpa [tally, restores] using ih next lands.2

/-- Once the failing settings are written down, the next boot restores. -/
theorem Failing.recorded {d : MqttDoc} {cur : Str} (object : d.isSome)
    (json : mqttCriticalJson codec d = some cur) {c : Client} (h : Failing codec lg d c)
    (down : c.up = false) (written : c.nvs.rbCfg = cur) {es : List ClientEvent}
    (lands : Meets (clientStep codec) Lands c es)
    (booted : (run (clientStep codec) c es).up = true) :
    0 < tally (clientStep codec) (restores codec lg) c es := by
  induction es generalizing c with
  | nil => simp [down] at booted
  | cons e es ih =>
      cases e with
      | boot mounted io =>
          obtain rfl : mounted = true := lands.1.1
          simp only [tally, h.boot_restores lands.1 object json written, if_true]
          omega
      | wait seconds =>
          have next := h.step lands.1 (by intro _ _ same; cases same)
          have found := ih next down written lands.2 booted
          simpa [tally, restores] using found
      | connected _ | edit _ _ => exact lands.1.elim
      | connectFailed _ | reinit =>
          simp only [run_cons, clientStep, down, Bool.false_eq_true, if_false] at booted
          have rest := lands.2
          simp only [clientStep, down, Bool.false_eq_true, if_false] at rest
          have found := ih h down written rest booted
          simpa [tally, restores, clientStep, down] using found

/-- A failure in the exhaustion branch writes the failing settings down and restarts the unit. -/
theorem Failing.exhausts {d : MqttDoc} {cur : Str} (json : mqttCriticalJson codec d = some cur)
    {c : Client} (h : Failing codec lg d c) {f : Failure} (lands : Lands c (.connectFailed f))
    (branch : exhaustionReboot c (.connectFailed f) = true) :
    (clientStep codec c (.connectFailed f)).nvs.rbCfg = cur ∧
      (clientStep codec c (.connectFailed f)).up = false := by
  have up : c.up = true := by
    simp only [exhaustionReboot, Bool.and_eq_true] at branch
    exact branch.1.1
  have taken : (!c.countFailure.defragReboots f && c.countFailure.exhaustReboots f) = true := by
    simpa [exhaustionReboot, up] using branch
  have live : mqttCriticalJson codec c.countFailure.live = some cur := by
    have same : c.countFailure.live = d := h.live up
    rw [same, json]
  have step : clientStep codec c (.connectFailed f) = c.countFailure.giveUp codec f := by
    simp [clientStep, up, Client.connectFailed]
  rw [step]
  exact Client.giveUp_recorded codec taken live lands

/-- Any other failure leaves what is written down. -/
theorem connectFailed_unrecorded {c : Client} {f : Failure}
    (branch : exhaustionReboot c (.connectFailed f) = false) :
    (clientStep codec c (.connectFailed f)).nvs.rbCfg = c.nvs.rbCfg := by
  cases up : c.up with
  | false => simp [clientStep, up]
  | true =>
      simp only [clientStep, up, if_true]
      exact Client.giveUp_unrecorded codec (by simpa [exhaustionReboot, up] using branch)

/-- From the phase in which nothing is recorded, a run that ends booted has restored exactly
when the exhaustion branch has restarted the unit. -/
theorem Failing.unrecorded {d : MqttDoc} {cur : Str} (object : d.isSome)
    (json : mqttCriticalJson codec d = some cur) {c : Client} (h : Failing codec lg d c)
    (unwritten : c.nvs.rbCfg ≠ cur) {es : List ClientEvent}
    (lands : Meets (clientStep codec) Lands c es)
    (booted : (run (clientStep codec) c es).up = true) :
    0 < tally (clientStep codec) (restores codec lg) c es ↔
      0 < tally (clientStep codec) exhaustionReboot c es := by
  induction es generalizing c with
  | nil => simp [tally]
  | cons e es ih =>
      cases e with
      | boot mounted io =>
          obtain rfl : mounted = true := lands.1.1
          have idle : (c.load true).rollbackTarget codec io = none := by
            rw [h.rollbackTarget lands.1 json, if_neg unwritten]
          obtain ⟨next, nvs⟩ := h.boot_idle idle
          have quiet : restores codec lg c (.boot true io) = false := by
            simp [restores, next.file, h.differs]
          simp only [tally, quiet, exhaustionReboot, Bool.false_eq_true, if_false, Nat.zero_add]
          exact ih next (nvs ▸ unwritten) lands.2 booted
      | connectFailed f =>
          have next := h.step lands.1 (by intro _ _ same; cases same)
          cases branch : exhaustionReboot c (.connectFailed f) with
          | true =>
              obtain ⟨recorded, down⟩ := h.exhausts json lands.1 branch
              have found := next.recorded object json down recorded lands.2 booted
              simp only [tally, branch, if_true]
              constructor <;> intro <;> omega
          | false =>
              have same : (clientStep codec c (.connectFailed f)).nvs.rbCfg = c.nvs.rbCfg :=
                connectFailed_unrecorded branch
              simp only [tally, branch, restores, Bool.false_eq_true, if_false, Nat.zero_add]
              exact ih next (same ▸ unwritten) lands.2 booted
      | wait seconds =>
          have next := h.step lands.1 (by intro _ _ same; cases same)
          simpa [tally, restores, exhaustionReboot] using ih next unwritten lands.2 booted
      | reinit =>
          have next := h.step lands.1 (by intro _ _ same; cases same)
          have same : (clientStep codec c .reinit).nvs = c.nvs := by
            cases up : c.up <;> simp [clientStep, up]
          simpa [tally, restores, exhaustionReboot] using
            ih next (same ▸ unwritten) lands.2 booted
      | connected _ | edit _ _ => exact lands.1.elim

/-- A rollback changes only settings that are recorded as failing and differ from last-good. -/
theorem changed_was_recorded (codec : CriticalCodec) (c : Client) (mounted : Bool)
    (io : RollbackIo)
    (changed : (c.boot codec mounted io).live ≠ (c.load mounted).live ∨
      (c.boot codec mounted io).file ≠ c.file) :
    ∃ cur, mqttCriticalJson codec (c.load mounted).live = some cur ∧ cur = c.nvs.rbCfg ∧
      cur ≠ c.nvs.lg := by
  cases target : (c.load mounted).rollbackTarget codec io with
  | none =>
      simp only [Client.boot, Client.rollbackIfUncommitted_of_none target] at changed
      exact absurd changed (by simp [Client.begin, Client.load])
  | some lg =>
      obtain ⟨cur, json, -, -, recorded, differs⟩ := Client.rollbackTarget_eq_some target
      exact ⟨cur, json, recorded, differs⟩

/-- A run that starts with uncommitted settings and ends booted has restored last-good exactly
when the settings can be recorded and either were recorded before the run or the exhaustion
branch has restarted the unit. And no boot changes settings that are not the recorded failing
ones or that are last-good. -/
theorem rollback_restores_recorded (codec : CriticalCodec) (lg : Critical) (c : Client)
    (es : List ClientEvent) (start : Uncommitted codec lg c)
    (lands : Meets (clientStep codec) Lands c es)
    (booted : (run (clientStep codec) c es).up = true) :
    (0 < tally (clientStep codec) (restores codec lg) c es ↔
      Recordable codec c.file ∧ (mqttCriticalJson codec c.file = some c.nvs.rbCfg ∨
        0 < tally (clientStep codec) exhaustionReboot c es)) ∧
    ∀ (c' : Client) (mounted : Bool) (io : RollbackIo),
      ((c'.boot codec mounted io).live ≠ (c'.load mounted).live ∨
        (c'.boot codec mounted io).file ≠ c'.file) →
      ∃ cur, mqttCriticalJson codec (c'.load mounted).live = some cur ∧ cur = c'.nvs.rbCfg ∧
        cur ≠ c'.nvs.lg := by
  refine ⟨?_, changed_was_recorded codec⟩
  have failing : Failing codec lg c.file c :=
    ⟨start.set, start.text, start.fits, rfl, by simp [start.down], start.differs⟩
  by_cases recordable : Recordable codec c.file
  · obtain ⟨cur, json⟩ := Option.isSome_iff_exists.mp recordable.2
    simp only [recordable, true_and, json, Option.some.injEq]
    by_cases written : c.nvs.rbCfg = cur
    · have found := failing.recorded recordable.1 json start.down written lands booted
      simp [found, written]
    · have runs := failing.unrecorded recordable.1 json written lands booted
      simp [runs, Ne.symm written]
  · simp [recordable, failing.unrecordable recordable lands]

/-- Settings for broker `b` over last-good for broker `a`: one exhaustion reboot and the next
boot restores. -/
theorem rollback_restores_recorded_sample :
    0 < tally (clientStep arduinoJson)
      (restores arduinoJson (critical (mqttOf ['a'] none none)))
      (unbooted (mqttOf ['b'] (some 1) (some 1)))
      (lifeOf (answered 0) ++ [.boot true rollbackLands]) :=
  (rollback_restores_recorded arduinoJson (critical (mqttOf ['a'] none none))
    (unbooted (mqttOf ['b'] (some 1) (some 1))) (lifeOf (answered 0) ++ [.boot true rollbackLands])
    ⟨rfl, rfl, rfl, by decide +kernel, by decide +kernel⟩
    (by decide +kernel) (by decide +kernel)).1.mpr ⟨⟨rfl, by decide +kernel⟩, Or.inr (by decide +kernel)⟩

/-- The broker resolves and the handshake dies on a low heap. -/
def lowHeap : ClientEvent :=
  .connectFailed
    { resolved := true, rc := -2, maxAllocHeap := 30000, defrag := answered 0,
      exhaust := answered 0, writeRbCfg := true }

/-- A boot and the three low-heap failures that restart it. -/
def lowHeapLife : List ClientEvent := [.boot true rollbackLands, lowHeap, lowHeap, lowHeap]

/-- Broker `b` with the default budget, over last-good for broker `a`. -/
def defaultUnit : Client := unbooted (mqttOf ['b'] none none)

/-- Three low-heap restarts and a boot that then fails thirty times. -/
def lowHeapRun : List ClientEvent :=
  lowHeapLife ++ lowHeapLife ++ lowHeapLife ++
    .boot true rollbackLands :: List.replicate 30 lowHeap

/-- Three low-heap restarts spend the default budget of three, the fourth boot halts, and
last-good never comes back. -/
theorem low_heap_reboots_never_restore :
    Uncommitted arduinoJson (critical (mqttOf ['a'] none none)) defaultUnit ∧
      Meets (clientStep arduinoJson) Lands defaultUnit lowHeapRun ∧
      defaultUnit.file.maxReboots = 3 ∧
      tally (clientStep arduinoJson) brokerReboot defaultUnit lowHeapRun = 3 ∧
      (run (clientStep arduinoJson) defaultUnit lowHeapRun).rebootHalted = true ∧
      tally (clientStep arduinoJson) (restores arduinoJson (critical (mqttOf ['a'] none none)))
        defaultUnit lowHeapRun = 0 := by
  refine ⟨⟨rfl, rfl, rfl, by decide +kernel, by decide +kernel⟩, ?_, rfl, ?_, ?_, ?_⟩
  all_goals decide +kernel

end Thesada.Mqtt
