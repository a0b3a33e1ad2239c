import Mathlib.Logic.Function.Basic
import Thesada.Library.Machine
import Thesada.Ota.VerifyPolicy

/-!
# The one flash session and its two writers

`OTAUpdate::applyUpdate` on the loop task and the `POST /ota` upload handler on the
web task share the one `Update` object. `applyUpdate` moves one `Update` call at a
time. Every upload chunk is one call of the handler, which makes up to three.

`Update` itself is library code: `begin` fails while a session runs, `write` appends
to the running session, `end(true)` sets the boot slot and `abort` discards. What
else each call does (a `begin` or `end` that fails, a short write, whether it drops
the session) is part of the event. The opener of a session is kept beside its bytes
for the statements only: no definition below branches on it.
-/

namespace Thesada.Ota

open CString

/-! ## The `Update` object -/

/-- Who called the `begin` that opened the running session. -/
inductive Writer where
  | apply
  | upload (id : Nat)
  deriving DecidableEq, Repr

/-- What one `Update.write` does with a running session. -/
inductive WriteOutcome where
  | full
  /-- Fewer bytes than handed; the session then goes on or is dropped. -/
  | short (n : Nat) (alive : Bool)
  deriving DecidableEq, Repr

/-- What one `Update.end(true)` does with a running session. -/
inductive EndOutcome where
  | ok
  | failed (alive : Bool)
  deriving DecidableEq, Repr

/-- The running session, and the image the boot slot was last set to. -/
structure UpdateState where
  session : Option (Writer × List UInt8)
  boot : Option (List UInt8)
  deriving DecidableEq, Repr

namespace UpdateState

/-- `Update.isRunning()`. -/
def isRunning (s : UpdateState) : Bool := s.session.isSome

/-- `Update.begin`: refused while a session runs, and free to fail for its own reasons. -/
def begin (s : UpdateState) (who : Writer) (ok : Bool) : Bool × UpdateState :=
  if s.isRunning || !ok then (false, s) else (true, { s with session := some (who, []) })

/-- `Update.write`: the number of bytes taken, and the session after it. -/
def write (s : UpdateState) (data : List UInt8) (out : WriteOutcome) : Nat × UpdateState :=
  match s.session with
  | none => (0, s)
  | some (who, bytes) =>
    match out with
    | .full => (data.length, { s with session := some (who, bytes ++ data) })
    | .short n alive =>
      if n < data.length then
        (n, { s with session := if alive then some (who, bytes ++ data.take n) else none })
      else (data.length, { s with session := some (who, bytes ++ data) })

/-- `Update.end(true)`. -/
def finish (s : UpdateState) (out : EndOutcome) : Bool × UpdateState :=
  match s.session with
  | none => (false, s)
  | some (_, bytes) =>
    match out with
    | .ok => (true, { session := none, boot := some bytes })
    | .failed alive => (false, { s with session := if alive then s.session else none })

/-- `Update.abort`. -/
def abort (s : UpdateState) : UpdateState := { s with session := none }

@[simp] theorem begin_boot (s : UpdateState) (who : Writer) (ok : Bool) :
    (s.begin who ok).2.boot = s.boot := by
  unfold begin; split <;> rfl

@[simp] theorem write_boot (s : UpdateState) (data : List UInt8) (out : WriteOutcome) :
    (s.write data out).2.boot = s.boot := by
  unfold write; repeat' split
  all_goals rfl

@[simp] theorem abort_boot (s : UpdateState) : s.abort.boot = s.boot := rfl
@[simp] theorem abort_session (s : UpdateState) : s.abort.session = none := rfl

/-- A `begin` either changes nothing or opens an empty session of its caller. -/
theorem begin_session (s : UpdateState) (who : Writer) (ok : Bool) :
    (s.begin who ok).2.session = s.session ∨
      s.session = none ∧ (s.begin who ok).2.session = some (who, []) := by
  unfold begin isRunning
  cases h : s.session with
  | none => cases ok <;> simp [h]
  | some running => simp [h]

/-- A write that takes every byte appends them all to the running session. -/
theorem write_full {s : UpdateState} {who : Writer} {bytes data : List UInt8}
    {out : WriteOutcome} (h : s.session = some (who, bytes))
    (full : (s.write data out).1 = data.length) :
    (s.write data out).2.session = some (who, bytes ++ data) := by
  cases out with
  | full => simp [write, h]
  | short n alive =>
      by_cases hn : n < data.length
      · simp [write, h, hn] at full
        omega
      · simp [write, h, hn]

/-- Without a partial write that goes on, a write appends everything or drops the
session. -/
theorem write_session {s : UpdateState} {who : Writer} {bytes data : List UInt8}
    {out : WriteOutcome} (h : s.session = some (who, bytes))
    (whole : ∀ n, out = .short n true → data.length ≤ n) :
    (s.write data out).2.session = some (who, bytes ++ data) ∨
      (s.write data out).2.session = none := by
  cases out with
  | full => simp [write, h]
  | short n alive =>
      cases alive with
      | false => by_cases hn : n < data.length <;> simp [write, h, hn]
      | true => simp [write, h, Nat.not_lt.mpr (whole n rfl)]

/-- A write changes who opened the session in no case. -/
theorem write_opener {s : UpdateState} {who who' : Writer} {bytes bytes' data : List UInt8}
    {out : WriteOutcome} (h : s.session = some (who, bytes))
    (after : (s.write data out).2.session = some (who', bytes')) : who = who' := by
  cases out with
  | full =>
      simp only [write, h, Option.some.injEq, Prod.mk.injEq] at after
      exact after.1
  | short n alive =>
      simp only [write, h] at after
      cases alive <;> split at after <;> simp_all

/-- An `end` sets the boot slot to the running session's bytes or leaves it alone. -/
theorem finish_boot (s : UpdateState) (out : EndOutcome) :
    (s.finish out).2.boot = s.boot ∨
      ∃ who bytes, s.session = some (who, bytes) ∧ (s.finish out).2.boot = some bytes := by
  unfold finish
  cases h : s.session with
  | none => simp
  | some running =>
      cases out with
      | ok => exact .inr ⟨running.1, running.2, rfl, rfl⟩
      | failed alive => simp

theorem finish_session (s : UpdateState) (out : EndOutcome) :
    (s.finish out).2.session = s.session ∨ (s.finish out).2.session = none := by
  unfold finish
  cases h : s.session with
  | none => simp [h]
  | some running =>
      cases out with
      | ok => simp
      | failed alive => cases alive <;> simp

end UpdateState

/-! ## The two writers -/

/-- Where `applyUpdate` stands between two `Update` calls. -/
inductive ApplyPc where
  | idle
  | downloading
  | verifying
  | ending
  | returned (ok : Bool)
  deriving DecidableEq, Repr

/-- The locals of `applyUpdate`. `written` is the length of `hashed`: the callback adds
to both in the same place. -/
structure ApplyRun where
  pc : ApplyPc
  hashed : List UInt8
  writeOk : Bool
  deriving DecidableEq, Repr

/-- One upload request: its `_tempObject` marker and the body bytes received so far. -/
structure Upload where
  marker : Bool
  body : List UInt8
  finished : Bool
  deriving DecidableEq, Repr

structure FlashState where
  update : UpdateState
  apply : ApplyRun
  uploads : Nat → Upload

/-- One call of the upload handler. `index` is the length of the body so far. -/
structure UploadChunk where
  data : List UInt8
  final : Bool
  checkAuth : Bool
  alloc : Bool
  beginOk : Bool
  write : WriteOutcome
  finish : EndOutcome

inductive FlashEvent where
  | applyBegin (ok : Bool)
  | applyChunk (data : List UInt8) (out : WriteOutcome)
  | applyDownloaded (transportOk : Bool) (status : Int)
  | applyVerify
  | applyEnd (out : EndOutcome)
  | upload (id : Nat) (chunk : UploadChunk)

/-- `"%02x"` of every digest byte. -/
def computedHex (hash : List UInt8) : Str :=
  hash.flatMap fun b => [Nat.digitChar (b.toNat / 16), Nat.digitChar (b.toNat % 16)]

section

variable (sha256 : List UInt8 → List UInt8) (expectedSha256 : Str) (expectedSize : Nat)

/-- The `Update.begin` at the head of `applyUpdate`. -/
def applyBegin (s : FlashState) (ok : Bool) : FlashState :=
  let (begun, update) := s.update.begin .apply ok
  if begun then
    { s with update, apply := { pc := .downloading, hashed := [], writeOk := true } }
  else { s with update, apply := { s.apply with pc := .returned false } }

/-- The download callback of `applyUpdate`. A short write stops the hashing for good. -/
def applyChunk (s : FlashState) (data : List UInt8) (out : WriteOutcome) : FlashState :=
  if !s.apply.writeOk then s
  else
    let (w, update) := s.update.write data out
    if w ≠ data.length then { s with update, apply := { s.apply with writeOk := false } }
    else { s with update, apply := { s.apply with hashed := s.apply.hashed ++ data } }

/-- The check after the transfer. -/
def applyDownloaded (s : FlashState) (transportOk : Bool) (status : Int) : FlashState :=
  let written := s.apply.hashed.length
  if !transportOk || status ≠ 200 || !s.apply.writeOk || written == 0 ||
      (expectedSize > 0 && written < expectedSize) then
    { s with update := s.update.abort, apply := { s.apply with pc := .returned false } }
  else { s with apply := { s.apply with pc := .verifying } }

/-- The digest compare. -/
def applyVerify (s : FlashState) : FlashState :=
  if !otaShaMatches (computedHex (sha256 s.apply.hashed)) expectedSha256 then
    { s with update := s.update.abort, apply := { s.apply with pc := .returned false } }
  else { s with apply := { s.apply with pc := .ending } }

/-- The `Update.end(true)` of `applyUpdate`. -/
def applyEnd (s : FlashState) (out : EndOutcome) : FlashState :=
  let (ended, update) := s.update.finish out
  { s with update, apply := { s.apply with pc := .returned ended } }

/-- The marker after the auth check at chunk 0. -/
def uploadMarker (u : Upload) (c : UploadChunk) : Bool :=
  if u.body.length = 0 && c.checkAuth then c.alloc else u.marker

/-- The `Update.begin` and `Update.write` of one chunk. A `begin` that fails is only
logged, and the write goes to whichever session runs. -/
def uploadWrite (update : UpdateState) (id index : Nat) (c : UploadChunk) : UpdateState :=
  let begun := if index = 0 then (update.begin (.upload id) c.beginOk).2 else update
  if begun.isRunning then (begun.write c.data c.write).2 else begun

/-- The `Update` calls of the handler. -/
def uploadUpdate (update : UpdateState) (id index : Nat) (c : UploadChunk) : UpdateState :=
  let written := uploadWrite update id index c
  if c.final then (written.finish c.finish).2 else written

/-- The upload handler of `POST /ota`. No chunk follows a request's final one. -/
def uploadChunk (s : FlashState) (id : Nat) (c : UploadChunk) : FlashState :=
  let u := s.uploads id
  if u.finished then s
  else
    let marker := uploadMarker u c
    let u' : Upload := { marker, body := u.body ++ c.data, finished := c.final }
    { s with
      update := if marker then uploadUpdate s.update id u.body.length c else s.update
      uploads := Function.update s.uploads id u' }

/-- One atomic step of either task. An `applyUpdate` event at another point of its run
does nothing. -/
def flashStep (s : FlashState) : FlashEvent → FlashState
  | .applyBegin ok => if s.apply.pc = .idle then applyBegin s ok else s
  | .applyChunk data out => if s.apply.pc = .downloading then applyChunk s data out else s
  | .applyDownloaded transportOk status =>
      if s.apply.pc = .downloading then applyDownloaded expectedSize s transportOk status else s
  | .applyVerify => if s.apply.pc = .verifying then applyVerify sha256 expectedSha256 s else s
  | .applyEnd out => if s.apply.pc = .ending then applyEnd s out else s
  | .upload id c => uploadChunk s id c

/-- No session, no upload, and a boot slot nobody has set. -/
def FlashState.initial : FlashState where
  update := { session := none, boot := none }
  apply := { pc := .idle, hashed := [], writeOk := true }
  uploads _ := { marker := false, body := [], finished := false }

/-- The image is exactly one stream: the bytes `applyUpdate` hashed, whose digest is the
manifest's, or the body of one finished upload. -/
def SingleStream (s : FlashState) (image : List UInt8) : Prop :=
  (image = s.apply.hashed ∧ expectedSha256.length = OTA_SHA256_HEX_LEN ∧
      (computedHex (sha256 image)).map Char.toLower = expectedSha256.map Char.toLower) ∨
    ∃ id, (s.uploads id).marker = true ∧ (s.uploads id).finished = true ∧
      image = (s.uploads id).body

/-- An authorised chunk finds no session of another writer, and its write does not leave
a partial chunk in a session that goes on. -/
def OwnSession (s : FlashState) : FlashEvent → Prop
  | .upload id c =>
      uploadMarker (s.uploads id) c = true →
        (∀ who bytes, s.update.session = some (who, bytes) → who = .upload id) ∧
          ∀ n, c.write = .short n true → c.data.length ≤ n
  | _ => True

/-- The step leaves the boot slot alone or sets it to one single stream. -/
def BootsOneStream (s : FlashState) (e : FlashEvent) : Prop :=
  let t := flashStep sha256 expectedSha256 expectedSize s e
  t.update.boot = s.update.boot ∨
    ∃ image, t.update.boot = some image ∧ SingleStream sha256 expectedSha256 t image

/-! ## Every run of the two writers -/

/-- What holds between two steps. A session of an upload holds its body so far, unless a
second chunk 0 lost the marker. While `applyUpdate` still trusts its session, that session
is its own and holds exactly the bytes it hashed. -/
structure SessionInv (s : FlashState) : Prop where
  upload : ∀ id bytes, s.update.session = some (.upload id, bytes) →
    bytes <+: (s.uploads id).body ∧ ((s.uploads id).marker = true → bytes = (s.uploads id).body)
  applying : s.apply.pc = .downloading → s.apply.writeOk = true →
    s.update.session = some (.apply, s.apply.hashed)
  verifying : s.apply.pc = .verifying → s.update.session = some (.apply, s.apply.hashed)
  ending : s.apply.pc = .ending → s.update.session = some (.apply, s.apply.hashed) ∧
    otaShaMatches (computedHex (sha256 s.apply.hashed)) expectedSha256 = true

theorem initial_inv : SessionInv sha256 expectedSha256 FlashState.initial where
  upload := by simp [FlashState.initial]
  applying := by simp [FlashState.initial]
  verifying := by simp [FlashState.initial]
  ending := by simp [FlashState.initial]

variable {sha256 expectedSha256 expectedSize} {s : FlashState}

@[simp] theorem applyBegin_boot (ok : Bool) :
    (applyBegin s ok).update.boot = s.update.boot := by
  unfold applyBegin
  dsimp only
  split <;> simp

@[simp] theorem applyChunk_boot (data : List UInt8) (out : WriteOutcome) :
    (applyChunk s data out).update.boot = s.update.boot := by
  unfold applyChunk
  dsimp only
  repeat' split
  all_goals simp

@[simp] theorem applyDownloaded_boot (transportOk : Bool) (status : Int) :
    (applyDownloaded expectedSize s transportOk status).update.boot = s.update.boot := by
  unfold applyDownloaded
  dsimp only
  split <;> simp

@[simp] theorem applyVerify_boot :
    (applyVerify sha256 expectedSha256 s).update.boot = s.update.boot := by
  unfold applyVerify
  split <;> simp

@[simp] theorem uploadWrite_boot (update : UpdateState) (id index : Nat) (c : UploadChunk) :
    (uploadWrite update id index c).boot = update.boot := by
  unfold uploadWrite
  dsimp only
  repeat' split
  all_goals simp

section

variable {update : UpdateState} {id : Nat} {body : List UInt8} {c : UploadChunk}

/-- Before a possible `end`, the session is this upload's with one more chunk, or none. -/
theorem uploadWrite_session
    (own : ∀ who bytes, update.session = some (who, bytes) → who = .upload id ∧ bytes = body)
    (whole : ∀ n, c.write = .short n true → c.data.length ≤ n) :
    (uploadWrite update id body.length c).session = none ∨
      (uploadWrite update id body.length c).session = some (.upload id, body ++ c.data) := by
  have start : update.session = none ∨ update.session = some (.upload id, body) := by
    cases h : update.session with
    | none => exact .inl rfl
    | some running =>
        obtain ⟨who, bytes⟩ := own running.1 running.2 h
        exact .inr (by rw [← who, ← bytes])
  -- A `begin` that opens a session does so at index 0, where the body is empty.
  have begun : ∀ u, u = (if body.length = 0 then (update.begin (.upload id) c.beginOk).2
      else update) → u.session = none ∨ u.session = some (.upload id, body) := by
    rintro u rfl
    split
    · rename_i empty
      rcases UpdateState.begin_session update (.upload id) c.beginOk with same | ⟨_, opened⟩
      · exact same ▸ start
      · exact .inr (by simpa [List.length_eq_zero_iff.mp empty] using opened)
    · exact start
  simp only [uploadWrite]
  generalize hu : (if body.length = 0 then _ else update) = u
  rcases begun u hu.symm with stopped | running
  · simp [UpdateState.isRunning, stopped]
  · simpa [UpdateState.isRunning, running, or_comm] using
      UpdateState.write_session running whole

/-- The handler leaves the session of its own upload with one more chunk, or none. -/
theorem uploadUpdate_session
    (own : ∀ who bytes, update.session = some (who, bytes) → who = .upload id ∧ bytes = body)
    (whole : ∀ n, c.write = .short n true → c.data.length ≤ n) :
    (uploadUpdate update id body.length c).session = none ∨
      (uploadUpdate update id body.length c).session = some (.upload id, body ++ c.data) := by
  have written := uploadWrite_session own whole
  simp only [uploadUpdate]
  split
  · rcases UpdateState.finish_session (uploadWrite update id body.length c) c.finish with
      same | stopped
    · exact same ▸ written
    · exact .inl stopped
  · exact written

/-- The handler sets the boot slot only at the final chunk, to the whole body. -/
theorem uploadUpdate_boot
    (own : ∀ who bytes, update.session = some (who, bytes) → who = .upload id ∧ bytes = body)
    (whole : ∀ n, c.write = .short n true → c.data.length ≤ n) :
    (uploadUpdate update id body.length c).boot = update.boot ∨
      c.final = true ∧ (uploadUpdate update id body.length c).boot = some (body ++ c.data) := by
  have written := uploadWrite_session own whole
  simp only [uploadUpdate]
  split
  · rename_i final
    rcases UpdateState.finish_boot (uploadWrite update id body.length c) c.finish with
      same | ⟨who, bytes, running, set⟩
    · exact .inl (by simpa using same)
    · refine .inr ⟨final, set.trans ?_⟩
      rcases written with stopped | session
      · simp [stopped] at running
      · simp only [session, Option.some.injEq, Prod.mk.injEq] at running
        rw [running.2]
  · exact .inl (by simp)

end

/-- The session an admissible authorised chunk finds is its own upload's body so far. -/
theorem SessionInv.own (inv : SessionInv sha256 expectedSha256 s) {id : Nat} {c : UploadChunk}
    (marked : uploadMarker (s.uploads id) c = true)
    (mine : ∀ who bytes, s.update.session = some (who, bytes) → who = .upload id) :
    ∀ who bytes, s.update.session = some (who, bytes) →
      who = .upload id ∧ bytes = (s.uploads id).body := by
  intro who bytes running
  obtain rfl := mine who bytes running
  obtain ⟨front, same⟩ := inv.upload id bytes running
  refine ⟨rfl, ?_⟩
  cases marker : (s.uploads id).marker with
  | true => exact same marker
  | false =>
      -- A marker that is new belongs to chunk 0, where nothing was received yet.
      have empty : (s.uploads id).body = [] := by
        by_contra nonempty
        simp [uploadMarker, marker, nonempty] at marked
      simpa [empty] using front

/-- An admissible chunk keeps the invariant: while `applyUpdate` trusts its session, no
authorised chunk is admissible at all. -/
theorem uploadChunk_inv (inv : SessionInv sha256 expectedSha256 s) {id : Nat} {c : UploadChunk}
    (ok : OwnSession s (.upload id c)) :
    SessionInv sha256 expectedSha256 (uploadChunk s id c) := by
  unfold uploadChunk
  by_cases closed : (s.uploads id).finished = true
  · simpa [closed] using inv
  cases marked : uploadMarker (s.uploads id) c with
  | true =>
      obtain ⟨mine, whole⟩ := ok marked
      have foreign : ∀ bytes, s.update.session ≠ some (.apply, bytes) := fun bytes h =>
        Writer.noConfusion (mine .apply bytes h)
      simp only [closed, marked, if_true, Bool.false_eq_true, if_false]
      refine ⟨?_, fun pc trusted => absurd (inv.applying pc trusted) (foreign _),
        fun pc => absurd (inv.verifying pc) (foreign _),
        fun pc => absurd (inv.ending pc).1 (foreign _)⟩
      intro other bytes running
      rcases uploadUpdate_session (inv.own marked mine) whole with stopped | session
      · simp [stopped] at running
      · simp only [session, Option.some.injEq, Prod.mk.injEq, Writer.upload.injEq] at running
        obtain ⟨rfl, rfl⟩ := running
        simp
  | false =>
      simp only [closed, marked, Bool.false_eq_true, if_false]
      refine ⟨?_, inv.applying, inv.verifying, inv.ending⟩
      intro other bytes running
      obtain ⟨front, same⟩ := inv.upload other bytes running
      by_cases h : other = id
      · subst h
        simpa using front.trans (List.prefix_append _ _)
      · simpa [h] using ⟨front, same⟩

theorem applyBegin_inv (inv : SessionInv sha256 expectedSha256 s) (ok : Bool) :
    SessionInv sha256 expectedSha256 (applyBegin s ok) := by
  by_cases refused : (s.update.isRunning || !ok) = true
  · simp only [applyBegin, UpdateState.begin, refused, if_true, Bool.false_eq_true, if_false]
    exact ⟨inv.upload, by simp, by simp, by simp⟩
  · simp only [applyBegin, UpdateState.begin, refused, if_true, Bool.false_eq_true, if_false]
    exact ⟨by simp, by simp, by simp, by simp⟩

/-- The callback appends to its own session and to the hashed bytes alike, or stops. -/
theorem applyChunk_inv (inv : SessionInv sha256 expectedSha256 s)
    (pc : s.apply.pc = .downloading) (data : List UInt8) (out : WriteOutcome) :
    SessionInv sha256 expectedSha256 (applyChunk s data out) := by
  unfold applyChunk
  cases trusted : s.apply.writeOk with
  | false => simpa using inv
  | true =>
      have own := inv.applying pc trusted
      by_cases full : (s.update.write data out).1 = data.length
      · have session := UpdateState.write_full own full
        simp only [Bool.not_true, Bool.false_eq_true, if_false, ne_eq, full, not_true]
        exact ⟨by simp [session], by simp [session], by simp [pc], by simp [pc]⟩
      · simp only [Bool.not_true, Bool.false_eq_true, if_false, ne_eq, full, not_false_eq_true,
          if_true]
        refine ⟨?_, by simp, by simp [pc], by simp [pc]⟩
        intro id bytes running
        exact absurd (UpdateState.write_opener own running) Writer.noConfusion

theorem applyDownloaded_inv (inv : SessionInv sha256 expectedSha256 s)
    (pc : s.apply.pc = .downloading) (transportOk : Bool) (status : Int) :
    SessionInv sha256 expectedSha256 (applyDownloaded expectedSize s transportOk status) := by
  unfold applyDownloaded
  dsimp only
  split
  · exact ⟨by simp, by simp, by simp, by simp⟩
  · rename_i passed
    have trusted : s.apply.writeOk = true := by
      by_contra distrusted
      simp [distrusted] at passed
    exact ⟨inv.upload, by simp, fun _ => inv.applying pc trusted, by simp⟩

theorem applyVerify_inv (inv : SessionInv sha256 expectedSha256 s)
    (pc : s.apply.pc = .verifying) :
    SessionInv sha256 expectedSha256 (applyVerify sha256 expectedSha256 s) := by
  unfold applyVerify
  cases matched : otaShaMatches (computedHex (sha256 s.apply.hashed)) expectedSha256 with
  | false => exact ⟨by simp, by simp, by simp, by simp⟩
  | true => exact ⟨inv.upload, by simp, by simp, fun _ => ⟨inv.verifying pc, matched⟩⟩

theorem applyEnd_inv (inv : SessionInv sha256 expectedSha256 s)
    (out : EndOutcome) : SessionInv sha256 expectedSha256 (applyEnd s out) := by
  refine ⟨?_, by simp [applyEnd], by simp [applyEnd], by simp [applyEnd]⟩
  intro id bytes running
  rcases UpdateState.finish_session s.update out with same | stopped
  · exact inv.upload id bytes (same ▸ running)
  · simp [applyEnd, stopped] at running

/-- What one admissible step preserves. -/
theorem flashStep_inv (inv : SessionInv sha256 expectedSha256 s) (e : FlashEvent)
    (ok : OwnSession s e) :
    SessionInv sha256 expectedSha256 (flashStep sha256 expectedSha256 expectedSize s e) := by
  cases e with
  | applyBegin begun =>
      simp only [flashStep]
      split
      · exact applyBegin_inv inv begun
      · exact inv
  | applyChunk data out =>
      simp only [flashStep]
      split
      · exact applyChunk_inv inv ‹_› data out
      · exact inv
  | applyDownloaded transportOk status =>
      simp only [flashStep]
      split
      · exact applyDownloaded_inv inv ‹_› transportOk status
      · exact inv
  | applyVerify =>
      simp only [flashStep]
      split
      · exact applyVerify_inv inv ‹_›
      · exact inv
  | applyEnd out =>
      simp only [flashStep]
      split
      · exact applyEnd_inv inv out
      · exact inv
  | upload id c => exact uploadChunk_inv inv ok

/-- What one admissible step does to the boot slot. Only `applyEnd` and a final chunk
can set it. -/
theorem SessionInv.boots (inv : SessionInv sha256 expectedSha256 s) (e : FlashEvent)
    (ok : OwnSession s e) : BootsOneStream sha256 expectedSha256 expectedSize s e := by
  unfold BootsOneStream
  cases e with
  | applyBegin begun =>
      refine .inl ?_
      simp only [flashStep]
      split
      · exact applyBegin_boot begun
      · rfl
  | applyChunk data out =>
      refine .inl ?_
      simp only [flashStep]
      split
      · exact applyChunk_boot data out
      · rfl
  | applyDownloaded transportOk status =>
      refine .inl ?_
      simp only [flashStep]
      split
      · exact applyDownloaded_boot transportOk status
      · rfl
  | applyVerify =>
      refine .inl ?_
      simp only [flashStep]
      split
      · exact applyVerify_boot
      · rfl
  | applyEnd out =>
      simp only [flashStep]
      split
      · rename_i pc
        obtain ⟨session, matched⟩ := inv.ending pc
        rcases UpdateState.finish_boot s.update out with same | ⟨who, bytes, running, set⟩
        · exact .inl same
        · obtain ⟨rfl, rfl⟩ : Writer.apply = who ∧ s.apply.hashed = bytes := by
            simpa [session] using running
          exact .inr ⟨_, set, .inl ⟨rfl, otaShaMatches_iff.mp matched⟩⟩
      · exact .inl rfl
  | upload id c =>
      simp only [flashStep]
      by_cases closed : (s.uploads id).finished = true
      · exact .inl (by simp [uploadChunk, closed])
      cases marked : uploadMarker (s.uploads id) c with
      | false => exact .inl (by simp [uploadChunk, closed, marked])
      | true =>
          obtain ⟨mine, whole⟩ := ok marked
          rcases uploadUpdate_boot (inv.own marked mine) whole with same | ⟨final, set⟩
          · exact .inl (by simp [uploadChunk, closed, marked, same])
          · refine .inr ⟨(s.uploads id).body ++ c.data,
              by simp [uploadChunk, closed, marked, set], .inr ⟨id, ?_⟩⟩
            simp [uploadChunk, closed, marked, final]

/-- In every run whose authorised chunks find no session of another writer, each step
leaves the boot slot alone or sets it to exactly one stream. -/
theorem owned_runs_boot_one_stream {es : List FlashEvent} {e : FlashEvent}
    (owned : Machine.Meets (flashStep sha256 expectedSha256 expectedSize) OwnSession
      FlashState.initial (es ++ [e])) :
    BootsOneStream sha256 expectedSha256 expectedSize
      (Machine.run (flashStep sha256 expectedSha256 expectedSize) FlashState.initial es) e := by
  have step : ∀ s e, SessionInv sha256 expectedSha256 s → OwnSession s e →
      SessionInv sha256 expectedSha256 (flashStep sha256 expectedSha256 expectedSize s e) :=
    fun s e inv ok => flashStep_inv inv e ok
  obtain ⟨inv, ok⟩ := owned.last step (initial_inv sha256 expectedSha256)
  exact inv.boots e ok

end

/-- A whole upload of one chunk. -/
def wholeUpload (data : List UInt8) : UploadChunk where
  data := data
  final := true
  checkAuth := true
  alloc := true
  beginOk := true
  write := .full
  finish := .ok

/-- An upload after a failed transfer finds the session aborted and is booted whole. -/
theorem upload_after_abort_boots_one_stream :
    Machine.Meets (flashStep (fun _ => []) [] 0) OwnSession FlashState.initial
        ([.applyBegin true, .applyChunk [1] .full, .applyDownloaded false 0] ++
          [.upload 0 (wholeUpload [9])]) ∧
      BootsOneStream (fun _ => []) [] 0
        (Machine.run (flashStep (fun _ => []) [] 0) FlashState.initial
          [.applyBegin true, .applyChunk [1] .full, .applyDownloaded false 0])
        (.upload 0 (wholeUpload [9])) := by
  have owned : Machine.Meets (flashStep (fun _ => []) [] 0) OwnSession FlashState.initial
      ([.applyBegin true, .applyChunk [1] .full, .applyDownloaded false 0] ++
        [.upload 0 (wholeUpload [9])]) := by
    have aborted : (Machine.run (flashStep (fun _ => []) [] 0) FlashState.initial
        [.applyBegin true, .applyChunk [1] .full, .applyDownloaded false 0]).update.session =
        none := rfl
    refine ⟨trivial, trivial, trivial, fun _ => ⟨?_, ?_⟩, trivial⟩
    · intro who bytes running
      exact absurd (aborted.symm.trans running) (by simp)
    · intro n short
      exact absurd short (by simp [wholeUpload])
  exact ⟨owned, owned_runs_boot_one_stream owned⟩

/-- An upload that starts while `applyUpdate` downloads fails to begin, appends its chunk
to the session of `applyUpdate` and ends it: the boot slot gets bytes of both. -/
theorem upload_joins_apply_session :
    ¬ BootsOneStream (fun _ => []) [] 0
      (Machine.run (flashStep (fun _ => []) [] 0) FlashState.initial
        [.applyBegin true, .applyChunk [1] .full])
      (.upload 0 (wholeUpload [9])) := by
  intro h
  have boot : (flashStep (fun _ => []) [] 0
      (Machine.run (flashStep (fun _ => []) [] 0) FlashState.initial
        [.applyBegin true, .applyChunk [1] .full])
      (.upload 0 (wholeUpload [9]))).update.boot = some [1, 9] := rfl
  rcases h with same | ⟨image, set, single⟩
  · rw [boot] at same
    exact absurd same (by decide)
  · obtain rfl : [1, 9] = image := Option.some.inj (boot.symm.trans set)
    rcases single with ⟨hashed, _⟩ | ⟨id, marker, _, body⟩
    · exact absurd hashed (by decide)
    · by_cases h : id = 0
      · subst h
        exact absurd body (by decide)
      · simp [flashStep, uploadChunk, applyChunk, applyBegin, FlashState.initial,
          UpdateState.begin, UpdateState.write, UpdateState.isRunning, h] at marker

end Thesada.Ota
