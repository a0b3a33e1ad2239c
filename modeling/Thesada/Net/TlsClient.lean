import Mathlib.Data.List.Basic
import Mathlib.Tactic.Common
import Thesada.Library.Machine

/-!
# Reading from a TLS session

`TlsClient` keeps one byte ahead of its reader, so that `available` and `peek` can answer. The
byte is filled by three functions, handed out by `read`, and dropped when the session is closed.

`mbedtls_ssl_read` returns the bytes that it holds, as many as fit, and decrypts a record when it
holds none. What it finds then, what the transport has and how a write goes is part of a call.
-/

namespace Thesada.Net

open Machine

/-- What a read finds when no byte is left. -/
inductive Decrypts where
  | record (first : Nat) (rest : List Nat)
  | want
  | peerClosed
  | failed (rc : Int)

inductive SslRead where
  | bytes (bs : List Nat)
  | want
  | peerClosed
  | failed (rc : Int)

inductive SslWrite where
  | sent (n : Nat)
  | want (late : Bool)
  | failed (rc : Int)

structure ReadIo where
  transportAvailable : Int
  decrypts : Decrypts

def MBEDTLS_ERR_SSL_TIMEOUT : Int := -0x6800

structure TlsSession where
  connected : Bool
  peek : Option Nat
  lastError : Int
  /-- What mbedTLS decrypted and still holds. -/
  avail : List Nat
  /-- The stream so far. -/
  decrypted : List Nat
  /-- What the reads handed out. -/
  out : List Nat

namespace TlsSession

/-- A session that is open, with what came behind the handshake. -/
def opened (early : List Nat) : TlsSession where
  connected := true
  peek := none
  lastError := 0
  avail := early
  decrypted := early
  out := []

def markClosed (s : TlsSession) : TlsSession := { s with connected := false, peek := none }

/-- `mbedtls_ssl_read`. -/
def sslRead (s : TlsSession) (size : Nat) (d : Decrypts) : TlsSession × SslRead :=
  match s.avail with
  | b :: bs => ({ s with avail := (b :: bs).drop size }, .bytes ((b :: bs).take size))
  | [] =>
      match d with
      | .record first rest =>
          ({ s with
              avail := (first :: rest).drop size
              decrypted := s.decrypted ++ first :: rest }, .bytes ((first :: rest).take size))
      | .want => (s, .want)
      | .peerClosed => (s, .peerClosed)
      | .failed rc => (s, .failed rc)

/-- What follows a read without a byte. -/
def afterRead (s : TlsSession) : SslRead → TlsSession
  | .peerClosed => s.markClosed
  | .failed rc => { s.markClosed with lastError := rc }
  | _ => s

def fillPeek (s : TlsSession) (io : ReadIo) : TlsSession × Bool :=
  if s.peek.isSome then (s, true)
  else if io.transportAvailable ≤ 0 then (s, false)
  else
    match s.sslRead 1 io.decrypts with
    | (s, .bytes bs) => ({ s with peek := bs.head? }, true)
    | (s, r) => (s.afterRead r, false)

def available (s : TlsSession) (io : ReadIo) : TlsSession × Int :=
  if !s.connected then (s, 0)
  else if s.peek.isSome then (s, s.avail.length + 1)
  else if s.avail ≠ [] then (s, s.avail.length)
  else ((s.fillPeek io).1, if (s.fillPeek io).2 then 1 else 0)

/-- What a block read returns for the bytes it got. -/
def count (got : List Nat) : Int := if got = [] then -1 else got.length

/-- The bytes that a read hands out. -/
def handOut (s : TlsSession) (got : List Nat) : TlsSession := { s with out := s.out ++ got }

/-- The block read, with what it writes to the buffer. -/
def readBlock (s : TlsSession) (size : Nat) (io : ReadIo) : TlsSession × Int × List Nat :=
  if size = 0 then (s, 0, [])
  else
    let got := s.peek.toList
    let s := { s.handOut got with peek := none }
    if !s.connected ∨ got.length = size then (s, count got, got)
    else if s.avail = [] ∧ io.transportAvailable ≤ 0 then (s, count got, got)
    else
      match s.sslRead (size - got.length) io.decrypts with
      | (s, .bytes bs) => (s.handOut bs, ((got ++ bs).length : Nat), got ++ bs)
      | (s, r) => (s.afterRead r, count got, got)

def read (s : TlsSession) (io : ReadIo) : TlsSession × Int :=
  ((s.readBlock 1 io).1,
    if (s.readBlock 1 io).2.1 = 1 then ((s.readBlock 1 io).2.2.headD 0 : Nat) else -1)

/-- `peek` takes a byte that is held, or one that it can decrypt. -/
def peekFill (s : TlsSession) (io : ReadIo) : TlsSession :=
  if s.peek.isSome ∨ !s.connected then s
  else if s.avail ≠ [] then
    match s.sslRead 1 io.decrypts with
    | (s, .bytes bs) => { s with peek := bs.head? }
    | (s, _) => (s.fillPeek io).1
  else (s.fillPeek io).1

def peekByte (s : TlsSession) (io : ReadIo) : TlsSession × Int :=
  (s.peekFill io, (s.peekFill io).peek.elim (-1) fun b => (b : Nat))

def isConnected (s : TlsSession) (transport : Bool) : TlsSession × Bool :=
  if s.peek.isSome then (s, true)
  else if s.connected && !s.avail.isEmpty then (s, true)
  else if s.connected && !transport then (s.markClosed, false)
  else (s, s.connected)

/-- The loop of a write, with how often `mbedtls_ssl_write` is called. -/
def writeLoop (s : TlsSession) (size : Nat) : Nat → List SslWrite → TlsSession × Nat
  | done, [] => (s, done)
  | done, rc :: rcs =>
      if size ≤ done then (s, done)
      else
        match rc with
        | .sent n => writeLoop s size (done + n) rcs
        | .failed rc => ({ s.markClosed with lastError := rc }, done)
        | .want late =>
            if late then ({ s.markClosed with lastError := MBEDTLS_ERR_SSL_TIMEOUT }, done)
            else writeLoop s size done rcs

def write (s : TlsSession) (size : Nat) (rcs : List SslWrite) : TlsSession × Nat :=
  if !s.connected then (s, 0) else s.writeLoop size 0 rcs

end TlsSession

inductive TlsCall where
  | available (io : ReadIo)
  | peek (io : ReadIo)
  | read (io : ReadIo)
  | readBlock (size : Nat) (io : ReadIo)
  | write (size : Nat) (rcs : List SslWrite)
  | connected (transport : Bool)

def tlsStep (s : TlsSession) : TlsCall → TlsSession
  | .available io => (s.available io).1
  | .peek io => (s.peekByte io).1
  | .read io => (s.read io).1
  | .readBlock size io => (s.readBlock size io).1
  | .write size rcs => (s.write size rcs).1
  | .connected transport => (s.isConnected transport).1

/-- A call that hands out nothing. -/
def TlsCall.keeps : TlsCall → Bool
  | .read _ => false
  | .readBlock _ _ => false
  | _ => true

/-! ## The stream -/

/-- What was handed out is followed by the byte ahead, and that by what mbedTLS holds. -/
structure Streamed (s : TlsSession) : Prop where
  order : s.connected = true → s.decrypted = s.out ++ s.peek.toList ++ s.avail
  closed : s.connected = false → s.peek = none
  front : s.out <+: s.decrypted

namespace TlsSession

section

variable {size : Nat}

/-- A read takes the next bytes of the stream, one at least, or it leaves the session. -/
theorem sslRead_spec (s : TlsSession) (pos : 1 ≤ size) (d : Decrypts) :
    (∃ c bs rest more, s.sslRead size d =
        ({ s with avail := rest, decrypted := s.decrypted ++ more }, .bytes (c :: bs)) ∧
      s.avail ++ more = c :: bs ++ rest ∧ bs.length < size) ∨
    (s.avail = [] ∧ ∃ r, s.sslRead size d = (s, r) ∧ ∀ bs, r ≠ .bytes bs) := by
  obtain ⟨k, rfl⟩ : ∃ k, size = k + 1 := ⟨size - 1, by omega⟩
  rw [sslRead.eq_def]
  split
  · next c bs held =>
      refine .inl ⟨c, bs.take k, bs.drop k, [], ?_, ?_, ?_⟩
      · rw [List.append_nil, List.take_succ_cons, List.drop_succ_cons]
      · rw [held, List.append_nil, List.cons_append, List.take_append_drop]
      · exact Nat.lt_succ_of_le (List.length_take_le k bs)
  · next held =>
      split
      · next first rest =>
          refine .inl ⟨first, rest.take k, rest.drop k, first :: rest, ?_, ?_, ?_⟩
          · rw [List.take_succ_cons, List.drop_succ_cons]
          · rw [held, List.nil_append, List.cons_append, List.take_append_drop]
          · exact Nat.lt_succ_of_le (List.length_take_le k rest)
      · exact .inr ⟨held, _, rfl, fun _ same => nomatch same⟩
      · exact .inr ⟨held, _, rfl, fun _ same => nomatch same⟩
      · exact .inr ⟨held, _, rfl, fun _ same => nomatch same⟩

end

end TlsSession

section

variable {s : TlsSession} {size : Nat} {io : ReadIo} {b : Nat}

theorem Streamed.opened (early : List Nat) : Streamed (.opened early) where
  order := fun _ => rfl
  closed := fun closed => nomatch closed
  front := List.nil_prefix

theorem Streamed.markClosed (streamed : Streamed s) : Streamed s.markClosed where
  order := fun open_ => nomatch open_
  closed := fun _ => rfl
  front := streamed.front

theorem Streamed.withError (streamed : Streamed s) (rc : Int) :
    Streamed { s with lastError := rc } :=
  ⟨streamed.order, streamed.closed, streamed.front⟩

theorem Streamed.afterRead (streamed : Streamed s) (r : SslRead) : Streamed (s.afterRead r) := by
  cases r with
  | bytes => exact streamed
  | want => exact streamed
  | peerClosed => exact streamed.markClosed
  | failed rc => exact streamed.markClosed.withError rc

/-- What a read takes is handed out, or kept ahead. -/
theorem Streamed.took (streamed : Streamed s) (open_ : s.connected = true)
    {got rest more out : List Nat} {ahead : Option Nat}
    (split : s.avail ++ more = got ++ rest)
    (kept : s.out ++ s.peek.toList ++ got = out ++ ahead.toList) :
    Streamed { s with
      avail := rest, decrypted := s.decrypted ++ more, peek := ahead, out := out } := by
  have order : s.decrypted ++ more = out ++ ahead.toList ++ rest := by
    rw [streamed.order open_, List.append_assoc _ s.avail, split, ← List.append_assoc, kept]
  refine ⟨fun _ => order, fun closed => absurd (open_.symm.trans closed) (by decide), ?_⟩
  rw [order, List.append_assoc]
  exact List.prefix_append _ _

/-- A byte is taken ahead, or nothing is. -/
theorem fillPeek_cases (empty : s.peek = none) (io : ReadIo) :
    (∃ c rest more, s.fillPeek io =
        ({ s with avail := rest, decrypted := s.decrypted ++ more, peek := some c }, true) ∧
      s.avail ++ more = [c] ++ rest) ∨
    ∃ r, s.fillPeek io = (s.afterRead r, false) := by
  rw [TlsSession.fillPeek, empty, Option.isSome_none, if_neg Bool.false_ne_true]
  split
  · exact .inr ⟨.want, rfl⟩
  · obtain ⟨c, bs, rest, more, took, split, short⟩ | ⟨-, r, none, other⟩ :=
      s.sslRead_spec (Nat.le_refl 1) io.decrypts
    · have single : bs = [] := List.eq_nil_of_length_eq_zero (by omega)
      subst single
      rw [took]
      exact .inl ⟨c, rest, more, rfl, split⟩
    · rw [none]
      cases r with
      | bytes bs => exact absurd rfl (other bs)
      | want => exact .inr ⟨.want, rfl⟩
      | peerClosed => exact .inr ⟨.peerClosed, rfl⟩
      | failed rc => exact .inr ⟨.failed rc, rfl⟩

theorem Streamed.fillPeek (streamed : Streamed s) (open_ : s.connected = true)
    (empty : s.peek = none) (io : ReadIo) : Streamed (s.fillPeek io).1 := by
  obtain ⟨c, rest, more, filled, split⟩ | ⟨r, failed⟩ := fillPeek_cases empty io
  · rw [filled]
    refine streamed.took open_ split ?_
    rw [empty]
    simp
  · rw [failed]
    exact streamed.afterRead r

theorem Streamed.available (streamed : Streamed s) (io : ReadIo) :
    Streamed (s.available io).1 := by
  rw [TlsSession.available]
  split
  · exact streamed
  · next open_ =>
      split
      · exact streamed
      · next empty =>
          split
          · exact streamed
          · exact streamed.fillPeek (by simpa using open_) (by simpa using empty) io

theorem Streamed.peekFill (streamed : Streamed s) (io : ReadIo) : Streamed (s.peekFill io) := by
  rw [TlsSession.peekFill]
  split
  · exact streamed
  · next none =>
      obtain ⟨empty, open_⟩ := not_or.mp none
      have empty : s.peek = Option.none := by simpa using empty
      have open_ : s.connected = true := by simpa using open_
      split
      · next held =>
          obtain ⟨c, bs, rest, more, took, split, short⟩ | ⟨nothing, -⟩ :=
            s.sslRead_spec (Nat.le_refl 1) io.decrypts
          · have single : bs = [] := List.eq_nil_of_length_eq_zero (by omega)
            subst single
            rw [took]
            refine streamed.took open_ split ?_
            rw [empty]
            simp
          · exact absurd nothing held
      · exact streamed.fillPeek open_ empty io

theorem Streamed.isConnected (streamed : Streamed s) (transport : Bool) :
    Streamed (s.isConnected transport).1 := by
  rw [TlsSession.isConnected]
  split
  · exact streamed
  · split
    · exact streamed
    · split
      · exact streamed.markClosed
      · exact streamed

theorem writeLoop_cases (s : TlsSession) (size done : Nat) (rcs : List SslWrite) :
    (s.writeLoop size done rcs).1 = s ∨
      ∃ rc, (s.writeLoop size done rcs).1 = { s.markClosed with lastError := rc } := by
  induction rcs generalizing done with
  | nil => exact .inl rfl
  | cons rc rcs ih =>
      rw [TlsSession.writeLoop.eq_def]
      dsimp only
      split
      · exact .inl rfl
      · cases rc with
        | sent n => exact ih (done + n)
        | failed rc => exact .inr ⟨rc, rfl⟩
        | want late =>
            cases late with
            | true => exact .inr ⟨MBEDTLS_ERR_SSL_TIMEOUT, rfl⟩
            | false => exact ih done

/-- A write leaves the session, or it closes it. -/
theorem write_cases (s : TlsSession) (size : Nat) (rcs : List SslWrite) :
    (s.write size rcs).1 = s ∨
      ∃ rc, (s.write size rcs).1 = { s.markClosed with lastError := rc } := by
  rw [TlsSession.write]
  split
  · exact .inl rfl
  · exact writeLoop_cases s size 0 rcs

theorem Streamed.write (streamed : Streamed s) (size : Nat) (rcs : List SslWrite) :
    Streamed (s.write size rcs).1 := by
  rcases write_cases s size rcs with same | ⟨rc, closed⟩
  · rw [same]
    exact streamed
  · rw [closed]
    exact streamed.markClosed.withError rc

/-! ## Reads -/

/-- A session whose byte ahead is handed out. -/
def TlsSession.handAhead (s : TlsSession) : TlsSession :=
  { s.handOut s.peek.toList with peek := none }

theorem Streamed.handAhead (streamed : Streamed s) : Streamed s.handAhead := by
  by_cases open_ : s.connected = true
  · have kept := @Streamed.took s streamed open_ [] s.avail [] (s.out ++ s.peek.toList) none
      (List.append_nil s.avail) (by simp)
    rw [List.append_nil] at kept
    exact kept
  · have closed : s.connected = false := by simpa using open_
    have same : s.handAhead = s := by
      have none := streamed.closed closed
      cases s
      simp_all [TlsSession.handAhead, TlsSession.handOut]
    rw [same]
    exact streamed

/-- What a block read hands out: the byte ahead alone, or what is read behind it. -/
theorem readBlock_cases (s : TlsSession) (pos : 1 ≤ size) (io : ReadIo) :
    (s.readBlock size io = (s.handAhead, TlsSession.count s.peek.toList, s.peek.toList) ∧
      (s.connected = false ∨ s.peek.isSome = true ∨ s.avail = [])) ∨
    (s.connected = true ∧ ∃ c bs rest more, s.avail ++ more = c :: bs ++ rest ∧
      s.readBlock size io =
        ({ s.handAhead with
            avail := rest, decrypted := s.decrypted ++ more, out := s.handAhead.out ++ c :: bs },
          ((s.peek.toList ++ c :: bs).length : Int), s.peek.toList ++ c :: bs)) ∨
    (s.avail = [] ∧ ∃ r, s.readBlock size io =
      (s.handAhead.afterRead r, TlsSession.count s.peek.toList, s.peek.toList)) := by
  rw [TlsSession.readBlock, if_neg (by omega)]
  dsimp only
  split
  · next stops =>
      refine .inl ⟨rfl, ?_⟩
      rcases stops with closed | whole
      · exact .inl (by simpa [TlsSession.handOut] using closed)
      · cases ahead : s.peek with
        | none =>
            rw [ahead] at whole
            exact absurd whole (by simp; omega)
        | some b => exact .inr (.inl rfl)
  · next goes =>
      obtain ⟨open_, room⟩ := not_or.mp goes
      have open_ : s.connected = true := by simpa [TlsSession.handOut] using open_
      split
      · next nothing => exact .inl ⟨rfl, .inr (.inr nothing.1)⟩
      · have least : 1 ≤ size - s.peek.toList.length := by
          cases ahead : s.peek with
          | none => simpa using pos
          | some b =>
              rw [ahead] at room
              simp only [Option.toList_some, List.length_singleton] at room ⊢
              omega
        obtain ⟨c, bs, rest, more, took, split, short⟩ | ⟨nothing, r, none, other⟩ :=
          s.handAhead.sslRead_spec least io.decrypts
        · refine .inr (.inl ⟨open_, c, bs, rest, more, split, ?_⟩)
          rw [TlsSession.handAhead] at took
          rw [took]
          rfl
        · refine .inr (.inr ⟨nothing, r, ?_⟩)
          rw [TlsSession.handAhead] at none
          rw [none]
          cases r with
          | bytes bs => exact absurd rfl (other bs)
          | want => rfl
          | peerClosed => rfl
          | failed rc => rfl

theorem Streamed.readBlock (streamed : Streamed s) (size : Nat) (io : ReadIo) :
    Streamed (s.readBlock size io).1 := by
  by_cases pos : 1 ≤ size
  · obtain ⟨same, -⟩ | ⟨open_, c, bs, rest, more, split, same⟩ | ⟨-, r, same⟩ :=
      readBlock_cases s pos io
    · rw [same]
      exact streamed.handAhead
    · rw [same]
      exact streamed.handAhead.took open_ split (by simp [TlsSession.handAhead])
    · rw [same]
      exact streamed.handAhead.afterRead r
  · rw [TlsSession.readBlock, if_pos (by omega)]
    exact streamed

theorem Streamed.step (streamed : Streamed s) (call : TlsCall) : Streamed (tlsStep s call) := by
  cases call with
  | available io => exact streamed.available io
  | peek io => exact streamed.peekFill io
  | read io => exact streamed.readBlock 1 io
  | readBlock size io => exact streamed.readBlock size io
  | write size rcs => exact streamed.write size rcs
  | connected transport => exact streamed.isConnected transport

/-- A closed session stays closed. -/
theorem closed_step (streamed : Streamed s) (closed : s.connected = false) (call : TlsCall) :
    (tlsStep s call).connected = false := by
  have empty := streamed.closed closed
  cases call with
  | available io => simp [tlsStep, TlsSession.available, closed]
  | peek io => simp [tlsStep, TlsSession.peekByte, TlsSession.peekFill, closed]
  | read io =>
      simp [tlsStep, TlsSession.read, TlsSession.readBlock, TlsSession.handOut, closed]
  | readBlock size io =>
      rw [tlsStep, TlsSession.readBlock]
      split
      · exact closed
      · simp [TlsSession.handOut, closed]
  | write size rcs => simp [tlsStep, TlsSession.write, closed]
  | connected transport => simp [tlsStep, TlsSession.isConnected, closed, empty]

/-- Every call that hands out nothing leaves the byte ahead, or it closes the session. -/
theorem keeps_peek {call : TlsCall} (keeps : call.keeps = true) (ahead : s.peek = some b) :
    (tlsStep s call).peek = some b ∨ (tlsStep s call).connected = false := by
  cases call with
  | available io =>
      left
      rw [tlsStep, TlsSession.available, ahead]
      split
      · exact ahead
      · exact ahead
  | peek io =>
      left
      rw [tlsStep, TlsSession.peekByte, TlsSession.peekFill, ahead]
      exact ahead
  | read io => cases keeps
  | readBlock size io => cases keeps
  | write size rcs =>
      rcases write_cases s size rcs with same | ⟨rc, closed⟩
      · rw [tlsStep, same]
        exact .inl ahead
      · rw [tlsStep, closed]
        exact .inr rfl
  | connected transport =>
      left
      rw [tlsStep, TlsSession.isConnected, ahead]
      exact ahead

theorem keeps_peek_run {calls : List TlsCall} (keeps : ∀ call ∈ calls, call.keeps = true)
    (streamed : Streamed s) (ahead : s.peek = some b ∨ s.connected = false) :
    (run tlsStep s calls).peek = some b ∨ (run tlsStep s calls).connected = false := by
  induction calls generalizing s with
  | nil => exact ahead
  | cons call calls ih =>
      rw [run_cons]
      refine ih (fun c mem => keeps c (List.mem_cons_of_mem call mem)) (streamed.step call) ?_
      rcases ahead with ahead | closed
      · exact keeps_peek (keeps call List.mem_cons_self) ahead
      · exact .inr (closed_step streamed closed call)

/-- The byte ahead is the first that a read hands out. -/
theorem readBlock_ahead (ahead : s.peek = some b) (pos : 1 ≤ size) (io : ReadIo) :
    ∃ bs, (s.readBlock size io).2 = (((b :: bs).length : Int), b :: bs) := by
  obtain ⟨same, -⟩ | ⟨-, c, bs, rest, more, -, same⟩ | ⟨-, r, same⟩ := readBlock_cases s pos io
  · rw [same, ahead]
    exact ⟨[], rfl⟩
  · rw [same, ahead]
    exact ⟨c :: bs, rfl⟩
  · rw [same, ahead]
    exact ⟨[], rfl⟩

theorem read_ahead (ahead : s.peek = some b) (io : ReadIo) : (s.read io).2 = b := by
  have whole : (s.readBlock 1 io).2 = (1, [b]) := by
    rw [TlsSession.readBlock, if_neg (by decide), ahead]
    dsimp only
    rw [if_pos (.inr rfl)]
    rfl
  rw [TlsSession.read, whole]
  rfl

/-- What `available` counts is there for a read. -/
theorem available_read (io : ReadIo) (counted : 0 < (s.available io).2) (pos : 1 ≤ size)
    (io' : ReadIo) : 1 ≤ ((s.available io).1.readBlock size io').2.1 := by
  have first {t : TlsSession} {c : Nat} (ahead : t.peek = some c) :
      1 ≤ (t.readBlock size io').2.1 := by
    obtain ⟨bs, read⟩ := readBlock_ahead ahead pos io'
    rw [read]
    simp only [List.length_cons]
    omega
  rw [TlsSession.available] at counted ⊢
  split at counted
  · exact absurd counted (Int.lt_irrefl 0)
  · next open_ =>
      rw [if_neg open_]
      split at counted
      · next ahead =>
          rw [if_pos ahead]
          obtain ⟨c, ahead⟩ := Option.isSome_iff_exists.mp ahead
          exact first ahead
      · next empty =>
          rw [if_neg empty]
          split at counted
          · next held =>
              rw [if_pos held]
              obtain ⟨-, no⟩ | ⟨-, c, bs, rest, more, -, same⟩ | ⟨nothing, -⟩ :=
                readBlock_cases s pos io'
              · rcases no with closed | ahead | nothing
                · rw [closed] at open_
                  exact absurd rfl open_
                · exact absurd ahead empty
                · exact absurd nothing held
              · rw [same]
                simp only [List.length_append, List.length_cons]
                omega
              · exact absurd nothing held
          · next held =>
              rw [if_neg held]
              have none : s.peek = Option.none := by simpa using empty
              obtain ⟨c, rest, more, filled, -⟩ | ⟨r, failed⟩ := fillPeek_cases none io
              · rw [filled]
                exact first rfl
              · rw [failed] at counted
                exact absurd counted (Int.lt_irrefl 0)

end

def quiet : ReadIo := ⟨0, .want⟩

end Thesada.Net
