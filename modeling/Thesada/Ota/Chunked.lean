import Mathlib.Order.Basic
import Thesada.Library.Word32
import Thesada.Net.HttpUrl

/-!
# The chunked cellular download

`downloadBinaryChunkedCellular` asks for an image 256 KB at a time with ranged
requests. A request that ends early is asked again from the first byte the writer has
not taken, three tries for each chunk.

`Cellular::httpsGet` is the environment: one request has a status and hands the pieces
of a body to the callback in order, until the callback returns false. The writer is
the environment too, and answers from everything it was called with before. Both are
arbitrary functions, so a statement about them covers every behaviour of the link.
-/

namespace Thesada.Ota

open CString Net

/-- 256 KB per request. -/
@[irreducible] def CHUNK : Nat := 256 * 1024

def CHUNK_TRIES : Nat := 3

/-- The range of one request, both ends included. -/
structure RangeRequest where
  rangeStart : Nat
  rangeEnd : Nat
  deriving DecidableEq, Repr

/-- What the link made of one request. The status is 0 when no status line arrived. -/
structure Response where
  status : Int
  pieces : List (List UInt8)
  deriving DecidableEq, Repr

/-- The calls of `writeCallback` so far, each with its answer. -/
abbrev WriteCalls := List (List UInt8 × Bool)

/-- The bytes of the accepted calls, in order. -/
def accepted (calls : WriteCalls) : List UInt8 :=
  calls.flatMap fun call => if call.2 then call.1 else []

@[simp] theorem accepted_nil : accepted [] = [] := rfl

@[simp] theorem accepted_append (as bs : WriteCalls) :
    accepted (as ++ bs) = accepted as ++ accepted bs := by simp [accepted]

@[simp] theorem accepted_singleton (data : List UInt8) (ok : Bool) :
    accepted [(data, ok)] = if ok then data else [] := by simp [accepted]

/-- The captures of the `counting` callback. -/
structure Counting where
  got : Nat
  calls : WriteCalls

/-- The state across requests: the next byte to ask for, what `*totalOut` was last set
to, the writer's calls, and every request sent with its answer. -/
structure Download where
  offset : Nat
  total : Nat
  calls : WriteCalls
  log : List (RangeRequest × Response)

inductive Attempt where
  | done
  | failed
  | retry
  deriving DecidableEq, Repr

section

variable (server : Nat → Response) (writeCallback : WriteCalls → List UInt8 → Bool)

/-- A 206, or a 200 that is the whole image from byte 0. -/
def chunkStatus (status : Int) (whole : Bool) : Bool :=
  status == 206 || (status == 200 && whole)

/-- The tail of the `counting` callback, on the bytes that are in range. -/
def take (clipped : Bool) (t : Counting) (data : List UInt8) : Bool × Counting :=
  if data = [] then (!clipped, t)
  else if writeCallback t.calls data then
    (!clipped, { got := Word32.add t.got data.length, calls := t.calls ++ [(data, true)] })
  else (false, { t with calls := t.calls ++ [(data, false)] })

/-- The `counting` callback. Anything past `rangeEnd` is dropped. -/
def counting (status : Int) (whole : Bool) (offset rangeEnd : Nat) (t : Counting)
    (piece : List UInt8) : Bool × Counting :=
  if !chunkStatus status whole then (false, t)
  else
    let room := Word32.sub (Word32.add rangeEnd 1) (Word32.add offset t.got)
    if piece.length > room then take writeCallback true t (piece.take room)
    else take writeCallback false t piece

/-- `Cellular::httpsGet`: the pieces in order, until the callback returns false. -/
def httpsGet (callback : Counting → List UInt8 → Bool × Counting) :
    List (List UInt8) → Counting → Counting
  | [], t => t
  | piece :: pieces, t =>
    let (go, t) := callback t piece
    if go then httpsGet callback pieces t else t

/-- The request for the whole image. -/
def isWhole (expectedSize offset rangeEnd : Nat) : Bool :=
  offset == 0 && rangeEnd == expectedSize - 1

/-- The state after one request. -/
def request (expectedSize rangeEnd : Nat) (s : Download) : Download :=
  let response := server s.log.length
  let whole := isWhole expectedSize s.offset rangeEnd
  let t := httpsGet (counting writeCallback response.status whole s.offset rangeEnd)
    response.pieces { got := 0, calls := s.calls }
  { s with
    offset := Word32.add s.offset t.got
    calls := t.calls
    log := s.log ++ [({ rangeStart := s.offset, rangeEnd }, response)] }

/-- One pass of the retry loop. -/
def attempt (expectedSize rangeEnd : Nat) (s : Download) : Attempt × Download :=
  let status := (server s.log.length).status
  let next := request server writeCallback expectedSize rangeEnd s
  if next.offset > rangeEnd then (.done, next)
  else if status ≠ 0 ∧ !chunkStatus status (isWhole expectedSize s.offset rangeEnd) then
    (.failed, next)
  else (.retry, next)

/-- The tries of one chunk. -/
def attempts (expectedSize rangeEnd : Nat) : Nat → Download → Bool × Download
  | 0, s => (false, s)
  | tries + 1, s =>
    match attempt server writeCallback expectedSize rangeEnd s with
    | (.done, next) => (true, next)
    | (.failed, next) => (false, next)
    | (.retry, next) => attempts expectedSize rangeEnd tries next

/-- The last byte of the chunk that starts at `offset`. -/
def chunkEnd (expectedSize offset : Nat) : Nat :=
  min (Word32.sub (Word32.add offset CHUNK) 1) (expectedSize - 1)

/-- One pass of the chunk loop: whether the chunk is done. -/
def chunk (expectedSize : Nat) (s : Download) : Bool × Download :=
  let rangeEnd := chunkEnd expectedSize s.offset
  let r := attempts server writeCallback expectedSize rangeEnd CHUNK_TRIES s
  let offset := Word32.add rangeEnd 1
  if r.1 then (true, { r.2 with offset, total := offset }) else (false, r.2)

/-- The chunk loop; `none` when the fuel runs out. -/
def chunks (expectedSize : Nat) : Nat → Download → Option (Bool × Download)
  | 0, s => if s.offset < expectedSize then none else some (true, s)
  | fuel + 1, s =>
    if s.offset < expectedSize then
      let r := chunk server writeCallback expectedSize s
      if r.1 then chunks expectedSize fuel r.2 else some r
    else some (true, s)

/-- The number of chunks of an image. -/
def chunkCount (expectedSize : Nat) : Nat := (expectedSize + CHUNK - 1) / CHUNK

/-- `downloadBinaryChunkedCellular`. -/
def downloadBinaryChunkedCellular (url : Str) (expectedSize : Nat) :
    Option (Bool × Download) :=
  let start : Download := { offset := 0, total := 0, calls := [], log := [] }
  if expectedSize = 0 then some (false, start)
  else
    match httpUrlSplit url 128 with
    | none => some (false, start)
    | some _ => chunks server writeCallback expectedSize (chunkCount expectedSize) start

/-! ## What one request adds -/

/-- The answered request has byte `k` of the image in its range, and `b` at its place. -/
def Serves (expectedSize : Nat) (entry : RangeRequest × Response) (k : Nat) (b : UInt8) :
    Prop :=
  entry.1.rangeStart ≤ k ∧ k ≤ entry.1.rangeEnd ∧
    (entry.2.status = 206 ∨
      entry.2.status = 200 ∧ entry.1 = { rangeStart := 0, rangeEnd := expectedSize - 1 }) ∧
    entry.2.pieces.flatten[k - entry.1.rangeStart]? = some b

/-- Every byte comes from a request that serves it. -/
def Sourced (expectedSize : Nat) (log : List (RangeRequest × Response))
    (bytes : List UInt8) : Prop :=
  ∀ k b, bytes[k]? = some b → ∃ entry ∈ log, Serves expectedSize entry k b

/-- A transfer callback took a prefix of what was handed, within its range. -/
structure Takes (status : Int) (whole : Bool) (offset rangeEnd : Nat) (handed : List UInt8)
    (t t' : Counting) (taken : List UInt8) : Prop where
  got : t'.got = t.got + taken.length
  calls : accepted t'.calls = accepted t.calls ++ taken
  front : taken <+: handed
  room : offset + t'.got ≤ rangeEnd + 1
  status : taken ≠ [] → chunkStatus status whole = true

variable {server : Nat → Response} {writeCallback : WriteCalls → List UInt8 → Bool}
  {status : Int} {whole : Bool} {offset rangeEnd expectedSize : Nat}

theorem Takes.nothing {t : Counting} (handed : List UInt8)
    (room : offset + t.got ≤ rangeEnd + 1) :
    Takes status whole offset rangeEnd handed t t [] :=
  ⟨rfl, by simp, List.nil_prefix, room, by simp⟩

theorem take_takes (writeCallback : WriteCalls → List UInt8 → Bool) (clipped : Bool) {t : Counting} {data handed : List UInt8}
    (front : data <+: handed) (room : offset + (t.got + data.length) ≤ rangeEnd + 1)
    (fits : rangeEnd + 1 < Word32.size) (served : chunkStatus status whole = true) :
    ∃ taken, Takes status whole offset rangeEnd handed t (take writeCallback clipped t data).2 taken ∧
      ((take writeCallback clipped t data).1 = true → clipped = false ∧ taken = data) := by
  unfold take
  by_cases empty : data = []
  · subst empty
    exact ⟨[], .nothing handed (by simpa using room), by simp⟩
  rw [if_neg empty]
  cases writeCallback t.calls data with
  | false => exact ⟨[], ⟨rfl, by simp, List.nil_prefix, by dsimp; omega, by simp⟩, by simp⟩
  | true =>
      have got : Word32.add t.got data.length = t.got + data.length :=
        Word32.add_of_lt (by omega)
      exact ⟨data, ⟨got, by simp, front, by simpa only [if_true, got], fun _ => served⟩,
        by simp⟩

/-- One call of the callback. When it asks for more it has taken the whole piece. -/
theorem counting_takes (writeCallback : WriteCalls → List UInt8 → Bool) (status : Int)
    (whole : Bool) (fits : rangeEnd + 1 < Word32.size) {t : Counting}
    (room : offset + t.got ≤ rangeEnd + 1) (piece : List UInt8) :
    ∃ taken, Takes status whole offset rangeEnd piece t
        (counting writeCallback status whole offset rangeEnd t piece).2 taken ∧
      ((counting writeCallback status whole offset rangeEnd t piece).1 = true →
        taken = piece) := by
  unfold counting
  cases served : chunkStatus status whole with
  | false => exact ⟨[], .nothing piece room, by simp⟩
  | true =>
      have left : Word32.sub (Word32.add rangeEnd 1) (Word32.add offset t.got) =
          rangeEnd + 1 - (offset + t.got) := by
        rw [Word32.add_of_lt fits, Word32.add_of_lt (by omega), Word32.sub_of_le room fits]
      simp only [Bool.not_true, Bool.false_eq_true, if_false, left]
      split
      · have cut : offset + (t.got + (piece.take (rangeEnd + 1 - (offset + t.got))).length) ≤
            rangeEnd + 1 := by rw [List.length_take]; omega
        obtain ⟨taken, takes, go⟩ :=
          take_takes writeCallback true (List.take_prefix _ piece) cut fits served
        exact ⟨taken, takes, fun h => absurd (go h).1 (by simp)⟩
      · have uncut : offset + (t.got + piece.length) ≤ rangeEnd + 1 := by omega
        obtain ⟨taken, takes, go⟩ :=
          take_takes writeCallback false (List.prefix_refl piece) uncut fits served
        exact ⟨taken, takes, fun h => (go h).2⟩

/-- One request: what is taken is a prefix of its body. -/
theorem httpsGet_takes (writeCallback : WriteCalls → List UInt8 → Bool) (status : Int)
    (whole : Bool) (fits : rangeEnd + 1 < Word32.size) (pieces : List (List UInt8))
    (t : Counting) (room : offset + t.got ≤ rangeEnd + 1) :
    ∃ taken, Takes status whole offset rangeEnd pieces.flatten t
      (httpsGet (counting writeCallback status whole offset rangeEnd) pieces t) taken := by
  induction pieces generalizing t with
  | nil => exact ⟨[], .nothing _ room⟩
  | cons piece pieces ih =>
      obtain ⟨taken, first, go⟩ := counting_takes writeCallback status whole fits room piece
      simp only [httpsGet, List.flatten_cons]
      split
      · rename_i more
        obtain rfl := go more
        obtain ⟨rest, last⟩ := ih _ first.room
        refine ⟨taken ++ rest, ?_, ?_, ?_, last.room, ?_⟩
        · rw [last.got, first.got, List.length_append, Nat.add_assoc]
        · rw [last.calls, first.calls, List.append_assoc]
        · exact (List.prefix_append_right_inj taken).mpr last.front
        · intro nonempty
          by_cases h : taken = []
          · exact last.status (by simpa [h] using nonempty)
          · exact first.status h
      · exact ⟨taken, first.got, first.calls, first.front.trans (List.prefix_append _ _),
          first.room, first.status⟩

/-! ## What a chunk and the whole download add -/

theorem Sourced.grow {log more : List (RangeRequest × Response)} {bytes : List UInt8}
    (h : Sourced expectedSize log bytes) : Sourced expectedSize (log ++ more) bytes := by
  intro k b hk
  obtain ⟨entry, member, serves⟩ := h k b hk
  exact ⟨entry, List.mem_append_left _ member, serves⟩

theorem Sourced.append {log more : List (RangeRequest × Response)} {bytes taken : List UInt8}
    (h : Sourced expectedSize log bytes)
    (added : ∀ i b, taken[i]? = some b →
      ∃ entry ∈ more, Serves expectedSize entry (bytes.length + i) b) :
    Sourced expectedSize (log ++ more) (bytes ++ taken) := by
  intro k b hk
  by_cases old : k < bytes.length
  · rw [List.getElem?_append_left old] at hk
    exact h.grow k b hk
  · rw [List.getElem?_append_right (Nat.not_lt.mp old)] at hk
    obtain ⟨entry, member, serves⟩ := added _ b hk
    rw [Nat.add_sub_cancel' (Nat.not_lt.mp old)] at serves
    exact ⟨entry, List.mem_append_right _ member, serves⟩

theorem served_of_chunkStatus (h : chunkStatus status (isWhole expectedSize offset rangeEnd)) :
    status = 206 ∨ status = 200 ∧
      (⟨offset, rangeEnd⟩ : RangeRequest) = { rangeStart := 0, rangeEnd := expectedSize - 1 } := by
  simpa [chunkStatus, isWhole] using h

/-- The accepted bytes reach to the offset, and a logged request serves each. -/
structure DownloadInv (expectedSize : Nat) (s : Download) : Prop where
  length : (accepted s.calls).length = s.offset
  sourced : Sourced expectedSize s.log (accepted s.calls)

/-- The requests added to a log are all for the rest of one chunk. -/
def ChunkRequests (first rangeEnd : Nat) (entries : List (RangeRequest × Response)) : Prop :=
  ∀ entry ∈ entries, first ≤ entry.1.rangeStart ∧ entry.1.rangeStart ≤ rangeEnd ∧
    entry.1.rangeEnd = rangeEnd

section

variable (server : Nat → Response) (writeCallback : WriteCalls → List UInt8 → Bool)
  {s : Download}

/-- One request keeps the invariant and stays in its chunk. -/
theorem request_inv (inv : DownloadInv expectedSize s) (below : s.offset ≤ rangeEnd)
    (fits : rangeEnd + 1 < Word32.size) :
    DownloadInv expectedSize (request server writeCallback expectedSize rangeEnd s) ∧
      (request server writeCallback expectedSize rangeEnd s).offset ≤ rangeEnd + 1 ∧
      s.offset ≤ (request server writeCallback expectedSize rangeEnd s).offset := by
  obtain ⟨taken, takes⟩ := httpsGet_takes writeCallback (server s.log.length).status
    (isWhole expectedSize s.offset rangeEnd) fits (server s.log.length).pieces
    ⟨0, s.calls⟩ (Nat.le_succ_of_le below)
  simp only [request]
  generalize httpsGet _ _ _ = t at takes ⊢
  have got : t.got = taken.length := by simpa using takes.got
  have room : s.offset + taken.length ≤ rangeEnd + 1 := got ▸ takes.room
  rw [got, Word32.add_of_lt (by omega)]
  refine ⟨⟨?_, ?_⟩, room, Nat.le_add_right _ _⟩
  · rw [takes.calls, List.length_append, inv.length]
  · rw [takes.calls]
    refine inv.sourced.append ?_
    intro i b hi
    have bound : i < taken.length := (List.getElem?_eq_some_iff.mp hi).1
    refine ⟨_, List.mem_singleton_self _, ?_, ?_, ?_, ?_⟩
    · simp [inv.length]
    · change (accepted s.calls).length + i ≤ rangeEnd
      rw [inv.length]
      omega
    · exact served_of_chunkStatus (takes.status (List.ne_nil_of_length_pos (by omega)))
    · rw [inv.length, Nat.add_sub_cancel_left]
      rw [List.prefix_iff_getElem?.mp takes.front i bound, ← hi, List.getElem?_eq_getElem bound]

/-- An attempt is one request, done when it passed the chunk's end. -/
theorem attempt_cases (expectedSize rangeEnd : Nat) (s : Download) :
    (attempt server writeCallback expectedSize rangeEnd s).2 =
        request server writeCallback expectedSize rangeEnd s ∧
      ((attempt server writeCallback expectedSize rangeEnd s).1 = .done →
        rangeEnd < (request server writeCallback expectedSize rangeEnd s).offset) ∧
      ((attempt server writeCallback expectedSize rangeEnd s).1 = .retry →
        (request server writeCallback expectedSize rangeEnd s).offset ≤ rangeEnd) := by
  unfold attempt
  dsimp only
  split
  · rename_i passed
    exact ⟨rfl, fun _ => passed, by simp⟩
  · rename_i inside
    split
    · exact ⟨rfl, by simp, by simp⟩
    · exact ⟨rfl, by simp, fun _ => Nat.not_lt.mp inside⟩

/-- The tries of one chunk end with the chunk complete or the download given up, after
at most that many requests for its rest. -/
theorem attempts_spec {first : Nat} (tries : Nat) (inv : DownloadInv expectedSize s)
    (start : first ≤ s.offset) (below : s.offset ≤ rangeEnd)
    (fits : rangeEnd + 1 < Word32.size) :
    ∃ entries, entries.length ≤ tries ∧ ChunkRequests first rangeEnd entries ∧
      (attempts server writeCallback expectedSize rangeEnd tries s).2.log = s.log ++ entries ∧
      DownloadInv expectedSize (attempts server writeCallback expectedSize rangeEnd tries s).2 ∧
      ((attempts server writeCallback expectedSize rangeEnd tries s).1 = true →
        (attempts server writeCallback expectedSize rangeEnd tries s).2.offset =
          rangeEnd + 1) := by
  induction tries generalizing s with
  | zero => exact ⟨[], le_refl _, by simp [ChunkRequests], by simp [attempts], inv, by simp [attempts]⟩
  | succ tries ih =>
      obtain ⟨kept, upper, lower⟩ := request_inv server writeCallback inv below fits
      have log : (request server writeCallback expectedSize rangeEnd s).log =
          s.log ++ [(⟨s.offset, rangeEnd⟩, server s.log.length)] := rfl
      have mine : ChunkRequests first rangeEnd
          [(⟨s.offset, rangeEnd⟩, server s.log.length)] := by
        simpa [ChunkRequests] using ⟨start, below⟩
      obtain ⟨state, done, again⟩ := attempt_cases server writeCallback expectedSize rangeEnd s
      simp only [attempts]
      rcases outcome : attempt server writeCallback expectedSize rangeEnd s with ⟨verdict, next⟩
      simp only [outcome] at state done again
      subst state
      cases verdict with
      | done =>
          exact ⟨[_], by simp, mine, log, kept, fun _ => by have := done rfl; dsimp; omega⟩
      | failed => exact ⟨[_], by simp, mine, log, kept, by simp⟩
      | retry =>
          obtain ⟨entries, count, rest, grown, after, complete⟩ :=
            ih kept (Nat.le_trans start lower) (again rfl)
          refine ⟨(⟨s.offset, rangeEnd⟩, server s.log.length) :: entries,
            Nat.succ_le_succ count, ?_, ?_, after, complete⟩
          · exact List.forall_mem_cons.mpr ⟨mine _ (List.mem_singleton_self _), rest⟩
          · rw [grown, log, List.append_assoc, List.singleton_append]

/-- What the log holds once chunk `j` is next: whole chunks only, in range, and at most
three requests for each. -/
structure LogInv (expectedSize j : Nat) (log : List (RangeRequest × Response)) : Prop where
  ranges : ∀ entry ∈ log, entry.1.rangeStart ≤ entry.1.rangeEnd ∧
    entry.1.rangeEnd < expectedSize ∧
    entry.1.rangeStart / CHUNK = entry.1.rangeEnd / CHUNK ∧ entry.1.rangeEnd / CHUNK < j
  perChunk : ∀ i, log.countP (fun entry => entry.1.rangeEnd / CHUNK = i) ≤ CHUNK_TRIES
  total : log.length ≤ CHUNK_TRIES * j

theorem LogInv.start : LogInv expectedSize 0 [] := ⟨by simp, by simp, by simp⟩

theorem LogInv.mono {j j' : Nat} {log : List (RangeRequest × Response)}
    (inv : LogInv expectedSize j log) (le : j ≤ j') : LogInv expectedSize j' log where
  ranges entry member := by
    obtain ⟨order, inside, same, before⟩ := inv.ranges entry member
    exact ⟨order, inside, same, before.trans_le le⟩
  perChunk := inv.perChunk
  total := inv.total.trans (Nat.mul_le_mul_left _ le)

/-- The requests of chunk `j` join the log. -/
theorem LogInv.chunk {j : Nat} {log entries : List (RangeRequest × Response)}
    (inv : LogInv expectedSize j log) (inside : rangeEnd < expectedSize)
    (index : ∀ k, CHUNK * j ≤ k → k ≤ rangeEnd → k / CHUNK = j)
    (mine : ChunkRequests (CHUNK * j) rangeEnd entries)
    (count : entries.length ≤ CHUNK_TRIES) : LogInv expectedSize (j + 1) (log ++ entries) where
  ranges entry member := by
    rcases List.mem_append.mp member with old | new
    · exact (inv.mono (Nat.le_succ j)).ranges entry old
    · obtain ⟨lower, upper, same⟩ := mine entry new
      rw [same, index _ lower upper, index rangeEnd (lower.trans upper) le_rfl]
      exact ⟨upper, inside, rfl, Nat.lt_succ_self j⟩
  perChunk i := by
    rw [List.countP_append]
    by_cases h : i = j
    · -- No older request is for this chunk.
      have none : log.countP (fun entry => entry.1.rangeEnd / CHUNK = i) = 0 := by
        rw [List.countP_eq_zero]
        intro entry member
        have := (inv.ranges entry member).2.2.2
        simp only [decide_eq_true_eq]
        omega
      have := List.countP_le_length (l := entries)
        (p := fun entry => entry.1.rangeEnd / CHUNK = i)
      omega
    · have none : entries.countP (fun entry => entry.1.rangeEnd / CHUNK = i) = 0 := by
        rw [List.countP_eq_zero]
        intro entry member
        obtain ⟨lower, upper, same⟩ := mine entry member
        simp only [decide_eq_true_eq, same, index rangeEnd (lower.trans upper) le_rfl]
        exact fun same => h same.symm
      rw [none, Nat.add_zero]
      exact inv.perChunk i
  total := by
    have := inv.total
    rw [List.length_append, Nat.mul_succ]
    omega

/-- The end of a chunk that starts inside the image is at most `2 ^ 32`. -/
theorem chunk_fits {j : Nat} (more : CHUNK * j < expectedSize) (fits : expectedSize < Word32.size) :
    CHUNK * j + CHUNK ≤ Word32.size := by
  unfold CHUNK Word32.size at *
  omega

theorem chunk_index {j k : Nat} (lower : CHUNK * j ≤ k) (upper : k ≤ CHUNK * j + CHUNK - 1) :
    k / CHUNK = j := by
  unfold CHUNK at *
  omega

/-- The last byte of chunk `j` is in the image, and the next chunk starts after it. -/
theorem chunk_bounds {j : Nat} (last : rangeEnd = min (CHUNK * j + CHUNK - 1) (expectedSize - 1))
    (more : CHUNK * j < expectedSize) :
    CHUNK * j ≤ rangeEnd ∧ rangeEnd < expectedSize ∧
      rangeEnd + 1 = min (CHUNK * (j + 1)) expectedSize := by
  unfold CHUNK at *
  omega

/-- One chunk keeps both invariants and ends, when done, at the start of the next. -/
theorem chunk_spec {j : Nat} (fits : expectedSize < Word32.size)
    (inv : DownloadInv expectedSize s) (logged : LogInv expectedSize j s.log)
    (first : s.offset = CHUNK * j) (more : s.offset < expectedSize) :
    DownloadInv expectedSize (chunk server writeCallback expectedSize s).2 ∧
      LogInv expectedSize (j + 1) (chunk server writeCallback expectedSize s).2.log ∧
      ((chunk server writeCallback expectedSize s).1 = true →
        (chunk server writeCallback expectedSize s).2.offset =
          min (CHUNK * (j + 1)) expectedSize) := by
  have last : chunkEnd expectedSize s.offset =
      min (CHUNK * j + CHUNK - 1) (expectedSize - 1) := by
    rw [chunkEnd, first, Word32.sub_one_of_le (by unfold CHUNK; omega)
      (chunk_fits (by omega) fits)]
  simp only [chunk]
  generalize chunkEnd expectedSize s.offset = rangeEnd at last ⊢
  obtain ⟨below, inside, start⟩ := chunk_bounds last (first ▸ more)
  rw [← first] at below
  have next : Word32.add rangeEnd 1 = rangeEnd + 1 := Word32.add_of_lt (by omega)
  obtain ⟨entries, count, mine, grown, kept, done⟩ :=
    attempts_spec server writeCallback CHUNK_TRIES inv (le_of_eq first.symm) below (by omega)
  have logged' := logged.chunk inside (fun k lower upper => chunk_index lower (by omega))
    mine count
  generalize attempts server writeCallback expectedSize rangeEnd CHUNK_TRIES s = r
    at grown kept done ⊢
  obtain ⟨ok, after⟩ := r
  cases ok with
  | false => exact ⟨kept, grown ▸ logged', fun h => by simp at h⟩
  | true =>
      have ended : after.offset = rangeEnd + 1 := done rfl
      simp only [if_true, next]
      exact ⟨⟨kept.length.trans ended, kept.sourced⟩, grown ▸ logged', fun _ => start⟩

/-- The chunk loop from chunk `j` on: it ends, keeps both invariants, and succeeds only
at the end of the image. -/
theorem chunks_spec {j : Nat} (fuel : Nat) (fits : expectedSize < Word32.size)
    (inv : DownloadInv expectedSize s) (logged : LogInv expectedSize j s.log)
    (at_chunk : s.offset = min (CHUNK * j) expectedSize)
    (enough : expectedSize ≤ CHUNK * (j + fuel)) :
    ∃ ok final, chunks server writeCallback expectedSize fuel s = some (ok, final) ∧
      DownloadInv expectedSize final ∧ LogInv expectedSize (j + fuel) final.log ∧
      (ok = true → final.offset = expectedSize) := by
  induction fuel generalizing s j with
  | zero =>
      have ended : ¬ s.offset < expectedSize := by rw [Nat.add_zero] at enough; omega
      exact ⟨true, s, by rw [chunks, if_neg ended], inv, logged, fun _ => by omega⟩
  | succ fuel ih =>
      by_cases more : s.offset < expectedSize
      · obtain ⟨kept, logged', done⟩ :=
          chunk_spec server writeCallback fits inv logged (by omega) more
        simp only [chunks, more, if_true]
        generalize chunk server writeCallback expectedSize s = r at kept logged' done ⊢
        obtain ⟨ok, next⟩ := r
        cases ok with
        | false => exact ⟨false, next, rfl, kept, logged'.mono (by omega), fun h => by simp at h⟩
        | true =>
            have index : j + (fuel + 1) = j + 1 + fuel := by omega
            rw [index] at enough ⊢
            exact ih kept logged' (done rfl) enough
      · exact ⟨true, s, by rw [chunks, if_neg more], inv, logged.mono (by omega),
          fun _ => by omega⟩

end

end

/-! ## The whole download -/

/-- What a finished download says about its requests and its writer. -/
structure DownloadExact (expectedSize : Nat) (ok : Bool) (final : Download) : Prop where
  /-- Every request is for the rest of one chunk inside the image. -/
  ranges : ∀ entry ∈ final.log, entry.1.rangeStart ≤ entry.1.rangeEnd ∧
    entry.1.rangeEnd < expectedSize ∧ entry.1.rangeStart / CHUNK = entry.1.rangeEnd / CHUNK
  perChunk : ∀ i, final.log.countP (fun entry => entry.1.rangeEnd / CHUNK = i) ≤ 3
  total : final.log.length ≤ 3 * chunkCount expectedSize
  /-- On success byte `k` of the accepted ones is byte `k` of a request that serves it. -/
  bytes : ok = true → (accepted final.calls).length = expectedSize ∧
    ∀ k b, (accepted final.calls)[k]? = some b → ∃ entry ∈ final.log,
      Serves expectedSize entry k b

/-- For every link and every writer the download ends, with at most three requests for
each chunk, and it succeeds only with exactly the image's bytes accepted in order. -/
theorem chunked_download_exact (server : Nat → Response)
    (writeCallback : WriteCalls → List UInt8 → Bool) (url : Str) (expectedSize : UInt32) :
    ∃ ok final, downloadBinaryChunkedCellular server writeCallback url expectedSize.toNat =
        some (ok, final) ∧ DownloadExact expectedSize.toNat ok final := by
  have refused : DownloadExact expectedSize.toNat false ⟨0, 0, [], []⟩ :=
    ⟨by simp, by simp, by simp, by simp⟩
  unfold downloadBinaryChunkedCellular
  dsimp only
  split
  · exact ⟨false, _, rfl, refused⟩
  split
  · exact ⟨false, _, rfl, refused⟩
  · have enough : expectedSize.toNat ≤ CHUNK * (0 + chunkCount expectedSize.toNat) := by
      unfold chunkCount CHUNK
      omega
    obtain ⟨ok, final, run, inv, logged, complete⟩ :=
      @chunks_spec _ server writeCallback ⟨0, 0, [], []⟩ 0 (chunkCount expectedSize.toNat)
        expectedSize.toNat_lt ⟨rfl, by simp [Sourced]⟩ .start (by simp) enough
    refine ⟨ok, final, run, fun entry member => ?_, logged.perChunk, ?_, fun h => ?_⟩
    · obtain ⟨order, inside, same, _⟩ := logged.ranges entry member
      exact ⟨order, inside, same⟩
    · simpa [CHUNK_TRIES] using logged.total
    · exact ⟨inv.length.trans (complete h), inv.sourced⟩

/-- A body cut after one byte is resumed, and what the second answer has past the range
is dropped. -/
example : (downloadBinaryChunkedCellular
      (fun n => if n = 0 then ⟨206, [[1]]⟩ else ⟨206, [[2], [3, 4]]⟩) (fun _ _ => true)
      "https://h/".toList 3).map (fun r => (r.1, accepted r.2.calls)) =
    some (true, [1, 2, 3]) := by decide +kernel

end Thesada.Ota
