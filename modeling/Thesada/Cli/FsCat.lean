import Mathlib.Algebra.BigOperators.Group.List.Basic
import Thesada.Cli.Pages
import Thesada.Library.JsonText

/-!
# Files read in chunks over `cli/fs.cat`

A request names a path, an offset and a length. The reply carries the bytes whose escaped form
fits beside the other members and says how many they are, so that a consumer resumes at
`offset + length`. A reply too large for the buffers is not sent at all.
-/

namespace Thesada.Cli

open CString JsonGrammar JsonText

/-- The bytes of a literal. -/
def ascii (s : Str) : Bytes := s.map fun c => UInt8.ofNat c.toNat

/-- `(int)` of a `size_t`. -/
def toInt (n : Nat) : Int := Int.bmod n (2 ^ 32)

def intSize (z : Int) : Nat := (integer z).length

def pathSafePolicy (path : Str) : Bool :=
  path.head? == some '/' && (strstr "..".toList path).isNone && (strstr "//".toList path).isNone

/-- `strtok` at spaces: no token is empty. -/
def spaceTokens (s : Str) : List Str := (s.splitOn ' ').filter fun tok => !tok.isEmpty

/-- `(size_t)atol`. -/
def atolSize (tok : Str) : Nat := ((strtol tok).1 % 2 ^ 32).toNat

/-- What a request runs on: the buffers, and the files by the path that names them. -/
structure CatDevice where
  bufferOut : Nat
  bufferIn : Nat
  file : Str → Option Bytes

def CatDevice.replyCap (dev : CatDevice) : Nat := Cli.replyCap dev.bufferOut dev.bufferIn

/-- A request's serialized `req_id`, and what the calls it makes give. -/
structure CatIo where
  reqId : Option Bytes
  opens : Bool
  mallocs : Bool
  got : Nat
  replyMallocs : Bool

/-- `total` and `offset`; `length`, `done` and `data`; or the line of an error. -/
structure CatReply where
  ok : Bool
  range : Option (Int × Int)
  chunk : Option (Int × Bool × Bytes)
  output : Option Str
  deriving DecidableEq

namespace CatReply

def error (range : Option (Int × Int)) (line : String) : CatReply :=
  ⟨false, range, none, some line.toList⟩

/-- `measureJson` of the reply, member by member. -/
def size (reqId : Option Bytes) (r : CatReply) : Nat :=
  listSize (memberSize "cmd".toList (strSize (ascii "fs.cat".toList)) ::
    ((reqId.map fun id => memberSize "req_id".toList id.length).toList ++
      [memberSize "ok".toList (boolSize r.ok)] ++
      (match r.range with
        | none => []
        | some (total, offset) =>
            [memberSize "total".toList (intSize total),
              memberSize "offset".toList (intSize offset)]) ++
      (match r.chunk with
        | none => []
        | some (length, done, data) =>
            [memberSize "length".toList (intSize length), memberSize "done".toList (boolSize done),
              memberSize "data".toList (strSize data)]) ++
      (r.output.map fun line =>
        memberSize "output".toList (listSize [strSize (ascii line)])).toList))

end CatReply

/-- The chunk of an open file. -/
def catChunk (dev : CatDevice) (io : CatIo) (content : Bytes) (offset chunkLen : Nat) : CatReply :=
  let range := some (toInt content.length, toInt offset)
  if content.length ≤ offset then ⟨true, range, some (0, true, []), none⟩
  else if !io.mallocs then .error range "malloc failed"
  else
    let toRead := min chunkLen (content.length - offset)
    let buf := (content.drop offset).take (min io.got toRead)
    let env := (CatReply.mk true range (some (toInt buf.length, false, [])) none).size io.reqId
    let n := cliJsonFit buf buf.length
      (if env + 1 < dev.replyCap then dev.replyCap - env - 1 else 0)
    if n = 0 then
      .error range (if buf.length ≠ 0 then "Chunk does not fit the reply buffer" else "Read failed")
    else ⟨true, range, some (toInt n, content.length ≤ offset + n, buf.take n), none⟩

/-- The reply to a request with its three arguments. -/
def catReply (dev : CatDevice) (io : CatIo) (path : Str) (offset chunkLen : Nat) : CatReply :=
  let maxChunk := if 512 < dev.bufferOut then dev.bufferOut / 2 else 512
  let chunkLen := if chunkLen = 0 then maxChunk else chunkLen
  let chunkLen := if maxChunk < chunkLen then maxChunk else chunkLen
  if !pathSafePolicy path then .error none "Invalid path"
  else
    match if io.opens then dev.file path else none with
    | none => .error none "File not found"
    | some content => catChunk dev io content offset chunkLen

/-- The reply as it is built; with fewer arguments the shell prints the file. -/
def catResponse (dev : CatDevice) (io : CatIo) (payload : Str) : Option CatReply :=
  if 256 ≤ payload.length then some (.error none "Args too long")
  else
    match spaceTokens (cstr payload) with
    | path :: offStr :: lenStr :: _ =>
        some (catReply dev io path (atolSize offStr) (atolSize lenStr))
    | _ => none

inductive CatOutcome where
  | shell
  | refused
  | sent (r : CatReply)

/-- `publishCliResponse` at the end of the command. -/
def fsCat (dev : CatDevice) (io : CatIo) (payload : Str) : CatOutcome :=
  match catResponse dev io payload with
  | none => .shell
  | some r =>
      if dev.replyCap ≤ r.size io.reqId then .refused
      else if io.replyMallocs then .sent r
      else .refused

/-! ### The consumer -/

/-- An argument between spaces. -/
structure CatArg where
  text : Str
  nonempty : text ≠ []
  plain : ∀ c ∈ text, c ≠ ' ' ∧ c ≠ '\x00'

def catRequest (path : CatArg) (offset : Nat) (length : CatArg) : Str :=
  path.text ++ ' ' :: (Nat.toDigits 10 offset ++ ' ' :: length.text)

/-- How far a file was read: to some offset, to its end with the last chunk apart, to a reply
that says `ok: false`, or to a request without a reply. -/
inductive CatRead where
  | resumes (offset : Nat) (data : Bytes)
  | done (data last : Bytes)
  | failed
  | silent
  deriving DecidableEq

/-- A consumer's requests from `offset` on, given what was read before. -/
def readFile (dev : CatDevice) (path : CatArg) : List (CatIo × CatArg) → Nat → Bytes → CatRead
  | [], offset, data => .resumes offset data
  | (io, length) :: asks, offset, data =>
      match fsCat dev io (catRequest path offset length) with
      | .sent ⟨true, some (_, offset), some (length, done, bytes), _⟩ =>
          if done then .done data bytes
          else readFile dev path asks (offset + length).toNat (data ++ bytes)
      | .sent _ => .failed
      | _ => .silent

/-! ## Arguments -/

theorem spaceTokens_cons (tok : CatArg) (s : Str) :
    spaceTokens (tok.text ++ ' ' :: s) = tok.text :: spaceTokens s := by
  have first : ' ' ∉ tok.text := fun mem => (tok.plain _ mem).1 rfl
  rw [spaceTokens, List.splitOn_append_cons_self_of_not_mem first]
  exact List.filter_cons_of_pos (by simpa using tok.nonempty)

theorem spaceTokens_one (tok : CatArg) : spaceTokens tok.text = [tok.text] := by
  have whole : ' ' ∉ tok.text := fun mem => (tok.plain _ mem).1 rfl
  rw [spaceTokens, List.splitOn_eq_singleton whole]
  exact List.filter_cons_of_pos (by simpa using tok.nonempty)

/-- A decimal number as an argument. -/
def CatArg.ofNat (n : Nat) : CatArg where
  text := Nat.toDigits 10 n
  nonempty := Nat.toDigits_ne_nil
  plain c mem := by
    have digit : c.isDigit = true := Nat.isDigit_of_mem_toDigits (by decide) (by decide) mem
    constructor <;> rintro rfl <;> exact absurd digit (by decide)

theorem spaceTokens_request (path : CatArg) (offset : Nat) (length : CatArg) :
    spaceTokens (cstr (catRequest path offset length)) =
      [path.text, Nat.toDigits 10 offset, length.text] := by
  have plain : ∀ c ∈ catRequest path offset length, c ≠ '\x00' := by
    intro c mem
    simp only [catRequest, List.mem_append, List.mem_cons] at mem
    obtain mem | rfl | mem | rfl | mem := mem
    · exact (path.plain c mem).2
    · decide
    · exact ((CatArg.ofNat offset).plain c mem).2
    · decide
    · exact (length.plain c mem).2
  rw [cstr_eq_self plain, catRequest, spaceTokens_cons]
  have digits := spaceTokens_cons (.ofNat offset) length.text
  rw [spaceTokens_one] at digits
  exact congrArg _ digits

theorem atolSize_toDigits {n : Nat} (small : n < 2 ^ 31) : atolSize (Nat.toDigits 10 n) = n := by
  have digits : ∀ c ∈ Nat.toDigits 10 n, c.isDigit = true := fun c mem =>
    Nat.isDigit_of_mem_toDigits (by decide) (by decide) mem
  have read := @strtol_digits [] (Nat.toDigits 10 n) [] (by simp) Nat.toDigits_ne_nil digits
    (by simp)
  rw [List.nil_append, List.append_nil, decimal_toDigits, clampLong] at read
  rw [atolSize, read]
  omega

/-! ## Sizes of a reply -/

theorem toInt_small {n : Nat} (small : n < 2 ^ 31) : toInt n = n := by
  have low : n < 2147483648 := small
  exact Int.bmod_eq_of_le_mul_two (by omega) (by omega)

theorem natSize_mono {m n : Nat} (le : m ≤ n) : natSize m ≤ natSize n := by
  have least : 0 < natSize n := Nat.length_toDigits_pos
  have below : n < 10 ^ natSize n :=
    (Nat.length_toDigits_le_iff (by decide) least).mp (Nat.le_refl _)
  exact (Nat.length_toDigits_le_iff (by decide) least).mpr (Nat.lt_of_le_of_lt le below)

/-- The bytes in place of empty data, with their count and `done`. -/
theorem CatReply.size_data (reqId : Option Bytes) (range : Option (Int × Int)) {count got : Int}
    (shorter : intSize count ≤ intSize got) (done : Bool) (data : Bytes) :
    (CatReply.mk true range (some (count, done, data)) none).size reqId ≤
      (CatReply.mk true range (some (got, false, [])) none).size reqId +
        cliJsonStrLen data data.length := by
  have flag : boolSize done ≤ boolSize false := by
    cases done <;> decide
  have empty : cliJsonStrLen [] 0 = 0 := rfl
  cases reqId <;> cases range <;>
    simp only [size, listSize, strSize, memberSize, Option.map_none, Option.map_some,
      Option.toList_none, Option.toList_some, List.nil_append, List.append_nil, List.cons_append,
      List.sum_cons, List.sum_nil, List.length_cons, List.length_nil, empty] <;>
    omega

theorem intSize_mono {n got : Nat} (le : n ≤ got) (small : got < 2 ^ 31) :
    intSize (toInt n) ≤ intSize (toInt got) := by
  rw [toInt_small small, toInt_small (Nat.lt_of_le_of_lt le small)]
  exact natSize_mono le

/-! ## One request -/

/-- A reply without data, the file's end, or some bytes from `offset` on in a reply that fits. -/
inductive Answers (dev : CatDevice) (io : CatIo) (content : Bytes) (offset : Nat) :
    CatReply → Prop where
  | error (range : Option (Int × Int)) (line : String) :
      Answers dev io content offset (.error range line)
  | past (range : Int × Int) (behind : content.length ≤ offset) :
      Answers dev io content offset ⟨true, some range, some (0, true, []), none⟩
  | bytes (total : Int) (n : Nat) (least : 0 < n) (within : offset + n ≤ content.length)
      (fits : CatReply.size io.reqId ⟨true, some (total, toInt offset),
        some (toInt n, content.length ≤ offset + n, (content.drop offset).take n), none⟩ <
          dev.replyCap) :
      Answers dev io content offset ⟨true, some (total, toInt offset),
        some (toInt n, content.length ≤ offset + n, (content.drop offset).take n), none⟩

/-- No byte is free. -/
theorem le_cliJsonStrLen {s : Bytes} {n : Nat} (le : n ≤ s.length) : n ≤ cliJsonStrLen s n := by
  have each : ∀ cost ∈ (s.take n).map cliJsonCharCost, 1 ≤ cost := by
    intro cost mem
    obtain ⟨c, -, rfl⟩ := List.mem_map.mp mem
    simp only [cliJsonCharCost]
    split_ifs <;> decide
  have sum := List.length_le_sum_of_one_le _ each
  rwa [List.length_map, List.length_take, Nat.min_eq_left le] at sum

theorem take_drop_ne_nil {content : Bytes} {offset n : Nat} (least : 0 < n)
    (within : offset + n ≤ content.length) : (content.drop offset).take n ≠ [] := by
  intro none
  have count := congrArg List.length none
  rw [List.length_take, List.length_drop, List.length_nil] at count
  omega

theorem catChunk_answers (dev : CatDevice) (io : CatIo) {content : Bytes}
    (small : content.length < 2 ^ 31) (offset chunkLen : Nat) :
    Answers dev io content offset (catChunk dev io content offset chunkLen) := by
  simp only [catChunk]
  split
  · rename_i behind
    exact .past _ behind
  split
  · exact .error _ _
  generalize min io.got (min chunkLen (content.length - offset)) = k
  generalize read : (content.drop offset).take k = buf
  generalize measured : CatReply.size io.reqId ⟨true, some (toInt content.length, toInt offset),
    some (toInt buf.length, false, []), none⟩ = env
  have room : (if env + 1 < dev.replyCap then dev.replyCap - env - 1 else 0) =
      dev.replyCap - env - 1 := by
    split <;> omega
  rw [room]
  obtain ⟨le, size⟩ := cliJsonFit_spec buf buf.length (dev.replyCap - env - 1) (Nat.le_refl _)
  generalize cliJsonFit buf buf.length (dev.replyCap - env - 1) = n at le size ⊢
  split
  · exact .error _ _
  rename_i some
  have got : buf.length ≤ k ∧ buf.length ≤ content.length - offset := by
    rw [← read, List.length_take, List.length_drop]
    exact ⟨Nat.min_le_left _ _, Nat.min_le_right _ _⟩
  have data : buf.take n = (content.drop offset).take n := by
    rw [← read, List.take_take, Nat.min_eq_left (le.trans got.1)]
  have least := le_cliJsonStrLen le
  have sized := CatReply.size_data io.reqId (Option.some (toInt content.length, toInt offset))
    (intSize_mono le (Nat.lt_of_le_of_lt (got.2.trans (Nat.sub_le _ _)) small))
    (content.length ≤ offset + n) (buf.take n)
  have cost : cliJsonStrLen (buf.take n) (buf.take n).length = cliJsonStrLen buf n := by
    rw [cliJsonStrLen, List.take_length, cliJsonStrLen]
  rw [cost, measured] at sized
  rw [data] at sized ⊢
  exact .bytes _ n (Nat.pos_of_ne_zero some) (by omega) (Nat.lt_of_le_of_lt sized (by omega))

section

variable {dev : CatDevice} {path : CatArg} {content : Bytes}

/-- A request's reply as it is built, and that it is sent unless it is too large. -/
theorem request_answers (present : dev.file path.text = some content)
    (small : content.length < 2 ^ 31) (io : CatIo) (length : CatArg) {offset : Nat}
    (below : offset < 2 ^ 31) :
    ∃ r, catResponse dev io (catRequest path offset length) = some r ∧
      Answers dev io content offset r ∧
      (fsCat dev io (catRequest path offset length) = .sent r ∨
        fsCat dev io (catRequest path offset length) = .refused ∧
          (io.replyMallocs = false ∨ dev.replyCap ≤ r.size io.reqId)) := by
  have built : ∃ r, catResponse dev io (catRequest path offset length) = some r ∧
      Answers dev io content offset r := by
    unfold catResponse
    split
    · exact ⟨_, rfl, .error _ _⟩
    · rw [spaceTokens_request]
      refine ⟨_, rfl, ?_⟩
      simp only [catReply, atolSize_toDigits below, present]
      split
      · exact .error _ _
      · cases io.opens with
        | false => exact .error _ _
        | true => exact catChunk_answers dev io small offset _
  obtain ⟨r, response, answers⟩ := built
  refine ⟨r, response, answers, ?_⟩
  simp only [fsCat, response]
  split
  · rename_i large
    exact .inr ⟨rfl, .inr large⟩
  · cases mallocs : io.replyMallocs with
    | false => exact .inr ⟨rfl, .inl rfl⟩
    | true => exact .inl rfl

/-! ## A whole read -/

/-- How a read from `offset` on may end. -/
def CatRead.Right (dev : CatDevice) (path : CatArg) (content : Bytes) (asks : List (CatIo × CatArg))
    (offset : Nat) : CatRead → Prop
  | .resumes next data => data = content.take next ∧ offset + asks.length ≤ next ∧
      next ≤ content.length ∧ (next = offset ∨ next < content.length)
  | .done data last => data ++ last = content ∧ (last = [] → offset = content.length)
  | .failed => ∃ ask ∈ asks, ∃ offset r,
      fsCat dev ask.1 (catRequest path offset ask.2) = .sent r ∧ r.ok = false
  | .silent => ∃ ask ∈ asks, ∃ offset r,
      catResponse dev ask.1 (catRequest path offset ask.2) = some r ∧
        (ask.1.replyMallocs = false ∨ dev.replyCap ≤ r.size ask.1.reqId ∧
          ∀ length done data, r.chunk = some (length, done, data) → data = [])

theorem CatRead.Right.cons {ask : CatIo × CatArg} {asks : List (CatIo × CatArg)} {offset n : Nat}
    (least : 0 < n) (more : offset + n < content.length) {read : CatRead}
    (rest : read.Right dev path content asks (offset + n)) :
    read.Right dev path content (ask :: asks) offset := by
  cases read with
  | resumes next data =>
      obtain ⟨got, count, le, last⟩ := rest
      refine ⟨got, by rw [List.length_cons]; omega, le, .inr ?_⟩
      obtain rfl | before := last
      · exact more
      · exact before
  | done data last =>
      obtain ⟨whole, empty⟩ := rest
      exact ⟨whole, fun none => absurd (empty none) (Nat.ne_of_lt more)⟩
  | failed =>
      obtain ⟨ask', mem, found⟩ := rest
      exact ⟨ask', List.mem_cons_of_mem _ mem, found⟩
  | silent =>
      obtain ⟨ask', mem, found⟩ := rest
      exact ⟨ask', List.mem_cons_of_mem _ mem, found⟩

/-- The requests of a read, each from where the reply before it ends. -/
theorem readFile_right (present : dev.file path.text = some content)
    (small : content.length < 2 ^ 31) (asks : List (CatIo × CatArg)) {offset : Nat} {data : Bytes}
    (le : offset ≤ content.length) (read : data = content.take offset) :
    (readFile dev path asks offset data).Right dev path content asks offset := by
  induction asks generalizing offset data with
  | nil => exact ⟨read, Nat.le_refl _, le, .inl rfl⟩
  | cons ask asks ih =>
      obtain ⟨io, length⟩ := ask
      obtain ⟨r, response, answers, outcome | ⟨outcome, why⟩⟩ :=
        request_answers present small io length (Nat.lt_of_le_of_lt le small)
      · cases answers with
        | error range line =>
            simp only [readFile, outcome, CatReply.error]
            exact ⟨_, List.mem_cons_self, offset, _, outcome, rfl⟩
        | past range behind =>
            simp only [readFile, outcome, if_true]
            refine ⟨?_, fun _ => Nat.le_antisymm le behind⟩
            rw [List.append_nil, read, List.take_of_length_le behind]
        | bytes total n least within fits =>
            have next : (toInt offset + toInt n).toNat = offset + n := by
              rw [toInt_small (by omega), toInt_small (by omega)]
              omega
            have longer : data ++ (content.drop offset).take n = content.take (offset + n) := by
              rw [read, List.take_add]
            simp only [readFile, outcome]
            split
            · rename_i whole
              refine ⟨?_, fun none => absurd none (take_drop_ne_nil least within)⟩
              rw [longer, List.take_of_length_le (by simpa using whole)]
            · rename_i part
              have more : offset + n < content.length := by simpa using part
              rw [next]
              exact (ih within longer).cons least more
      · simp only [readFile, outcome]
        refine ⟨_, List.mem_cons_self, offset, r, response, why.imp_right fun large => ?_⟩
        refine ⟨large, fun count done bytes chunk => ?_⟩
        cases answers with
        | error => exact absurd chunk (by simp [CatReply.error])
        | past => exact (by simpa using chunk : _ ∧ _ ∧ _).2.2
        | bytes _ _ _ _ fits => exact absurd fits (Nat.not_lt.mpr large)

end

def slashA : CatArg where
  text := "/a".toList
  nonempty := by decide
  plain c inside :=
    ⟨ne_of_mem_of_not_mem inside (by decide), ne_of_mem_of_not_mem inside (by decide)⟩

/-- A file of three bytes on a device with these buffers. -/
def threeBytes (bufferOut bufferIn : Nat) : CatDevice :=
  ⟨bufferOut, bufferIn, fun _ => some [0x61, 0x22, 0x00]⟩

end Thesada.Cli
