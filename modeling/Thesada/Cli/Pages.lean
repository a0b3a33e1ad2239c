import Mathlib.Data.List.Forall2
import Thesada.Cli.PagePolicy

/-!
# Pages of a command's output

`runCli` puts a shell command's output lines on pages and publishes a page when the next line
does not fit. A line that fits on no page goes out in pieces; a page that ends inside a line is
marked `cont`. A line with no room for a piece is dropped, and then the last page says so.
-/

namespace Thesada.Cli

open CString JsonGrammar

def CLI_TOPIC_CAP : Nat := 160

/-- What every page repeats: the command and the serialized `req_id`. -/
structure CliRequest where
  cmd : Bytes
  reqId : Option Bytes

structure Page where
  page : Nat
  ok : Bool
  output : List Bytes
  cont : Bool
  more : Option Bool
  deriving DecidableEq

def measureJson (r : CliRequest) (p : Page) : Nat :=
  listSize (memberSize "cmd".toList (strSize r.cmd) ::
    ((r.reqId.map fun id => memberSize "req_id".toList id.length).toList ++
      [memberSize "ok".toList (boolSize p.ok), memberSize "page".toList (natSize p.page),
        memberSize "output".toList (listSize (p.output.map strSize))] ++
      (if p.cont then [memberSize "cont".toList (boolSize true)] else []) ++
      (p.more.map fun more => memberSize "more".toList (boolSize more)).toList))

/-- The pages that are published, and the one being filled. -/
structure CliPages where
  pages : List Page
  pageNum : Nat
  output : List Bytes
  lineDropped : Bool

namespace CliPages

def start : CliPages := ⟨[], 0, [], false⟩

/-- `resp` while lines are added. -/
def resp (st : CliPages) : Page := ⟨st.pageNum, true, st.output, false, none⟩

/-- `publishPage(true)` and the next page. -/
def publish (st : CliPages) (cont : Bool) : CliPages :=
  { st with
    pages := st.pages ++ [{ st.resp with cont, more := some true }]
    pageNum := st.pageNum + 1
    output := [] }

@[simp] theorem publish_output (st : CliPages) (cont : Bool) : (st.publish cont).output = [] := rfl

/-- One turn of the sink's loop: what is left of the line, or that the sink returns. -/
def sinkStep (r : CliRequest) (pageLimit : Nat) (st : CliPages) (line : Bytes) :
    CliPages × Option Bytes :=
  let (n, split) := cliNextPiece line line.length (measureJson r st.resp) pageLimit
  if split && st.output ≠ [] then (st.publish false, some line)
  else if split && n = 0 then ({ st with lineDropped := true }, none)
  else
    let st := { st with output := st.output ++ [line.take n] }
    if !split then (st, none) else (st.publish true, some (line.drop n))

/-- The sink's loop, given how many turns it may take. -/
def sinkLoop (r : CliRequest) (pageLimit : Nat) : Nat → CliPages → Bytes → Option CliPages
  | 0, _, _ => none
  | fuel + 1, st, line =>
      match st.sinkStep r pageLimit line with
      | (st, none) => some st
      | (st, some rest) => sinkLoop r pageLimit fuel st rest

/-- The last page carries the result. -/
def finish (st : CliPages) (ok : Bool) : List Page :=
  st.pages ++ [{ st.resp with ok := ok && !st.lineDropped, more := some false }]

end CliPages

/-- The sink. Each second turn of its loop at most takes nothing off the line. -/
def CliPages.sink (r : CliRequest) (pageLimit : Nat) (st : CliPages) (line : Bytes) :
    Option CliPages :=
  sinkLoop r pageLimit (2 * line.length + 2) st line

def replyCap (bufferOut bufferIn : Nat) : Nat :=
  cliReplyCap bufferOut bufferIn (CLI_TOPIC_CAP - 1)

/-- The pages for the output lines of a command that succeeds or not. -/
def runCliPages (r : CliRequest) (bufferOut bufferIn : Nat) (lines : List Bytes) (ok : Bool) :
    Option (List Page) :=
  (lines.foldlM (CliPages.sink r (cliPageLimit (replyCap bufferOut bufferIn))) .start).map
    (·.finish ok)

/-- A page's last string and what comes next. -/
def glue : List Bytes → List Bytes → List Bytes
  | [s], next :: rest => (s ++ next) :: rest
  | s :: t :: ss, next => s :: glue (t :: ss) next
  | ss, next => ss ++ next

/-- The output lines as a consumer reads them off the pages. -/
def joinPages : List Page → List Bytes
  | [] => []
  | p :: ps => if p.cont then glue p.output (joinPages ps) else p.output ++ joinPages ps

/-! ## Sizes of a page -/

theorem sum_map_strSize (output : List Bytes) (s : Bytes) :
    listSize ((output ++ [s]).map strSize) =
      listSize (output.map strSize) + strSize s + (if output = [] then 0 else 1) := by
  cases output with
  | nil => simp [listSize]
  | cons o output =>
      simp only [listSize, List.map_append, List.map_cons, List.map_nil, List.sum_append,
        List.sum_cons, List.sum_nil, List.length_append, List.length_cons, List.length_nil,
        List.cons_append, List.length_map, reduceCtorEq, if_false]
      omega

/-- What a page measures beside the page it starts as. -/
theorem measureJson_eq (r : CliRequest) (p : Page) :
    measureJson r p + 2 = measureJson r ⟨p.page, true, [], false, none⟩ +
      (if p.ok then 0 else 1) + listSize (p.output.map strSize) +
      (if p.cont then CLI_CONT_COST else 0) +
      (match p.more with | none => 0 | some true => 12 | some false => 13) := by
  obtain ⟨page, ok, output, cont, more⟩ := p
  obtain ⟨cmd, reqId⟩ := r
  have names : "cmd".toList.length = 3 ∧ "req_id".toList.length = 6 ∧ "ok".toList.length = 2 ∧
      "page".toList.length = 4 ∧ "output".toList.length = 6 ∧ "cont".toList.length = 4 ∧
      "more".toList.length = 4 := by decide
  obtain ⟨cmdLen, idLen, okLen, pageLen, outputLen, contLen, moreLen⟩ := names
  cases reqId <;> cases ok <;> cases cont <;> rcases more with _ | _ | _ <;>
    simp [measureJson, listSize, memberSize, boolSize, CLI_CONT_COST] <;> omega

/-- A page within its limit stays below the cap with all it can get. -/
theorem below_replyCap {r : CliRequest} {p : Page} {cap : Nat}
    (fits : measureJson r { p with ok := true, more := none } ≤ cliPageLimit cap) (more : Bool) :
    measureJson r { p with ok := false, more := some more } < cap := by
  have page := measureJson_eq r { p with ok := true, more := none }
  have last := measureJson_eq r { p with ok := false, more := some more }
  have least : 41 ≤ measureJson r ⟨p.page, true, [], false, none⟩ := by
    have digits : 0 < (Nat.toDigits 10 p.page).length := Nat.length_toDigits_pos
    simp [measureJson, listSize, memberSize, boolSize, strSize, natSize]
    omega
  have array : 2 ≤ listSize (p.output.map strSize) := by
    simp only [listSize]
    omega
  have limit : 160 < cap ∧ cliPageLimit cap = cap - 160 ∨
      cap ≤ 160 ∧ cliPageLimit cap = cap / 2 := by
    rcases Nat.lt_or_ge 160 cap with wide | narrow
    · exact .inl ⟨wide, if_pos wide⟩
    · exact .inr ⟨narrow, if_neg (Nat.not_lt.mpr narrow)⟩
  generalize (if p.cont then CLI_CONT_COST else 0) = cont at page last
  simp only [if_true, Bool.false_eq_true, if_false] at page last
  cases more <;> simp only at last <;> omega

/-! ## Pages joined -/

@[simp] theorem joinPages_last (page : Nat) (ok : Bool) (output : List Bytes) (more : Option Bool) :
    joinPages [⟨page, ok, output, false, more⟩] = output := by
  simp [joinPages]

theorem joinPages_append {ps qs qs' : List Page} (same : joinPages qs = joinPages qs') :
    joinPages (ps ++ qs) = joinPages (ps ++ qs') := by
  induction ps with
  | nil => exact same
  | cons p ps ih => simp only [List.cons_append, joinPages, ih]

namespace CliPages

/-- What is read when `more` lines follow on the page being filled. -/
def joined (st : CliPages) (lines : List Bytes) : List Bytes :=
  joinPages (st.pages ++ [{ st.resp with output := st.output ++ lines }])

theorem joined_publish (st : CliPages) (lines : List Bytes) :
    (st.publish false).joined lines = st.joined lines := by
  simp only [joined, publish, List.append_assoc, List.singleton_append]
  apply joinPages_append
  simp [joinPages, resp]

theorem joined_piece (st : CliPages) (empty : st.output = []) (s rest : Bytes)
    (lines : List Bytes) :
    (({ st with output := [s] } : CliPages).publish true).joined (rest :: lines) =
      st.joined ((s ++ rest) :: lines) := by
  simp only [joined, publish, List.append_assoc, List.singleton_append]
  apply joinPages_append
  simp [joinPages, resp, glue, empty]

/-- The strings on all pages. -/
def strings (st : CliPages) : List Bytes := st.pages.flatMap (·.output) ++ st.output

theorem strings_publish (st : CliPages) (cont : Bool) : (st.publish cont).strings = st.strings := by
  simp [strings, publish, resp]

/-- Every page with a string is within the limit. -/
structure Fits (r : CliRequest) (pageLimit : Nat) (st : CliPages) : Prop where
  published : ∀ p ∈ st.pages, p.output ≠ [] →
    measureJson r { p with ok := true, more := none } ≤ pageLimit
  filling : st.output ≠ [] → measureJson r st.resp ≤ pageLimit

theorem Fits.publish {r : CliRequest} {pageLimit : Nat} {st : CliPages} {cont : Bool}
    (pages : ∀ p ∈ st.pages, p.output ≠ [] →
      measureJson r { p with ok := true, more := none } ≤ pageLimit)
    (page : st.output ≠ [] → measureJson r { st.resp with cont } ≤ pageLimit) :
    (st.publish cont).Fits r pageLimit := by
  constructor
  · intro p mem some
    rcases List.mem_append.mp mem with old | new
    · exact pages p old some
    · obtain rfl := List.mem_singleton.mp new
      exact page some
  · exact fun some => absurd rfl some

theorem Fits.whole {r : CliRequest} {pageLimit : Nat} {st : CliPages} (fits : st.Fits r pageLimit)
    {line : Bytes}
    (room : measureJson r st.resp + CLI_STR_OVERHEAD + cliJsonStrLen line line.length ≤ pageLimit) :
    ({ st with output := st.output ++ [line] } : CliPages).Fits r pageLimit := by
  refine ⟨fits.published, fun _ => ?_⟩
  have before := measureJson_eq r st.resp
  have after := measureJson_eq r { st.resp with output := st.output ++ [line] }
  have grown := sum_map_strSize st.output line
  simp only [resp, CLI_STR_OVERHEAD, strSize] at *
  split at grown <;> omega

theorem Fits.piece {r : CliRequest} {pageLimit : Nat} {st : CliPages} (fits : st.Fits r pageLimit)
    (empty : st.output = []) {line : Bytes} {m : Nat}
    (room : measureJson r st.resp + CLI_STR_OVERHEAD + CLI_CONT_COST + cliJsonStrLen line m ≤
      pageLimit) :
    (({ st with output := [line.take m] } : CliPages).publish true).Fits r pageLimit := by
  refine Fits.publish fits.published fun _ => ?_
  have before := measureJson_eq r st.resp
  have after := measureJson_eq r { st.resp with output := [line.take m], cont := true }
  have piece : strSize (line.take m) = 2 + cliJsonStrLen line m := by
    simp only [strSize, cliJsonStrLen, List.take_length]
  simp only [resp, empty, CLI_STR_OVERHEAD, CLI_CONT_COST, List.map_cons, List.map_nil, listSize,
    piece, List.sum_cons, List.sum_nil, List.length_cons, List.length_nil, if_true] at *
  omega

/-- A turn of the loop ends the page, drops the line, or puts all of it or a piece on the page. -/
theorem sinkStep_cases (r : CliRequest) (pageLimit : Nat) (st : CliPages) (line : Bytes) :
    (st.output ≠ [] ∧ st.sinkStep r pageLimit line = (st.publish false, some line)) ∨
      st.sinkStep r pageLimit line = ({ st with lineDropped := true }, none) ∨
      (measureJson r st.resp + CLI_STR_OVERHEAD + cliJsonStrLen line line.length ≤ pageLimit ∧
        st.sinkStep r pageLimit line = ({ st with output := st.output ++ [line] }, none)) ∨
      ∃ m budget, st.output = [] ∧ 0 < m ∧ m < line.length ∧
        m = cliJsonFit line line.length budget ∧
        measureJson r st.resp + CLI_STR_OVERHEAD + CLI_CONT_COST + cliJsonStrLen line m ≤
          pageLimit ∧
        st.sinkStep r pageLimit line =
          (({ st with output := [line.take m] } : CliPages).publish true, some (line.drop m)) := by
  obtain ⟨⟨m, split⟩, piece⟩ :
      ∃ p, cliNextPiece line line.length (measureJson r st.resp) pageLimit = p := ⟨_, rfl⟩
  simp only [sinkStep, piece]
  cases split with
  | false =>
      obtain ⟨rfl, fits⟩ := cliNextPiece_whole piece
      exact .inr (.inr (.inl ⟨fits, by simp⟩))
  | true =>
      by_cases empty : st.output = []
      · obtain rfl | ⟨short, fits, budget, rfl⟩ := cliNextPiece_split (Nat.le_refl _) piece
        · exact .inr (.inl (by simp [empty]))
        · by_cases none : cliJsonFit line line.length budget = 0
          · exact .inr (.inl (by simp [empty, none]))
          · exact .inr (.inr (.inr ⟨_, budget, empty, Nat.pos_of_ne_zero none, short, rfl, fits,
              by simp [empty, none]⟩))
      · exact .inl ⟨empty, by simp [empty]⟩

/-- What the sink does with a line: all of it is read after it, or it was dropped. -/
structure Took (r : CliRequest) (pageLimit : Nat) (st : CliPages) (line : Bytes)
    (st' : CliPages) : Prop where
  dropped : st'.lineDropped = false → st.lineDropped = false
  joined : st'.lineDropped = false → ∀ lines, st'.joined lines = st.joined (line :: lines)
  cut : ∃ ps, st'.strings = st.strings ++ ps ∧ ps.flatten <+: line ∧
    (IsUtf8 line → ∀ p ∈ ps, IsUtf8 p)
  fits : st.Fits r pageLimit → st'.Fits r pageLimit

theorem Took.publish {r : CliRequest} {pageLimit : Nat} {st st' : CliPages} {line : Bytes}
    (took : (st.publish false).Took r pageLimit line st') : st.Took r pageLimit line st' := by
  refine ⟨took.dropped, fun kept lines => ?_, ?_, fun fits => ?_⟩
  · rw [took.joined kept, joined_publish]
  · obtain ⟨ps, strings, rest⟩ := took.cut
    exact ⟨ps, by rw [strings, strings_publish], rest⟩
  · exact took.fits (Fits.publish fits.published fits.filling)

theorem Took.drop (r : CliRequest) (pageLimit : Nat) (st : CliPages) (line : Bytes) :
    st.Took r pageLimit line { st with lineDropped := true } := by
  refine ⟨fun kept => Bool.noConfusion kept, fun kept => Bool.noConfusion kept, ⟨[], ?_⟩, ?_⟩
  · exact ⟨(List.append_nil _).symm, List.nil_prefix, fun _ _ mem => absurd mem List.not_mem_nil⟩
  · exact fun fits => ⟨fits.published, fits.filling⟩

theorem Took.whole {r : CliRequest} {pageLimit : Nat} {st : CliPages} {line : Bytes}
    (room : measureJson r st.resp + CLI_STR_OVERHEAD + cliJsonStrLen line line.length ≤ pageLimit) :
    st.Took r pageLimit line { st with output := st.output ++ [line] } := by
  refine ⟨id, fun _ lines => ?_, ⟨[line], ?_⟩, fun fits => fits.whole room⟩
  · simp [CliPages.joined, resp]
  · exact ⟨by simp [CliPages.strings], by simp, by simp⟩

/-- The rest of a line after a piece. -/
theorem Took.piece {r : CliRequest} {pageLimit : Nat} {st st' : CliPages} {line : Bytes}
    {budget : Nat} (empty : st.output = [])
    (room : measureJson r st.resp + CLI_STR_OVERHEAD + CLI_CONT_COST +
      cliJsonStrLen line (cliJsonFit line line.length budget) ≤ pageLimit)
    (rest : (({ st with output := [line.take (cliJsonFit line line.length budget)] }
      : CliPages).publish true).Took r pageLimit
        (line.drop (cliJsonFit line line.length budget)) st') :
    st.Took r pageLimit line st' := by
  refine ⟨rest.dropped, fun kept lines => ?_, ?_, fun fits => rest.fits (fits.piece empty room)⟩
  · rw [rest.joined kept, joined_piece st empty, List.take_append_drop]
  · obtain ⟨ps, strings, tiles, chars⟩ := rest.cut
    refine ⟨line.take (cliJsonFit line line.length budget) :: ps, ?_, ?_, ?_⟩
    · rw [strings, strings_publish]
      simp [CliPages.strings, empty]
    · rw [List.flatten_cons]
      conv_rhs => rw [← List.take_append_drop (cliJsonFit line line.length budget) line]
      exact (List.prefix_append_right_inj _).mpr tiles
    · intro text p mem
      obtain ⟨before, after⟩ := cliJsonFit_utf8 text budget
      rcases List.mem_cons.mp mem with rfl | later
      · exact before
      · exact chars after p later

/-- The loop ends: a turn that takes nothing off the line leaves an empty page. -/
theorem sinkLoop_took (r : CliRequest) (pageLimit fuel : Nat) (st : CliPages) (line : Bytes)
    (enough : 2 * line.length + (if st.output = [] then 1 else 2) ≤ fuel) :
    ∃ st', sinkLoop r pageLimit fuel st line = some st' ∧ st.Took r pageLimit line st' := by
  induction fuel generalizing st line with
  | zero => split at enough <;> omega
  | succ fuel ih =>
      obtain ⟨full, step⟩ | step | ⟨room, step⟩ |
          ⟨m, budget, empty, least, short, rfl, room, step⟩ :=
        sinkStep_cases r pageLimit st line <;> simp only [sinkLoop, step]
      · rw [if_neg full] at enough
        obtain ⟨st', run, took⟩ := ih (st.publish false) line
          (by rw [if_pos (publish_output st false)]; exact Nat.le_of_succ_le_succ enough)
        exact ⟨st', run, took.publish⟩
      · exact ⟨_, rfl, .drop r pageLimit st line⟩
      · exact ⟨_, rfl, .whole room⟩
      · rw [if_pos empty] at enough
        obtain ⟨st', run, took⟩ := ih
          (({ st with output := [line.take (cliJsonFit line line.length budget)] }
            : CliPages).publish true) (line.drop (cliJsonFit line line.length budget))
          (by rw [if_pos (publish_output _ true), List.length_drop]; omega)
        exact ⟨st', run, .piece empty room took⟩

theorem sink_took (r : CliRequest) (pageLimit : Nat) (st : CliPages) (line : Bytes) :
    ∃ st', st.sink r pageLimit line = some st' ∧ st.Took r pageLimit line st' :=
  sinkLoop_took r pageLimit _ st line (by split <;> omega)

/-! ## All lines of a command -/

/-- A page's strings follow the lines, some of them in pieces. -/
def Tiles (lines : List Bytes) (cuts : List (List Bytes)) : Prop :=
  List.Forall₂ (fun line ps => ps.flatten <+: line ∧ (IsUtf8 line → ∀ p ∈ ps, IsUtf8 p)) lines cuts

/-- Line by line, from any state of the pages. -/
theorem foldlM_sink (r : CliRequest) (pageLimit : Nat) (lines : List Bytes) (st : CliPages) :
    ∃ st', lines.foldlM (sink r pageLimit) st = some st' ∧
      (st'.lineDropped = false → st.lineDropped = false ∧ st'.joined [] = st.joined lines) ∧
      (st.Fits r pageLimit → st'.Fits r pageLimit) ∧
      ∃ cuts, st'.strings = st.strings ++ cuts.flatten ∧ Tiles lines cuts := by
  induction lines generalizing st with
  | nil => exact ⟨st, rfl, fun kept => ⟨kept, rfl⟩, id, [], by simp, .nil⟩
  | cons line lines ih =>
      obtain ⟨st₁, first, took⟩ := sink_took r pageLimit st line
      obtain ⟨st', run, joined, fits, cuts, strings, tiles⟩ := ih st₁
      obtain ⟨ps, more, tile⟩ := took.cut
      refine ⟨st', by simp [first, run], fun kept => ?_, fun before => fits (took.fits before),
        ps :: cuts, ?_, .cons tile tiles⟩
      · obtain ⟨kept₁, same⟩ := joined kept
        exact ⟨took.dropped kept₁, by rw [same, took.joined kept₁]⟩
      · rw [strings, more, List.flatten_cons, List.append_assoc]

theorem fits_start (r : CliRequest) (pageLimit : Nat) : start.Fits r pageLimit :=
  ⟨fun _ mem => absurd mem List.not_mem_nil, fun some => absurd rfl some⟩

end CliPages

/-- The sink ends for every line, a last page that says `ok` stands for all lines, and the pages
are as small and cut as they have to be. -/
theorem runCliPages_delivers (r : CliRequest) (bufferOut bufferIn : Nat) (lines : List Bytes)
    (ok : Bool) :
    ∃ pages last, runCliPages r bufferOut bufferIn lines ok = some (pages ++ [last]) ∧
      (last.ok = true → joinPages (pages ++ [last]) = lines) ∧
      (∀ p ∈ pages ++ [last], p.output ≠ [] →
        measureJson r { p with ok := true, more := none } ≤
            cliPageLimit (replyCap bufferOut bufferIn) ∧
          ∀ more, measureJson r { p with ok := false, more := some more } <
            replyCap bufferOut bufferIn) ∧
      ∃ cuts, (pages ++ [last]).flatMap (·.output) = cuts.flatten ∧ CliPages.Tiles lines cuts := by
  obtain ⟨st, run, joined, fits, cuts, strings, tiles⟩ := CliPages.foldlM_sink r
    (cliPageLimit (replyCap bufferOut bufferIn)) lines .start
  have within := fits (CliPages.fits_start r _)
  refine ⟨st.pages, _, by rw [runCliPages, run]; rfl, ?_, ?_, cuts, ?_, tiles⟩
  · intro success
    obtain ⟨-, kept⟩ := Bool.and_eq_true_iff.mp success
    obtain ⟨-, same⟩ := joined (by simpa using kept)
    have first : CliPages.start.joined lines = lines := by
      simp [CliPages.joined, CliPages.start, CliPages.resp]
    rw [← first, ← same, CliPages.joined]
    apply joinPages_append
    simp [CliPages.resp]
  · intro p mem some
    have page : measureJson r { p with ok := true, more := none } ≤
        cliPageLimit (replyCap bufferOut bufferIn) := by
      rcases List.mem_append.mp mem with old | new
      · exact within.published p old some
      · obtain rfl := List.mem_singleton.mp new
        exact within.filling some
    exact ⟨page, below_replyCap page⟩
  · simpa [CliPages.strings, CliPages.start, CliPages.resp] using strings

end Thesada.Cli
