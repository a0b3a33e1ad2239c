import Thesada.Cli.AuthzPolicy
import Thesada.Cli.FsCat

/-!
# Files written over `cli/fs.write` and `cli/fs.append`

A message is a line with a path and then content, as the payload itself or as the `args` of a
JSON envelope. A file is sent as one `fs.write` and then `fs.append` messages. The payload and
the `args` are C strings, and the count that a write returns goes into the text of the reply only.

The JSON reader is a parameter: what it makes of a payload, when that is an object.
-/

namespace Thesada.Cli

open CString JsonGrammar

def NUL : UInt8 := 0
def NEWLINE : UInt8 := 0x0A
def BRACE : UInt8 := opening true

/-- What `strlen` counts. -/
def cBytes (s : Bytes) : Bytes := s.takeWhile (· ≠ NUL)

/-- `char path[64]`. -/
def PATH_CAP : Nat := 64

/-- A decoded object: whether it has a `req_id`, how many members, and `args` when a string. -/
structure Envelope where
  hasReqId : Bool
  size : Nat
  args : Option Bytes

abbrev JsonReader := Bytes → Option Envelope

/-- The payload after the envelope, and whether it is only a `req_id`. -/
def unwrap (read : JsonReader) (payload : Bytes) : Bytes × Bool :=
  match if payload.head? = some BRACE then read payload else none with
  | none => (payload, false)
  | some env =>
      let args := env.args.map cBytes
      (args.getD payload, env.hasReqId && (env.size = 1 || args = some []))

def text (s : Bytes) : Str := s.map fun c => Char.ofNat c.toNat

/-- The mount whose prefix a path has, with what follows it. -/
def mountOf (path : Str) : List Str → Nat → Option (Nat × Str)
  | [], _ => none
  | mount :: mounts, i =>
      let rest := path.drop mount.length
      if mount.isPrefixOf path && (rest.isEmpty || rest.head? = some '/') then some (i, rest)
      else mountOf path mounts (i + 1)

/-- The number of a mount, none for LittleFS. -/
def resolveFS (mounts : List Str) (path : Str) : Option Nat := (mountOf path mounts 0).map (·.1)

def stripPrefix (mounts : List Str) (path : Str) : Str :=
  match mountOf path mounts 0 with
  | none => path
  | some (_, rest) => if rest = [] || rest = ['/'] then ['/'] else rest

/-- A file by its file system and its path there. -/
abbrev FileKey := Option Nat × Str

abbrev Files := FileKey → Option Bytes

def fileKey (mounts : List Str) (path : Str) : FileKey :=
  (resolveFS mounts path, stripPrefix mounts path)

/-- How the calls of one message go. -/
structure WriteIo where
  opens : Bool
  /-- How many of the bytes given reach the file. -/
  stored : Nat
  deriving DecidableEq

/-- The file after `open` in mode `w` or `a`, `write` and `close`. -/
def storeBytes (files : Files) (key : FileKey) (append : Bool) (content : Bytes) (stored : Nat) :
    Files :=
  let before := if append then (files key).getD [] else []
  Function.update files key (some (before ++ content.take stored))

def cmdName (append : Bool) : Str := if append then "fs.append".toList else "fs.write".toList

/-- `fs.write` and `fs.append` in `runCli`: the files, and what `ok` says in the reply. -/
def fsWrite (mounts : List Str) (files : Files) (append : Bool) (payload : Bytes) (io : WriteIo) :
    Files × Bool :=
  let line := payload.takeWhile (· ≠ NEWLINE)
  if line.length = payload.length then (files, false)
  else if PATH_CAP ≤ line.length then (files, false)
  else if !pathSafePolicy (text line) then (files, false)
  else if !io.opens then (files, false)
  else
    (storeBytes files (fileKey mounts (text line)) append (payload.drop (line.length + 1)) io.stored,
      true)

/-- One message through `cliInboundHandler` and `runCli`. Without a payload the shell prints its
usage and fails. -/
def runCliWrite (read : JsonReader) (mounts : List Str) (mode : CliAuthMode) (files : Files)
    (append : Bool) (message : Bytes) (io : WriteIo) : Files × Bool :=
  let (payload, bare) := unwrap read (cBytes message)
  if !cliAuthzAllowed mode (some (cmdName append)) (if bare then none else some (text payload))
      false then (files, false)
  else if payload = [] then (files, false)
  else fsWrite mounts files append payload io

/-! ### The sender -/

/-- The path that a file is sent to. -/
structure WritePath where
  text : Bytes
  plain : ∀ c ∈ text, c ≠ NUL ∧ c ≠ NEWLINE

/-- A payload with a line: the line, or an envelope that is read as an object with these `args`. -/
inductive Packs (read : JsonReader) (line : Bytes) : Bytes → Prop where
  | raw (object : line.head? ≠ some BRACE) : Packs read line line
  | args {json : Bytes} (env : Envelope) (object : json.head? = some BRACE) (whole : NUL ∉ json)
      (reads : read json = some env) (args : env.args = some line) : Packs read line json

/-- A message with one piece of a file, and how its calls go. -/
structure Chunk (read : JsonReader) (path : WritePath) where
  bytes : Bytes
  message : Bytes
  packs : Packs read (path.text ++ NEWLINE :: bytes) message
  mode : CliAuthMode
  io : WriteIo

section

variable {read : JsonReader} {path : WritePath}

/-- The messages in order, and whether every reply is `ok: true`. -/
def sendChunks (mounts : List Str) (files : Files) (append : Bool) :
    List (Chunk read path) → Files × Bool
  | [] => (files, true)
  | chunk :: chunks =>
      let (files, ok) :=
        runCliWrite read mounts chunk.mode files append chunk.message chunk.io
      let (files, oks) := sendChunks mounts files true chunks
      (files, ok && oks)

/-- An `fs.write` and then `fs.append` messages. -/
def upload (mounts : List Str) (files : Files) (first : Chunk read path)
    (rest : List (Chunk read path)) : Files × Bool :=
  sendChunks mounts files false (first :: rest)

/-- The path fits and is safe, the session may write, and the file opens. -/
def Chunk.accepted (chunk : Chunk read path) : Bool :=
  path.text.length < PATH_CAP && pathSafePolicy (text path.text) && chunk.mode = .mtls &&
    chunk.io.opens

/-- No byte is lost: none ends a C string, and the file system takes them all. -/
def Chunk.Kept (chunk : Chunk read path) : Prop :=
  NUL ∉ chunk.bytes ∧ chunk.bytes.length ≤ chunk.io.stored

/-- What a message adds to the file. -/
def Chunk.added (chunk : Chunk read path) : Bytes := (cBytes chunk.bytes).take chunk.io.stored

end

/-! ## C strings -/

theorem cBytes_plain {s : Bytes} (plain : NUL ∉ s) : cBytes s = s := by
  apply List.takeWhile_eq_self_iff.mpr
  intro c mem
  have other : c ≠ NUL := fun same => plain (same ▸ mem)
  simpa using other

theorem cBytes_line (path : WritePath) (s : Bytes) :
    cBytes (path.text ++ NEWLINE :: s) = path.text ++ NEWLINE :: cBytes s := by
  have plain : ∀ c ∈ path.text, decide (c ≠ NUL) = true := fun c mem => by
    simpa using (path.plain c mem).1
  rw [cBytes, List.takeWhile_append_of_pos plain]
  rfl

theorem cBytes_isPrefix (s : Bytes) : cBytes s <+: s := List.takeWhile_prefix _

theorem nul_notMem_cBytes (s : Bytes) : NUL ∉ cBytes s := by
  intro mem
  have other := List.mem_takeWhile_imp mem
  exact absurd other (by decide)

theorem cBytes_eq_iff {s : Bytes} : cBytes s = s ↔ NUL ∉ s :=
  ⟨fun same => same ▸ nul_notMem_cBytes s, cBytes_plain⟩

/-! ## One message -/

section

variable {read : JsonReader} {path : WritePath}

theorem unwrap_packs {line message : Bytes} (packs : Packs read line message)
    (plain : (cBytes line).head? = line.head?) : (unwrap read (cBytes message)).1 = cBytes line := by
  cases packs with
  | raw object =>
      rw [unwrap, if_neg (plain ▸ object)]
  | args env object whole reads args =>
      rw [unwrap, cBytes_plain whole, if_pos object, reads]
      simp only [args, Option.map_some, Option.getD_some]

/-- The gate does not look at what a write carries. -/
theorem cliAuthzAllowed_write (mode : CliAuthMode) (append : Bool) (payload : Option Str) :
    cliAuthzAllowed mode (some (cmdName append)) payload false = decide (mode = .mtls) := by
  cases append <;> cases mode <;> rfl

theorem takeWhile_line (path : WritePath) (s : Bytes) :
    (path.text ++ NEWLINE :: s).takeWhile (· ≠ NEWLINE) = path.text := by
  have plain : ∀ c ∈ path.text, decide (c ≠ NEWLINE) = true := fun c mem => by
    simpa using (path.plain c mem).2
  rw [List.takeWhile_append_of_pos plain]
  simp

/-- A message is refused whole, or adds what is left of its bytes. -/
theorem runCliWrite_chunk (mounts : List Str) (files : Files) (append : Bool)
    (chunk : Chunk read path) :
    runCliWrite read mounts chunk.mode files append chunk.message chunk.io =
      if chunk.accepted then
        (storeBytes files (fileKey mounts (text path.text)) append (cBytes chunk.bytes)
          chunk.io.stored, true)
      else (files, false) := by
  have start : (cBytes (path.text ++ NEWLINE :: chunk.bytes)).head? =
      (path.text ++ NEWLINE :: chunk.bytes).head? := by
    rw [cBytes_line]
    cases path.text <;> rfl
  have payload := unwrap_packs chunk.packs start
  rw [cBytes_line] at payload
  unfold runCliWrite
  generalize unwrap read (cBytes chunk.message) = unwrapped at payload ⊢
  obtain ⟨line, bare⟩ := unwrapped
  obtain rfl : line = path.text ++ NEWLINE :: cBytes chunk.bytes := payload
  have some : path.text ++ NEWLINE :: cBytes chunk.bytes ≠ [] := by simp
  have longer : path.text.length ≠ (path.text ++ NEWLINE :: cBytes chunk.bytes).length := by
    rw [List.length_append, List.length_cons]
    omega
  have content : (path.text ++ NEWLINE :: cBytes chunk.bytes).drop (path.text.length + 1) =
      cBytes chunk.bytes := by
    rw [← List.drop_drop, List.drop_left]
    rfl
  simp only [cliAuthzAllowed_write, if_neg some, fsWrite, takeWhile_line, if_neg longer, content]
  -- The checks of the code in its order, against those of `accepted`.
  cases mode : chunk.mode with
  | password => simp [Chunk.accepted, mode]
  | mtls =>
      by_cases fits : PATH_CAP ≤ path.text.length
      · simp [Chunk.accepted, fits, Nat.not_lt.mpr fits]
      · cases safe : pathSafePolicy (text path.text) <;> cases opens : chunk.io.opens <;>
          simp [Chunk.accepted, mode, fits, safe, opens, Nat.lt_of_not_le fits]

/-! ## A whole upload -/

theorem Chunk.added_isPrefix (chunk : Chunk read path) : chunk.added <+: chunk.bytes :=
  (List.take_prefix _ _).trans (cBytes_isPrefix _)

theorem Chunk.added_eq_iff (chunk : Chunk read path) : chunk.added = chunk.bytes ↔ chunk.Kept := by
  constructor
  · intro same
    have whole : cBytes chunk.bytes = chunk.bytes := by
      apply (cBytes_isPrefix _).eq_of_length_le
      rw [← congrArg List.length same]
      exact List.length_take_le' _ _
    refine ⟨cBytes_eq_iff.mp whole, ?_⟩
    have count := congrArg List.length same
    rw [added, whole, List.length_take] at count
    omega
  · intro kept
    rw [added, cBytes_plain kept.1, List.take_of_length_le kept.2]

theorem sendChunks_ok (mounts : List Str) (files : Files) (append : Bool)
    (chunks : List (Chunk read path)) :
    (sendChunks mounts files append chunks).2 = chunks.all Chunk.accepted := by
  induction chunks generalizing files append with
  | nil => rfl
  | cons chunk chunks ih =>
      rw [sendChunks, runCliWrite_chunk, List.all_cons]
      cases chunk.accepted
      · rfl
      · exact ih _ _

/-- Messages that are all accepted add to the file one after the other. -/
theorem sendChunks_appends (mounts : List Str) {files : Files} {before : Bytes}
    (holds : files (fileKey mounts (text path.text)) = some before)
    {chunks : List (Chunk read path)} (accepted : chunks.all Chunk.accepted = true) :
    (sendChunks mounts files true chunks).1 (fileKey mounts (text path.text)) =
      some (before ++ chunks.flatMap Chunk.added) := by
  induction chunks generalizing files before with
  | nil => simpa [sendChunks] using holds
  | cons chunk chunks ih =>
      rw [List.all_cons, Bool.and_eq_true] at accepted
      rw [sendChunks, runCliWrite_chunk, if_pos accepted.1, List.flatMap_cons, ← List.append_assoc]
      apply ih _ accepted.2
      simp [storeBytes, holds, Chunk.added]

theorem upload_holds (mounts : List Str) (files : Files) (first : Chunk read path)
    (rest : List (Chunk read path)) (accepted : (first :: rest).all Chunk.accepted = true) :
    (upload mounts files first rest).1 (fileKey mounts (text path.text)) =
      some ((first :: rest).flatMap Chunk.added) := by
  rw [List.all_cons, Bool.and_eq_true] at accepted
  rw [upload, sendChunks, runCliWrite_chunk, if_pos accepted.1, List.flatMap_cons]
  apply sendChunks_appends mounts _ accepted.2
  simp [storeBytes, Chunk.added]

theorem length_flatMap_added (chunks : List (Chunk read path)) :
    (chunks.flatMap Chunk.added).length ≤ (chunks.flatMap Chunk.bytes).length := by
  induction chunks with
  | nil => exact Nat.le_refl _
  | cons chunk chunks ih =>
      simp only [List.flatMap_cons, List.length_append]
      exact Nat.add_le_add chunk.added_isPrefix.length_le ih

/-- Prefixes give the whole only when each one is whole. -/
theorem flatMap_added_eq_iff {chunks : List (Chunk read path)} :
    chunks.flatMap Chunk.added = chunks.flatMap Chunk.bytes ↔ ∀ chunk ∈ chunks, chunk.Kept := by
  induction chunks with
  | nil => simp
  | cons chunk chunks ih =>
      rw [List.flatMap_cons, List.flatMap_cons, List.forall_mem_cons, ← ih, ← chunk.added_eq_iff]
      refine ⟨fun same => ?_, fun ⟨head, tail⟩ => by rw [head, tail]⟩
      have count := congrArg List.length same
      rw [List.length_append, List.length_append] at count
      have head := chunk.added_isPrefix.length_le
      have tail := length_flatMap_added chunks
      apply List.append_inj same
      omega

/-- After replies that all are `ok: true` the file is what was sent, and a download of it that
comes to its end gives that back. -/
def RoundTrip (mounts : List Str) (files : Files) (first : Chunk read path)
    (rest : List (Chunk read path)) : Prop :=
  let content := (first :: rest).flatMap Chunk.bytes
  let sent := upload mounts files first rest
  sent.2 = true →
    sent.1 (fileKey mounts (text path.text)) = some content ∧
      ∀ (dev : CatDevice) (arg : CatArg) (asks : List (CatIo × CatArg)) (data last : Bytes),
        dev.file = (fun p => sent.1 (fileKey mounts p)) → arg.text = text path.text →
        content.length < 2 ^ 31 → readFile dev arg asks 0 [] = .done data last →
          data ++ last = content

/-- A file goes up and comes down again if and only if a message is refused or none loses a byte
of its chunk. -/
theorem upload_roundTrip_iff (mounts : List Str) (files : Files) (first : Chunk read path)
    (rest : List (Chunk read path)) :
    RoundTrip mounts files first rest ↔
      ((∀ chunk ∈ first :: rest, chunk.accepted = true) → ∀ chunk ∈ first :: rest, chunk.Kept) := by
  have oks : (upload mounts files first rest).2 = true ↔
      ∀ chunk ∈ first :: rest, chunk.accepted = true := by
    rw [upload, sendChunks_ok, List.all_eq_true]
  have holds := upload_holds mounts files first rest
  rw [List.all_eq_true] at holds
  constructor
  · intro trip accepted
    have same := (trip (oks.mpr accepted)).1
    rw [holds accepted] at same
    exact flatMap_added_eq_iff.mp (Option.some.inj same)
  · intro kept ok
    have accepted := oks.mp ok
    have same := holds accepted
    rw [flatMap_added_eq_iff.mpr (kept accepted)] at same
    refine ⟨same, fun dev arg asks data last served named small read => ?_⟩
    have present : dev.file arg.text = some ((first :: rest).flatMap Chunk.bytes) := by
      rw [served, named]
      exact same
    have right := readFile_right present small asks (Nat.zero_le _) List.take_zero.symm
    rw [read] at right
    exact right.1

end

/-- `/a.bin`. -/
def aBin : WritePath where
  text := [0x2F, 0x61, 0x2E, 0x62, 0x69, 0x6E]
  plain := by
    simp only [List.forall_mem_cons, List.not_mem_nil, false_implies, implies_true, and_true]
    decide

/-- Three bytes for `/a.bin` as a payload. -/
def aBinChunk (middle : UInt8) (stored : Nat) : Chunk (fun _ => none) aBin where
  bytes := [0x61, middle, 0x62]
  message := aBin.text ++ NEWLINE :: [0x61, middle, 0x62]
  packs := .raw (show some 0x2F ≠ some BRACE by decide)
  mode := .mtls
  io := ⟨true, stored⟩

/-- A NUL ends the content, and a write that takes one byte of three is a success. -/
theorem upload_cut :
    (upload [] (fun _ => none) (aBinChunk 0 3) []).2 = true ∧
      (upload [] (fun _ => none) (aBinChunk 0 3) []).1 (none, "/a.bin".toList) = some [0x61] ∧
      (upload [] (fun _ => none) (aBinChunk 0x0A 1) []).2 = true ∧
      (upload [] (fun _ => none) (aBinChunk 0x0A 1) []).1 (none, "/a.bin".toList) = some [0x61] ∧
      ¬RoundTrip [] (fun _ => none) (aBinChunk 0 3) [] ∧
      ¬RoundTrip [] (fun _ => none) (aBinChunk 0x0A 1) [] := by
  have name : fileKey [] (text aBin.text) = (none, "/a.bin".toList) := by decide +kernel
  have cut : (upload [] (fun _ => none) (aBinChunk 0 3) []).1 (none, "/a.bin".toList) =
      some [0x61] := by decide +kernel
  have short : (upload [] (fun _ => none) (aBinChunk 0x0A 1) []).1 (none, "/a.bin".toList) =
      some [0x61] := by decide +kernel
  refine ⟨by decide +kernel, cut, by decide +kernel, short, fun trip => ?_, fun trip => ?_⟩
  · have whole := (trip (by decide +kernel)).1
    rw [name, cut] at whole
    exact absurd whole (by decide)
  · have whole := (trip (by decide +kernel)).1
    rw [name, short] at whole
    exact absurd whole (by decide)

end Thesada.Cli
