import Mathlib.Data.List.Nodup
import Thesada.Library.Machine
import Thesada.Library.Word32
import Thesada.Sd.LogSlots

/-!
# Log files on the card

Rows go to the current log file until the next one would pass the limit; then a rotation claims
the lowest free slot. The size of the file is counted beside it and read back at boot only, where
the highest log file is taken up again unless it has reached the limit.

A path in the root is written as the name in it. The operator can delete a file at any time; an
append to a file that is gone makes it again. Every step on the card works.
-/

namespace Thesada.Sd

open CString Machine

structure DirEntry where
  name : Str
  isDir : Bool
  content : Str
  deriving DecidableEq

/-- The entries of the root of the card. -/
abbrev Card := List DirEntry

namespace Card

def lookup (card : Card) (name : Str) : Option DirEntry :=
  card.find? fun e => strcaseeq e.name name

def has (card : Card) (name : Str) : Bool := (card.lookup name).isSome

/-- `FILE_WRITE`: what the file held is gone. -/
def write (card : Card) (name content : Str) : Card :=
  if card.has name then
    card.map fun e => if strcaseeq e.name name && !e.isDir then { e with content } else e
  else card ++ [⟨name, false, content⟩]

/-- `FILE_APPEND`. -/
def append (card : Card) (name content : Str) : Card :=
  if card.has name then
    card.map fun e =>
      if strcaseeq e.name name && !e.isDir then { e with content := e.content ++ content } else e
  else card ++ [⟨name, false, content⟩]

def remove (card : Card) (name : Str) : Card :=
  card.filter fun e => e.isDir || !strcaseeq e.name name

end Card

def HEADER : Str := "timestamp,sensor,data\n".toList

def scanLogs (card : Card) : SdLogSlots :=
  card.foldl (fun s e => sdLogSlotsAdd s e.name e.isDir) sdLogSlotsClear

structure SdLog where
  card : Card
  /-- Empty when no log file is open. -/
  logPath : Str
  logBytes : Nat
  /-- 0 without a limit, and from a failed rotation up to the next boot. -/
  maxBytes : Nat
  /-- A rotation has failed in this run. -/
  rotationFailed : Bool

/-- The loop of `_openNextLog` over the free slots. Each slot is higher, so as many turns as
slots are enough. -/
def openFrom (card : Card) (slots : SdLogSlots) : (turns : Nat) → Nat → Option Nat
  | 0, _ => none
  | turns + 1, i =>
      if i = 0 then none
      else if card.has (logName i) then openFrom card slots turns (sdLogSlotsNextFree slots (i + 1))
      else some i

def openNextLog (s : SdLog) (slots : SdLogSlots) : SdLog × Bool :=
  match openFrom s.card slots SD_LOG_MAX_INDEX (sdLogSlotsNextFree slots 1) with
  | none => (s, false)
  | some i =>
      ({ s with
          card := s.card.write (logName i) HEADER
          logPath := logName i
          logBytes := HEADER.length }, true)

def resumeOrOpen (s : SdLog) : SdLog × Bool :=
  let slots := scanLogs s.card
  let hi := sdLogSlotsHighest slots
  if hi = 0 then openNextLog s slots
  else
    match s.card.lookup (logName hi) with
    | none => openNextLog s slots
    | some f =>
        let sz := f.content.length % 2 ^ 32
        if s.maxBytes = 0 || sz < s.maxBytes then
          ({ s with logPath := logName hi, logBytes := sz }, true)
        else openNextLog s slots

def rotate (s : SdLog) : SdLog :=
  match openNextLog s (scanLogs s.card) with
  | (s', true) => s'
  | (_, false) => { s with maxBytes := 0, rotationFailed := true }

/-- The byte limit of `sd.max_file_kb`. -/
def limitOf (maxKb : Nat) : Nat := if 0 < maxKb then maxKb * 1024 % 2 ^ 32 else 0

/-- `begin` after a reboot. -/
def boot (maxKb : Nat) (s : SdLog) : SdLog :=
  (resumeOrOpen { s with logPath := [], logBytes := 0, maxBytes := limitOf maxKb }).1

def rowText (ts sensor json : Str) : Str := ts ++ ',' :: (sensor ++ ',' :: (json ++ ['\n']))

def appendRow (s : SdLog) (row : Str) (rowSize : Nat) : SdLog :=
  { s with
    card := s.card.append s.logPath row
    logBytes := Word32.add s.logBytes rowSize }

def logEvent (s : SdLog) (ts sensor json : Str) : SdLog :=
  let rowSize := (ts.length + 1 + sensor.length + 1 + json.length + 1) % 2 ^ 32
  if s.logPath = [] then s
  else if 0 < s.maxBytes && s.maxBytes < Word32.add s.logBytes rowSize then
    appendRow (rotate s) (rowText ts sensor json) rowSize
  else appendRow s (rowText ts sensor json) rowSize

inductive SdEvent where
  | boot
  | row (ts sensor json : Str)
  | delete (name : Str)

def sdStep (maxKb : Nat) (s : SdLog) : SdEvent → SdLog
  | .boot => boot maxKb s
  | .row ts sensor json => logEvent s ts sensor json
  | .delete name => { s with card := s.card.remove name }

/-- A card before the first boot. -/
def SdLog.off (card : Card) : SdLog := ⟨card, [], 0, 0, false⟩

/-- What FAT allows the names of a root to be: no two differ in case only. -/
structure FatNames (card : Card) : Prop where
  distinct : (card.map fun e => e.name.map Char.toLower).Nodup
  plain : ∀ f ∈ card, f.name.contains '/' = false

/-- What FAT allows a root to hold. -/
structure FatRoot (card : Card) : Prop extends FatNames card where
  sizes : ∀ f ∈ card, f.content.length < 2 ^ 32

/-! ## What is promised of a step -/

/-- Without a limit every size is under it. -/
def Under (limit size : Nat) : Prop := limit = 0 ∨ size < limit

/-- The file is there after the step with all it held, unless it was deleted. -/
def NeverTruncated (maxKb : Nat) (s : SdLog) (e : SdEvent) : Prop :=
  ∀ f ∈ s.card, (∃ name, e = .delete name ∧ strcaseeq f.name name = true) ∨
    ∃ f' ∈ (sdStep maxKb s e).card, f'.name = f.name ∧ f.content <+: f'.content

/-- Until a rotation has failed a file is within the limit, or as it was, or it is a fresh file
with one row that does not fit. -/
def GrowsWithin (maxKb : Nat) (s : SdLog) (e : SdEvent) : Prop :=
  (sdStep maxKb s e).rotationFailed = false → limitOf maxKb ≠ 0 →
    ∀ f ∈ (sdStep maxKb s e).card, f.content.length ≤ limitOf maxKb ∨ f ∈ s.card ∨
      ∃ ts sensor json, e = .row ts sensor json ∧ f.content = HEADER ++ rowText ts sensor json

/-- A reboot that starts a file finds the one that was written before gone or at the limit. -/
def BootKeeps (maxKb : Nat) (s : SdLog) : SdEvent → Prop
  | .boot => (boot maxKb s).card ≠ s.card →
      ∀ f ∈ s.card, strcaseeq f.name s.logPath = true → s.logPath ≠ [] →
        ¬Under (limitOf maxKb) f.content.length
  | _ => True

def SdSound (maxKb : Nat) (s : SdLog) (e : SdEvent) : Prop :=
  NeverTruncated maxKb s e ∧ GrowsWithin maxKb s e ∧ BootKeeps maxKb s e

/-- The log file with the highest number. -/
structure Highest (card : Card) (h : DirEntry) : Prop where
  mem : h ∈ card
  file : h.isDir = false
  named : sdLogIndex h.name ≠ 0
  highest : ∀ g ∈ card, g.isDir = false → sdLogIndex g.name ≤ sdLogIndex h.name

/-- The count of a row does not wrap, and no boot finds the file that was written under the limit
but the highest log file at it. -/
def Regular (maxKb : Nat) (s : SdLog) : SdEvent → Prop
  | .boot => ∀ f ∈ s.card, strcaseeq f.name s.logPath = true → s.logPath ≠ [] →
      Under (limitOf maxKb) f.content.length →
        ∀ h, Highest s.card h → Under (limitOf maxKb) h.content.length
  | .row ts sensor json =>
      max s.logBytes HEADER.length + (rowText ts sensor json).length < 2 ^ 32
  | .delete _ => True

/-! ## Names -/

theorem strcaseeq_symm {a b : Str} (same : strcaseeq a b = true) : strcaseeq b a = true :=
  strcaseeq_iff.mpr (strcaseeq_iff.mp same).symm

theorem strcaseeq_trans {a b c : Str} (first : strcaseeq a b = true)
    (second : strcaseeq b c = true) : strcaseeq a c = true :=
  strcaseeq_iff.mpr ((strcaseeq_iff.mp first).trans (strcaseeq_iff.mp second))

/-- The names of the log slots have no slash, and have the number of their slot. -/
theorem logName_facts {i : Nat} (bound : i ≤ SD_LOG_MAX_INDEX) :
    (logName i).contains '/' = false ∧ sdLogIndex (logName i) = i ∧ logName i ≠ [] := by
  have hundreds : i / 100 < 10 := Nat.div_lt_of_lt_mul (Nat.lt_succ_of_le bound)
  have tens : i / 10 % 10 < 10 := Nat.mod_lt _ (by decide)
  have ones : i % 10 < 10 := Nat.mod_lt _ (by decide)
  obtain ⟨digit, value, -, plain⟩ := digitChar_facts hundreds
  obtain ⟨digit', value', -, plain'⟩ := digitChar_facts tens
  obtain ⟨digit'', value'', -, plain''⟩ := digitChar_facts ones
  have slashless : ∀ c ∈ logName i, c ≠ '/' := by
    simp [logName_eq, plain, plain', plain'']
  refine ⟨?_, ?_, List.cons_ne_nil _ _⟩
  · apply Bool.eq_false_iff.mpr
    exact fun slash => slashless '/' (List.contains_iff_mem.mp slash) rfl
  · have base : (logName i).rtakeWhile (· ≠ '/') = logName i :=
      List.rtakeWhile_eq_self_iff.mpr fun c mem => decide_eq_true (slashless c mem)
    have letters : letter 'l' 'l' ∧ letter 'o' 'o' ∧ letter 'g' 'g' ∧ letter 'c' 'c' ∧
        letter 's' 's' ∧ letter 'v' 'v' := by decide
    rw [sdLogIndex, base, logName_eq]
    simp only [baseIndex, letters, digit, digit', digit'', value, value', value'', Bool.and_true,
      decide_true, if_true]
    omega

/-- A file with a number has the name of that slot. -/
theorem strcaseeq_logName {name : Str} (plain : name.contains '/' = false)
    (pos : sdLogIndex name ≠ 0) : strcaseeq name (logName (sdLogIndex name)) = true := by
  have base : name.rtakeWhile (· ≠ '/') = name := by
    rw [List.rtakeWhile_eq_self_iff]
    intro c mem
    rw [decide_eq_true_eq]
    rintro rfl
    rw [← Bool.not_eq_true, List.contains_iff_mem] at plain
    exact plain mem
  have spelled := (baseIndex_name pos).2
  rw [strcaseeq_iff, logName_lower _ (sdLogIndex_le name)]
  rw [base] at spelled
  rw [spelled, sdLogIndex, base]

/-! ## The card -/

namespace Card

variable {card : Card} {name content : Str}

theorem lookup_some {f : DirEntry} (found : card.lookup name = some f) :
    f ∈ card ∧ strcaseeq f.name name = true := by
  have matching := List.find?_some (p := fun e : DirEntry => strcaseeq e.name name) found
  exact ⟨List.mem_of_find?_eq_some found, matching⟩

theorem has_false_iff : card.has name = false ↔ ∀ f ∈ card, strcaseeq f.name name = false := by
  simp [has, lookup]

theorem eq_of_strcaseeq (names : FatNames card) {f g : DirEntry} (mem : f ∈ card) (mem' : g ∈ card)
    (same : strcaseeq f.name g.name = true) : f = g :=
  List.inj_on_of_nodup_map names.distinct mem mem' (strcaseeq_iff.mp same)

/-- The one entry with a name is what is looked up. -/
theorem lookup_eq (names : FatNames card) {f : DirEntry} (mem : f ∈ card)
    (same : strcaseeq f.name name = true) : card.lookup name = some f := by
  cases found : card.lookup name with
  | none =>
      have no := List.find?_eq_none.mp found f mem
      exact absurd same no
  | some g =>
      obtain ⟨mem', same'⟩ := lookup_some found
      rw [eq_of_strcaseeq names mem' mem (strcaseeq_trans same' (strcaseeq_symm same))]

theorem write_new (new : card.has name = false) :
    card.write name content = card ++ [⟨name, false, content⟩] := by
  rw [write, new]
  rfl

theorem names_add (names : FatNames card) (new : card.has name = false)
    (plain : name.contains '/' = false) : FatNames (card ++ [⟨name, false, content⟩]) where
  distinct := by
    rw [List.map_append, List.map_singleton, List.nodup_append_comm, List.singleton_append,
      List.nodup_cons]
    refine ⟨?_, names.distinct⟩
    intro taken
    obtain ⟨f, mem, same⟩ := List.mem_map.mp taken
    have other := has_false_iff.mp new f mem
    rw [strcaseeq_iff.mpr same] at other
    cases other
  plain := by
    intro f mem
    obtain old | new := List.mem_append.mp mem
    · exact names.plain f old
    · rw [List.mem_singleton.mp new]
      exact plain

/-- An append changes what the file of that name holds, and makes it when there is none. -/
theorem append_cases (card : Card) (name content : Str) :
    card.has name = false ∧ card.append name content = card ++ [⟨name, false, content⟩] ∨
      card.append name content = card.map fun e =>
        if strcaseeq e.name name && !e.isDir then { e with content := e.content ++ content }
        else e := by
  cases there : card.has name with
  | false => exact .inl ⟨rfl, by rw [append, there]; rfl⟩
  | true => exact .inr (by rw [append, there]; rfl)

theorem names_append (names : FatNames card) (plain : name.contains '/' = false) :
    FatNames (card.append name content) := by
  obtain ⟨new, added⟩ | mapped := append_cases card name content
  · rw [added]
    exact names_add names new plain
  · rw [mapped]
    refine ⟨?_, ?_⟩
    · rw [List.map_map]
      have same : ((fun e : DirEntry => e.name.map Char.toLower) ∘ fun e : DirEntry =>
          if strcaseeq e.name name && !e.isDir then { e with content := e.content ++ content }
          else e) = fun e => e.name.map Char.toLower := by
        funext e
        simp only [Function.comp_apply]
        split <;> rfl
      rw [same]
      exact names.distinct
    · intro f mem
      obtain ⟨e, old, rfl⟩ := List.mem_map.mp mem
      split
      · exact names.plain e old
      · exact names.plain e old

theorem names_remove (names : FatNames card) : FatNames (card.remove name) where
  distinct := names.distinct.sublist (List.filter_sublist.map _)
  plain := fun f mem => names.plain f (List.mem_of_mem_filter mem)

/-- What an append leaves: an entry as it was, the file of that name with more, or a new file. -/
theorem mem_append {f : DirEntry} (mem : f ∈ card.append name content) :
    f ∈ card ∨ strcaseeq f.name name = true ∧
      ((∃ e ∈ card, strcaseeq e.name name = true ∧ e.isDir = false ∧
          f = { e with content := e.content ++ content }) ∨
        card.has name = false ∧ f = ⟨name, false, content⟩) := by
  obtain ⟨new, added⟩ | mapped := append_cases card name content
  · rw [added] at mem
    obtain old | last := List.mem_append.mp mem
    · exact .inl old
    · have new' := List.mem_singleton.mp last
      exact .inr ⟨by rw [new', strcaseeq_iff], .inr ⟨new, new'⟩⟩
  · rw [mapped] at mem
    obtain ⟨e, old, rfl⟩ := List.mem_map.mp mem
    split
    · rename_i same
      rw [Bool.and_eq_true, Bool.not_eq_true'] at same
      exact .inr ⟨same.1, .inl ⟨e, old, same.1, same.2, rfl⟩⟩
    · exact .inl old

/-- Nothing is lost by an append. -/
theorem append_keeps {f : DirEntry} (mem : f ∈ card) :
    ∃ f' ∈ card.append name content, f'.name = f.name ∧ f.content <+: f'.content := by
  obtain ⟨new, added⟩ | mapped := append_cases card name content
  · rw [added]
    exact ⟨f, List.mem_append_left _ mem, rfl, List.prefix_refl _⟩
  · rw [mapped]
    refine ⟨_, List.mem_map_of_mem mem, ?_⟩
    split
    · exact ⟨rfl, List.prefix_append _ _⟩
    · exact ⟨rfl, List.prefix_refl _⟩

end Card

/-! ## The steps -/

theorem openFrom_some {card : Card} {slots : SdLogSlots} {turns start i : Nat}
    (low : start ≤ SD_LOG_MAX_INDEX) (found : openFrom card slots turns start = some i) :
    i ≠ 0 ∧ i ≤ SD_LOG_MAX_INDEX ∧ card.has (logName i) = false := by
  induction turns generalizing start with
  | zero => cases found
  | succ turns ih =>
      rw [openFrom] at found
      split at found
      · cases found
      · rename_i pos
        split at found
        · exact ih (nextFreeIn_le slots _) found
        · rename_i free
          cases found
          exact ⟨pos, low, Bool.eq_false_iff.mpr free⟩

/-- A new log file has a name that was free, and holds the header. -/
theorem openNextLog_cases (s : SdLog) (slots : SdLogSlots) :
    openNextLog s slots = (s, false) ∨
      ∃ i, i ≠ 0 ∧ i ≤ SD_LOG_MAX_INDEX ∧ s.card.has (logName i) = false ∧
        openNextLog s slots =
          ({ s with
              card := s.card ++ [⟨logName i, false, HEADER⟩]
              logPath := logName i
              logBytes := HEADER.length }, true) := by
  unfold openNextLog
  split
  · exact .inl rfl
  · rename_i i found
    obtain ⟨pos, bound, new⟩ := openFrom_some (nextFreeIn_le slots _) found
    exact .inr ⟨i, pos, bound, new, by rw [Card.write_new new]⟩

theorem scanLogs_file (card : Card) (i : Nat) :
    (scanLogs card).file i = true ↔
      ∃ e ∈ card, e.isDir = false ∧ sdLogIndex e.name ≠ 0 ∧ sdLogIndex e.name = i := by
  have each (s : SdLogSlots) : (card.foldl (fun s e => sdLogSlotsAdd s e.name e.isDir) s).file i =
      true ↔ s.file i = true ∨
        ∃ e ∈ card, e.isDir = false ∧ sdLogIndex e.name ≠ 0 ∧ sdLogIndex e.name = i := by
    induction card generalizing s with
    | nil => simp
    | cons e card ih =>
        rw [List.foldl_cons, ih, add_file]
        simp only [List.mem_cons, exists_eq_or_imp]
        exact or_assoc
  rw [scanLogs, each]
  simp [sdLogSlotsClear]

/-- The highest slot of a listing is that of the highest log file. -/
theorem scanLogs_highest {card : Card} {h : DirEntry}
    (highest : Highest card h) : sdLogSlotsHighest (scanLogs card) = sdLogIndex h.name := by
  obtain ⟨above, found⟩ := highestFrom_spec (scanLogs card) SD_LOG_MAX_INDEX
  have marked : (scanLogs card).file (sdLogIndex h.name) = true :=
    (scanLogs_file card _).mpr ⟨h, highest.mem, highest.file, highest.named, rfl⟩
  have atLeast : sdLogIndex h.name ≤ sdLogSlotsHighest (scanLogs card) := by
    by_contra less
    have free := above _ (Nat.lt_of_not_le less) (sdLogIndex_le h.name)
    rw [marked] at free
    cases free
  have pos : sdLogSlotsHighest (scanLogs card) ≠ 0 := by
    have := highest.named
    omega
  obtain ⟨e, mem, file, -, index⟩ := (scanLogs_file card _).mp (found pos).1
  have atMost := highest.highest e mem file
  rw [index] at atMost
  exact Nat.le_antisymm atMost atLeast

theorem exists_highest {card : Card} (some : sdLogSlotsHighest (scanLogs card) ≠ 0) :
    ∃ h, Highest card h := by
  obtain ⟨above, found⟩ := highestFrom_spec (scanLogs card) SD_LOG_MAX_INDEX
  obtain ⟨h, mem, file, named, index⟩ := (scanLogs_file card _).mp (found some).1
  refine ⟨h, mem, file, named, ?_⟩
  intro g mem' file'
  by_contra higher
  have free := above (sdLogIndex g.name) (by omega) (sdLogIndex_le g.name)
  have marked := (scanLogs_file card (sdLogIndex g.name)).mpr ⟨g, mem', file', by omega, rfl⟩
  rw [marked] at free
  cases free

/-- Where there is a log file there is a highest one. -/
theorem highest_of_mem {card : Card} {f : DirEntry} (mem : f ∈ card) (file : f.isDir = false)
    (named : sdLogIndex f.name ≠ 0) : ∃ h, Highest card h := by
  apply exists_highest
  intro none
  have free := (highestFrom_spec (scanLogs card) SD_LOG_MAX_INDEX).1 (sdLogIndex f.name)
    (Nat.lt_of_le_of_lt (Nat.le_of_eq none) (Nat.pos_of_ne_zero named)) (sdLogIndex_le f.name)
  rw [(scanLogs_file card _).mpr ⟨f, mem, file, named, rfl⟩] at free
  cases free

/-- A boot takes up the highest log file when it is under the limit, and else opens a new one. -/
theorem resumeOrOpen_cases (s : SdLog) (names : FatNames s.card) :
    (∃ h, Highest s.card h ∧ (s.maxBytes = 0 ∨ h.content.length % 2 ^ 32 < s.maxBytes) ∧
      resumeOrOpen s =
        ({ s with
            logPath := logName (sdLogIndex h.name)
            logBytes := h.content.length % 2 ^ 32 }, true)) ∨
      (∀ h, Highest s.card h → s.maxBytes ≠ 0 ∧ s.maxBytes ≤ h.content.length % 2 ^ 32) ∧
        resumeOrOpen s = openNextLog s (scanLogs s.card) := by
  by_cases none : sdLogSlotsHighest (scanLogs s.card) = 0
  · refine .inr ⟨?_, by simp only [resumeOrOpen, if_pos none]⟩
    intro h highest
    rw [scanLogs_highest highest] at none
    exact absurd none highest.named
  · obtain ⟨h, highest⟩ := exists_highest none
    have only {g : DirEntry} (other : Highest s.card g) : g = h := by
      have same : sdLogIndex g.name = sdLogIndex h.name :=
        Nat.le_antisymm (highest.highest g other.mem other.file)
          (other.highest h highest.mem highest.file)
      apply Card.eq_of_strcaseeq names other.mem highest.mem
      refine strcaseeq_trans (strcaseeq_logName (names.plain g other.mem) other.named) ?_
      rw [same]
      exact strcaseeq_symm (strcaseeq_logName (names.plain h highest.mem) highest.named)
    have there : s.card.lookup (logName (sdLogIndex h.name)) = some h :=
      Card.lookup_eq names highest.mem
        (strcaseeq_logName (names.plain h highest.mem) highest.named)
    have opened : resumeOrOpen s =
        if s.maxBytes = 0 || h.content.length % 2 ^ 32 < s.maxBytes then
          ({ s with
              logPath := logName (sdLogIndex h.name)
              logBytes := h.content.length % 2 ^ 32 }, true)
        else openNextLog s (scanLogs s.card) := by
      simp only [resumeOrOpen, scanLogs_highest highest, if_neg highest.named, there]
    rw [opened]
    split
    · rename_i under
      rw [Bool.or_eq_true, decide_eq_true_eq, decide_eq_true_eq] at under
      exact .inl ⟨h, highest, under, rfl⟩
    · rename_i full
      rw [Bool.or_eq_true, decide_eq_true_eq, decide_eq_true_eq, not_or] at full
      refine .inr ⟨?_, rfl⟩
      intro g other
      rw [only other]
      exact ⟨full.1, Nat.not_lt.mp full.2⟩

/-! ## The count beside the file -/

/-- The log file is one that can be rotated, and until a rotation has failed its size is within
the count. -/
structure SdLog.Counts (maxKb : Nat) (s : SdLog) : Prop where
  names : FatNames s.card
  path : s.logPath ≠ [] → ∃ i, i ≠ 0 ∧ i ≤ SD_LOG_MAX_INDEX ∧ s.logPath = logName i
  current : s.logPath ≠ [] → ∀ f ∈ s.card, strcaseeq f.name s.logPath = true →
    f.isDir = false ∧ sdLogIndex f.name ≠ 0
  sizes : s.rotationFailed = false → ∀ f ∈ s.card, f.content.length < 2 ^ 32
  limit : s.rotationFailed = false → s.logPath ≠ [] → s.maxBytes = limitOf maxKb
  counted : s.rotationFailed = false → s.logPath ≠ [] →
    ∀ f ∈ s.card, strcaseeq f.name s.logPath = true → f.content.length ≤ s.logBytes

namespace SdLog.Counts

variable {maxKb : Nat} {s : SdLog} (h : s.Counts maxKb)

include h

/-- A new log file is counted from its header on. -/
theorem opened {i : Nat} (pos : i ≠ 0) (bound : i ≤ SD_LOG_MAX_INDEX)
    (new : s.card.has (logName i) = false)
    (limit : s.rotationFailed = false → s.maxBytes = limitOf maxKb) :
    Counts maxKb { s with
      card := s.card ++ [⟨logName i, false, HEADER⟩]
      logPath := logName i
      logBytes := HEADER.length } := by
  obtain ⟨plain, index, -⟩ := logName_facts bound
  have only {f : DirEntry} (mem : f ∈ s.card ++ [⟨logName i, false, HEADER⟩])
      (same : strcaseeq f.name (logName i) = true) : f = ⟨logName i, false, HEADER⟩ := by
    obtain old | last := List.mem_append.mp mem
    · rw [Card.has_false_iff.mp new f old] at same
      cases same
    · exact List.mem_singleton.mp last
  refine ⟨Card.names_add h.names new plain, fun _ => ⟨i, pos, bound, rfl⟩, ?_, ?_,
    fun sound _ => limit sound, ?_⟩
  · intro _ f mem same
    rw [only mem same]
    refine ⟨rfl, ?_⟩
    rw [index]
    exact pos
  · intro sound f mem
    obtain old | last := List.mem_append.mp mem
    · exact h.sizes sound f old
    · rw [List.mem_singleton.mp last]
      show HEADER.length < 2 ^ 32
      decide
  · intro _ _ f mem same
    rw [only mem same]

theorem delete (name : Str) : (sdStep maxKb s (.delete name)).Counts maxKb where
  names := Card.names_remove h.names
  path := h.path
  current := fun some f mem => h.current some f (List.mem_of_mem_filter mem)
  sizes := fun sound f mem => h.sizes sound f (List.mem_of_mem_filter mem)
  limit := h.limit
  counted := fun sound some f mem => h.counted sound some f (List.mem_of_mem_filter mem)

/-- A row that is counted without wrapping is counted with the file. -/
theorem appended {row : Str} {rowSize : Nat} (size : rowSize = row.length)
    (some : s.logPath ≠ []) (fits : s.logBytes + row.length < 2 ^ 32) :
    (appendRow s row rowSize).Counts maxKb := by
  obtain ⟨i, pos, bound, path⟩ := h.path some
  obtain ⟨plain, index, -⟩ := logName_facts bound
  rw [← path] at plain index
  have sum : Word32.add s.logBytes rowSize = s.logBytes + row.length := by
    rw [size]
    exact Word32.add_of_lt fits
  -- the entries of the new card that are not as before
  have grown {f : DirEntry} (mem : f ∈ s.card.append s.logPath row) :
      f ∈ s.card ∨ f.isDir = false ∧ sdLogIndex f.name ≠ 0 ∧
        (s.rotationFailed = false → f.content.length ≤ s.logBytes + row.length) := by
    obtain old | ⟨-, ⟨e, old, same, file, rfl⟩ | ⟨-, rfl⟩⟩ := Card.mem_append mem
    · exact .inl old
    · refine .inr ⟨file, (h.current some e old same).2, ?_⟩
      intro sound
      rw [List.length_append]
      exact Nat.add_le_add_right (h.counted sound some e old same) _
    · exact .inr ⟨rfl, by rw [index]; exact pos, fun _ => Nat.le_add_left _ _⟩
  refine ⟨Card.names_append h.names plain, h.path, ?_, ?_, h.limit, ?_⟩
  · intro _ f mem same
    obtain old | ⟨file, named, -⟩ := grown mem
    · exact h.current some f old same
    · exact ⟨file, named⟩
  · intro sound f mem
    obtain old | ⟨-, -, within⟩ := grown mem
    · exact h.sizes sound f old
    · exact Nat.lt_of_le_of_lt (within sound) fits
  · intro sound _ f mem same
    show f.content.length ≤ Word32.add s.logBytes rowSize
    rw [sum]
    obtain old | ⟨-, -, within⟩ := grown mem
    · exact Nat.le_add_right_of_le (h.counted sound some f old same)
    · exact within sound

end SdLog.Counts

theorem rotate_cases (s : SdLog) :
    rotate s = { s with maxBytes := 0, rotationFailed := true } ∨
      ∃ i, i ≠ 0 ∧ i ≤ SD_LOG_MAX_INDEX ∧ s.card.has (logName i) = false ∧
        rotate s =
          { s with
            card := s.card ++ [⟨logName i, false, HEADER⟩]
            logPath := logName i
            logBytes := HEADER.length } := by
  obtain none | ⟨i, pos, bound, new, opened⟩ := openNextLog_cases s (scanLogs s.card)
  · exact .inl (by rw [rotate, none])
  · exact .inr ⟨i, pos, bound, new, by rw [rotate, opened]⟩

/-- A boot opens at most a new file, and only where the highest log file is not under the
limit. -/
theorem boot_cases {maxKb : Nat} {s : SdLog} (h : s.Counts maxKb) :
    (boot maxKb s).Counts maxKb ∧ (boot maxKb s).rotationFailed = s.rotationFailed ∧
      ((boot maxKb s).card = s.card ∨
        (∃ i, (boot maxKb s).card = s.card ++ [⟨logName i, false, HEADER⟩]) ∧
          ∀ f, Highest s.card f → ¬Under (limitOf maxKb) f.content.length) := by
  generalize start : ({ s with logPath := [], logBytes := 0, maxBytes := limitOf maxKb } : SdLog) =
    fresh
  have counts : fresh.Counts maxKb := by
    rw [← start]
    exact ⟨h.names, fun some => absurd rfl some, fun some => absurd rfl some, h.sizes,
      fun _ some => absurd rfl some, fun _ some => absurd rfl some⟩
  have limit : fresh.maxBytes = limitOf maxKb := by rw [← start]
  have card : fresh.card = s.card := by rw [← start]
  have failed : fresh.rotationFailed = s.rotationFailed := by rw [← start]
  rw [boot, start, ← card, ← failed]
  obtain ⟨f, highest, -, resumed⟩ | ⟨full, opens⟩ := resumeOrOpen_cases fresh counts.names
  · rw [resumed]
    refine ⟨⟨counts.names, ?_, ?_, counts.sizes, fun _ _ => limit, ?_⟩, rfl, .inl rfl⟩
    · exact fun _ => ⟨sdLogIndex f.name, highest.named, sdLogIndex_le _, rfl⟩
    all_goals
      have only {g : DirEntry} (mem : g ∈ fresh.card)
          (same : strcaseeq g.name (logName (sdLogIndex f.name)) = true) : g = f :=
        Card.eq_of_strcaseeq counts.names mem highest.mem (strcaseeq_trans same
          (strcaseeq_symm (strcaseeq_logName (counts.names.plain f highest.mem) highest.named)))
    · intro _ g mem same
      rw [only mem same]
      exact ⟨highest.file, highest.named⟩
    · intro sound _ g mem same
      rw [only mem same]
      exact Nat.le_of_eq (Nat.mod_eq_of_lt (counts.sizes sound f highest.mem)).symm
  · rw [opens]
    obtain none | ⟨i, pos, bound, new, opened⟩ := openNextLog_cases fresh (scanLogs fresh.card)
    · rw [none]
      exact ⟨counts, rfl, .inl rfl⟩
    · rw [opened]
      refine ⟨counts.opened pos bound new fun _ => limit, rfl, .inr ⟨⟨i, rfl⟩, ?_⟩⟩
      intro f highest under
      obtain ⟨limited, reached⟩ := full f highest
      rw [limit] at limited reached
      obtain none | less := under
      · exact limited none
      · exact Nat.lt_irrefl _
          (Nat.lt_of_lt_of_le less (Nat.le_trans reached (Nat.mod_le _ _)))

/-- What a row is counted as. -/
theorem rowText_length (ts sensor json : Str) :
    (rowText ts sensor json).length = ts.length + 1 + sensor.length + 1 + json.length + 1 := by
  simp only [rowText, List.length_append, List.length_cons, List.length_nil]
  omega

/-- A row goes to the current file when it fits or there is no limit, and else to a fresh one or,
where no slot is free, to the current file without a limit. -/
theorem logEvent_cases {s : SdLog} {ts sensor json : Str}
    (fits : max s.logBytes HEADER.length + (rowText ts sensor json).length < 2 ^ 32) :
    logEvent s ts sensor json = s ∧ s.logPath = [] ∨
      s.logPath ≠ [] ∧ ∃ size, size = (rowText ts sensor json).length ∧
        ((s.maxBytes = 0 ∨ s.logBytes + (rowText ts sensor json).length ≤ s.maxBytes) ∧
            logEvent s ts sensor json = appendRow s (rowText ts sensor json) size ∨
          logEvent s ts sensor json = appendRow (rotate s) (rowText ts sensor json) size) := by
  by_cases closed : s.logPath = []
  · exact .inl ⟨by rw [logEvent, if_pos closed], closed⟩
  · have size : (ts.length + 1 + sensor.length + 1 + json.length + 1) % 2 ^ 32 =
        (rowText ts sensor json).length := by
      rw [rowText_length] at fits ⊢
      exact Nat.mod_eq_of_lt (by omega)
    have sum : Word32.add s.logBytes (rowText ts sensor json).length =
        s.logBytes + (rowText ts sensor json).length :=
      Word32.add_of_lt (by unfold Word32.size; omega)
    refine .inr ⟨closed, _, rfl, ?_⟩
    simp only [logEvent, if_neg closed, size, sum, Bool.and_eq_true, decide_eq_true_eq]
    split
    · exact .inr rfl
    · exact .inl ⟨by omega, rfl⟩

/-! ## Runs -/

/-- Every entry is there with all it held. -/
def Card.Keeps (card card' : Card) : Prop :=
  ∀ f ∈ card, ∃ f' ∈ card', f'.name = f.name ∧ f.content <+: f'.content

theorem Card.Keeps.refl (card : Card) : card.Keeps card :=
  fun f mem => ⟨f, mem, rfl, List.prefix_refl _⟩

theorem Card.keeps_added (card added : Card) : card.Keeps (card ++ added) :=
  fun f mem => ⟨f, List.mem_append_left _ mem, rfl, List.prefix_refl _⟩

theorem openNextLog_keeps (s : SdLog) (slots : SdLogSlots) :
    s.card.Keeps (openNextLog s slots).1.card := by
  obtain none | ⟨i, -, -, -, opened⟩ := openNextLog_cases s slots
  · rw [none]
    exact .refl _
  · rw [opened]
    exact Card.keeps_added _ _

theorem boot_keeps (maxKb : Nat) (s : SdLog) : s.card.Keeps (boot maxKb s).card := by
  rw [boot]
  generalize start : ({ s with logPath := [], logBytes := 0, maxBytes := limitOf maxKb } : SdLog) =
    fresh
  have card : s.card = fresh.card := by rw [← start]
  rw [card]
  simp only [resumeOrOpen]
  split
  · exact openNextLog_keeps fresh _
  · split
    · exact openNextLog_keeps fresh _
    · split
      · exact .refl _
      · exact openNextLog_keeps fresh _

theorem logEvent_keeps (s : SdLog) (ts sensor json : Str) :
    s.card.Keeps (logEvent s ts sensor json).card := by
  simp only [logEvent]
  split
  · exact .refl _
  · split
    · intro f mem
      have rotated : ∃ g ∈ (rotate s).card, g.name = f.name ∧ f.content <+: g.content := by
        obtain failed | ⟨i, -, -, -, opened⟩ := rotate_cases s
        · rw [failed]
          exact Card.Keeps.refl _ f mem
        · rw [opened]
          exact Card.keeps_added _ _ f mem
      obtain ⟨g, mem', name, before⟩ := rotated
      obtain ⟨g', mem'', name', after⟩ := Card.append_keeps mem'
      exact ⟨g', mem'', name'.trans name, before.trans after⟩
    · exact fun f mem => Card.append_keeps mem

/-- No step truncates a file, whatever the run was. -/
theorem never_truncated (maxKb : Nat) (s : SdLog) (e : SdEvent) : NeverTruncated maxKb s e := by
  intro f mem
  cases e with
  | boot => exact .inr (boot_keeps maxKb s f mem)
  | row ts sensor json => exact .inr (logEvent_keeps s ts sensor json f mem)
  | delete name =>
      by_cases gone : strcaseeq f.name name = true
      · exact .inl ⟨name, rfl, gone⟩
      · refine .inr ⟨f, List.mem_filter.mpr ⟨mem, ?_⟩, rfl, List.prefix_refl _⟩
        rw [Bool.not_eq_true] at gone
        rw [gone]
        simp

theorem header_le_limit {maxKb : Nat} (fits : maxKb * 1024 < 2 ^ 32)
    (limited : limitOf maxKb ≠ 0) : HEADER.length ≤ limitOf maxKb := by
  have size : HEADER.length = 22 := by decide
  rw [size]
  unfold limitOf at *
  split at limited
  · rename_i pos
    rw [if_pos pos, Nat.mod_eq_of_lt fits]
    omega
  · exact absurd rfl limited

/-- What a row does, one case for each branch. -/
theorem row_sound {maxKb : Nat} (fits : maxKb * 1024 < 2 ^ 32) {s : SdLog} (h : s.Counts maxKb)
    {ts sensor json : Str} (regular : Regular maxKb s (.row ts sensor json)) :
    (logEvent s ts sensor json).Counts maxKb ∧ GrowsWithin maxKb s (.row ts sensor json) := by
  obtain ⟨same, -⟩ | ⟨some, size, length, ⟨room, same⟩ | same⟩ := logEvent_cases regular
  · refine ⟨by rw [same]; exact h, ?_⟩
    intro _ _ f mem
    rw [sdStep, same] at mem
    exact .inr (.inl mem)
  · have within : s.logBytes + (rowText ts sensor json).length < 2 ^ 32 :=
      Nat.lt_of_le_of_lt (Nat.add_le_add_right (Nat.le_max_left _ _) _) regular
    refine ⟨same ▸ h.appended length some within, ?_⟩
    intro sound limited f mem
    rw [sdStep, same] at sound mem
    rw [h.limit sound some] at room
    obtain none | room := room
    · exact absurd none limited
    · obtain old | ⟨-, ⟨e, old, name, -, rfl⟩ | ⟨-, rfl⟩⟩ := Card.mem_append mem
      · exact .inr (.inl old)
      · refine .inl (Nat.le_trans ?_ room)
        rw [List.length_append]
        exact Nat.add_le_add_right (h.counted sound some e old name) _
      · exact .inl (Nat.le_trans (Nat.le_add_left _ _) room)
  · obtain failed | ⟨i, pos, bound, new, opened⟩ := rotate_cases s
    · have after : SdLog.Counts maxKb { s with maxBytes := 0, rotationFailed := true } :=
        ⟨h.names, h.path, h.current, fun sound => Bool.noConfusion sound,
          fun sound => Bool.noConfusion sound, fun sound => Bool.noConfusion sound⟩
      have within : s.logBytes + (rowText ts sensor json).length < 2 ^ 32 :=
        Nat.lt_of_le_of_lt (Nat.add_le_add_right (Nat.le_max_left _ _) _) regular
      rw [failed] at same
      refine ⟨same ▸ after.appended length some within, ?_⟩
      intro sound
      rw [sdStep, same] at sound
      cases sound
    · have within : HEADER.length + (rowText ts sensor json).length < 2 ^ 32 :=
        Nat.lt_of_le_of_lt (Nat.add_le_add_right (Nat.le_max_right _ _) _) regular
      have after := h.opened pos bound new fun sound => h.limit sound some
      rw [opened] at same
      refine ⟨same ▸ after.appended length (logName_facts bound).2.2 within, ?_⟩
      intro _ limited f mem
      rw [sdStep, same] at mem
      obtain old | ⟨-, ⟨e, old, name, -, rfl⟩ | ⟨absent, -⟩⟩ := Card.mem_append mem
      · obtain before | fresh := List.mem_append.mp old
        · exact .inr (.inl before)
        · refine .inl ?_
          rw [List.mem_singleton.mp fresh]
          exact header_le_limit fits limited
      · obtain before | fresh := List.mem_append.mp old
        · rw [Card.has_false_iff.mp new e before] at name
          cases name
        · refine .inr (.inr ⟨ts, sensor, json, rfl, ?_⟩)
          rw [List.mem_singleton.mp fresh]
      · have there := Card.has_false_iff.mp absent ⟨logName i, false, HEADER⟩
          (List.mem_append_right _ (List.mem_singleton.mpr rfl))
        rw [strcaseeq_iff.mpr rfl] at there
        cases there

theorem boot_sound {maxKb : Nat} (fits : maxKb * 1024 < 2 ^ 32) {s : SdLog} (h : s.Counts maxKb)
    (regular : Regular maxKb s .boot) :
    GrowsWithin maxKb s .boot ∧ BootKeeps maxKb s .boot := by
  obtain ⟨-, -, same | ⟨⟨i, added⟩, full⟩⟩ := boot_cases h
  · refine ⟨?_, fun changed => absurd same changed⟩
    intro _ _ f mem
    rw [sdStep, same] at mem
    exact .inr (.inl mem)
  · constructor
    · intro _ limited f mem
      rw [sdStep, added] at mem
      obtain old | fresh := List.mem_append.mp mem
      · exact .inr (.inl old)
      · refine .inl ?_
        rw [List.mem_singleton.mp fresh]
        exact header_le_limit fits limited
    · intro _ f mem name some under
      -- a log file there means a highest one, which is then under the limit as well
      obtain ⟨file, named⟩ := h.current some f mem name
      obtain ⟨top, highest⟩ := highest_of_mem mem file named
      exact full top highest (regular f mem name some under top highest)

theorem off_counts (maxKb : Nat) {card : Card} (root : FatRoot card) :
    (SdLog.off card).Counts maxKb where
  names := root.toFatNames
  path := fun some => absurd rfl some
  current := fun some => absurd rfl some
  sizes := fun _ => root.sizes
  limit := fun _ some => absurd rfl some
  counted := fun _ some => absurd rfl some

/-- No run truncates a log file. In a run whose counts do not wrap and whose boots do not find
the file that was written under the limit but the highest log file at it, no file grows past the
limit but by one row that does not fit a fresh file, until a rotation has failed, and a boot
starts a file only when the one that was written is gone or has reached the limit. -/
theorem sd_runs (maxKb : Nat) (fits : maxKb * 1024 < 2 ^ 32) (card : Card) (root : FatRoot card)
    (es : List SdEvent) :
    Meets (sdStep maxKb) (NeverTruncated maxKb) (.off card) es ∧
      (Meets (sdStep maxKb) (Regular maxKb) (.off card) es →
        Meets (sdStep maxKb) (SdSound maxKb) (.off card) es) := by
  refine ⟨meets_of_forall (never_truncated maxKb) _ es, ?_⟩
  intro regular
  have each (s : SdLog) (e : SdEvent) (h : s.Counts maxKb) (ok : Regular maxKb s e) :
      (sdStep maxKb s e).Counts maxKb ∧ SdSound maxKb s e := by
    have kept := never_truncated maxKb s e
    cases e with
    | boot => exact ⟨(boot_cases h).1, kept, boot_sound fits h ok⟩
    | row ts sensor json =>
        obtain ⟨counts, grows⟩ := row_sound fits h ok
        exact ⟨counts, kept, grows, trivial⟩
    | delete name =>
        refine ⟨h.delete name, kept, ?_, trivial⟩
        exact fun _ _ f mem => .inr (.inl (List.mem_of_mem_filter mem))
  exact Meets.yields each (off_counts maxKb root) regular

/-- A boot on an empty card, and a row. -/
def firstRow : List SdEvent :=
  [.boot, .row "ms/120".toList "battery".toList "{}".toList]

theorem sd_runs_firstRow :
    Meets (sdStep 1) (NeverTruncated 1) (.off []) firstRow ∧
      Meets (sdStep 1) (SdSound 1) (.off []) firstRow := by
  have root : FatRoot [] := ⟨⟨List.nodup_nil, by simp⟩, by simp⟩
  obtain ⟨kept, sound⟩ := sd_runs 1 (by decide) [] root firstRow
  refine ⟨kept, sound ⟨?_, ?_, trivial⟩⟩
  · intro f mem
    cases mem
  · show max _ _ + _ < 2 ^ 32
    decide +kernel

/-- `log001.csv` was deleted and `log002.csv` is full. -/
def fullSecond : Card := [⟨logName 2, false, List.replicate 1024 'x'⟩]

/-- The first boot writes `log001.csv`. The second finds it almost empty and opens
`log003.csv`. -/
theorem sd_fullSecond :
    ¬∀ (maxKb : Nat) (card : Card), maxKb * 1024 < 2 ^ 32 → FatRoot card →
      ∀ es, Meets (sdStep maxKb) (SdSound maxKb) (.off card) es := by
  intro all
  have root : FatRoot fullSecond :=
    ⟨⟨by decide +kernel, by decide +kernel⟩, by decide +kernel⟩
  have second := (all 1 fullSecond (by decide) root [.boot, .boot]).2.1.2.2
  have changed : (boot 1 (boot 1 (.off fullSecond))).card ≠ (boot 1 (.off fullSecond)).card := by
    decide +kernel
  refine second changed ⟨logName 1, false, HEADER⟩ ?_ ?_ ?_ (.inr ?_)
  · show _ ∈ (boot 1 (.off fullSecond)).card
    decide +kernel
  · decide +kernel
  · decide +kernel
  · decide +kernel

end Thesada.Sd
