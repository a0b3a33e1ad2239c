import Thesada.Library.SlashPath

/-!
# Wildcard removes

`fs.rm` with a wildcard in the last segment removes every file of one directory that matches.
`globRmProtected` is to keep `/config.json` and `/ca.crt` out of its reach. It compares the
directory as it is spelled, and LittleFS resolves several spellings to its root.

A directory is what it lists, in any order, and the mounts are the prefixes that `registerFS` was
given; none of them is LittleFS.
-/

namespace Thesada.Shell

open CString SlashPath

/-- `pathSafePolicy`: absolute, no traversal, no empty segment. -/
def pathSafePolicy (path : Str) : Bool :=
  path.head? = some '/' && (strstr "..".toList path).isNone && (strstr "//".toList path).isNone

def globHasWildcard (s : Str) : Bool := '*' ∈ s || '?' ∈ s

/-- The loop of `globMatch`: `star` is the pattern after the last star and the place in the
name it was tried from. -/
def globLoop : (turns : Nat) → (pat name : Str) → (star : Option (Str × Str)) → Option Bool
  | 0, _, _, _ => none
  | _ + 1, pat, [], _ => some (pat.dropWhile (· == '*')).isEmpty
  | turns + 1, pat, c :: rest, star =>
      if pat.head? = some '?' ∨ pat.head? = some c then globLoop turns pat.tail rest star
      else if pat.head? = some '*' then
        globLoop turns pat.tail (c :: rest) (some (pat.tail, c :: rest))
      else
        match star with
        | some (after, mark) => globLoop turns after mark.tail (some (after, mark.tail))
        | none => some false

/-- Turns that are enough for a pattern and a name. -/
def globTurns (pat name : Str) : Nat :=
  (name.length + 2) * (pat.length + name.length + 1)

def globMatch (pat name : Str) : Bool := (globLoop (globTurns pat name) pat name none).getD false

/-- `globSplit`: the directory and the pattern of a path. -/
def globSplit (path : Str) (dirCap patCap : Nat) : Option (Str × Str) :=
  let pat := (path.reverse.takeWhile (· != '/')).reverse
  let dir := path.take (path.length - (pat.length + 1))
  if '/' ∉ path ∨ pat.length = 0 ∨ patCap ≤ pat.length ∨ globHasWildcard dir then none
  else
    -- the pattern sits at the root
    let dir := if dir.length = 0 then path.take 1 else dir
    if dirCap ≤ dir.length then none else some (dir, pat)

/-- The files a wildcard must leave alone at the LittleFS root. -/
def PROTECTED : List Str := ["config.json".toList, "ca.crt".toList]

def globRmProtected (dir name : Str) : Bool := dir = ['/'] && name ∈ PROTECTED

/-! ## The command -/

def GLOB_DIR_CAP : Nat := 96
def GLOB_PAT_CAP : Nat := 64
def GLOB_FULL_CAP : Nat := 160

/-- The filesystem of a path: a mount, or LittleFS. -/
def resolveFS (mounts : List Str) (path : Str) : Option Str := mounts.find? (serves · path)

/-- The path on that filesystem. -/
def stripPrefix (mounts : List Str) (path : Str) : Str :=
  match resolveFS mounts path with
  | none => path
  | some m =>
      let rest := path.drop m.length
      if rest = [] ∨ rest = ['/'] then ['/'] else rest

/-- An entry of a directory. -/
structure Entry where
  name : Str
  isDirectory : Bool
  isName : IsName name

/-- The path of an entry. -/
def joined (dir name : Str) : Str :=
  dir ++ (if dir.getLast? = some '/' then [] else ['/']) ++ name

/-- The path an entry is removed at, clipped to its buffer. -/
def fullPath (dir name : Str) : Str := (joined dir name).take (GLOB_FULL_CAP - 1)

structure RmRun where
  /-- The filesystem and the path of each remove. -/
  removes : List (Option Str × Str)
  out : Str

/-- The entries a pattern takes. -/
def globbed (pat : Str) (entries : List Entry) : List Entry :=
  entries.filter fun e => !e.isDirectory && globMatch pat e.name

/-- `_rmGlob` on the words after the command; `listing` is what the directory holds, when it
is one, and `removes` answers each remove. -/
def rmGlob (mounts : List Str) (path : Str) (args : List Str) (listing : Option (List Entry))
    (removes : Str → Bool) : RmRun :=
  match globSplit path GLOB_DIR_CAP GLOB_PAT_CAP with
  | none => { removes := [], out := "Wildcards are allowed in the last path segment only".toList }
  | some (dir, pat) =>
      if "--yes".toList ∉ args then
        { removes := [], out := "Wildcard remove needs --yes  (fs.rm <path> --yes)".toList }
      else
        match listing with
        | none => { removes := [], out := "Not a directory or not found".toList }
        | some entries =>
            let hit := globbed pat entries
            let skipped := hit.filter fun e => globRmProtected dir e.name
            let paths := (hit.filter fun e => !globRmProtected dir e.name).map fun e =>
              stripPrefix mounts (fullPath dir e.name)
            let removed := paths.filter removes
            { removes := paths.map (resolveFS mounts dir, ·)
              out := "Removed ".toList ++ (toString removed.length).toList ++ ", failed ".toList ++
                (toString (paths.length - removed.length)).toList ++ ", protected ".toList ++
                (toString skipped.length).toList }

/-- `fs.rm`. Without a wildcard the path itself is removed. -/
def cmdRm (mounts : List Str) (path : Str) (args : List Str) (listing : Option (List Entry))
    (removes : Str → Bool) : RmRun :=
  if !pathSafePolicy path then { removes := [], out := "Invalid path".toList }
  else if globHasWildcard path then rmGlob mounts path args listing removes
  else
    let fsPath := stripPrefix mounts path
    { removes := [(resolveFS mounts path, fsPath)]
      out := if removes fsPath then "Removed ".toList ++ fsPath
        else "Failed to remove (file not found or directory)".toList }

/-! ## The matcher comes to an end -/

/-- How far the loop can still fall back. -/
def globFallback (name : Str) : Option (Str × Str) → Nat
  | none => name.length + 1
  | some (_, mark) => mark.length

section

variable {P N : Nat} {pat name rest : Str} {c p : Char} {star : Option (Str × Str)}

/-- The pattern and the name are suffixes within the bounds, and the mark is not past the name. -/
structure GlobBounds (P N : Nat) (pat name : Str) (star : Option (Str × Str)) : Prop where
  pat_le : pat.length ≤ P
  name_le : name.length ≤ N
  marked : ∀ after mark, star = some (after, mark) →
    after.length ≤ P ∧ name.length ≤ mark.length ∧ mark.length ≤ N

/-- What falls on each turn: the fall-backs count more than all the characters together. -/
def globRank (P N : Nat) (pat name : Str) (star : Option (Str × Str)) : Nat :=
  globFallback name star * (P + N + 1) + pat.length + name.length

/-- A character matches one of the pattern. -/
theorem GlobBounds.next (h : GlobBounds P N (p :: pat) (c :: rest) star) :
    GlobBounds P N pat rest star ∧
      globRank P N pat rest star < globRank P N (p :: pat) (c :: rest) star := by
  constructor
  · refine ⟨Nat.le_of_succ_le h.pat_le, Nat.le_of_succ_le h.name_le, ?_⟩
    intro after mark same
    obtain ⟨le, inside, below⟩ := h.marked after mark same
    exact ⟨le, Nat.le_of_succ_le inside, below⟩
  · have fallback : globFallback rest star ≤ globFallback (c :: rest) star := by
      cases star with
      | none => exact Nat.succ_le_succ (Nat.le_succ _)
      | some s => exact Nat.le_refl _
    have scaled := Nat.mul_le_mul_right (P + N + 1) fallback
    simp only [globRank, List.length_cons]
    omega

/-- A star of the pattern sets the mark. -/
theorem GlobBounds.mark (h : GlobBounds P N (p :: pat) (c :: rest) star) :
    GlobBounds P N pat (c :: rest) (some (pat, c :: rest)) ∧
      globRank P N pat (c :: rest) (some (pat, c :: rest)) <
        globRank P N (p :: pat) (c :: rest) star := by
  have pat_le : pat.length ≤ P := Nat.le_of_succ_le h.pat_le
  constructor
  · refine ⟨pat_le, h.name_le, ?_⟩
    intro after mark same
    cases same
    exact ⟨pat_le, Nat.le_refl _, h.name_le⟩
  · have fallback : rest.length + 1 ≤ globFallback (c :: rest) star := by
      cases star with
      | none => exact Nat.le_succ _
      | some s => exact (h.marked s.1 s.2 rfl).2.1
    have scaled := Nat.mul_le_mul_right (P + N + 1) fallback
    show (rest.length + 1) * (P + N + 1) + pat.length + (rest.length + 1) < _
    simp only [globRank, List.length_cons]
    omega

/-- A mismatch falls back to the mark, and the mark moves on. -/
theorem GlobBounds.back {after mark : Str} {m : Char}
    (h : GlobBounds P N pat (c :: rest) (some (after, m :: mark))) :
    GlobBounds P N after mark (some (after, mark)) ∧
      globRank P N after mark (some (after, mark)) <
        globRank P N pat (c :: rest) (some (after, m :: mark)) := by
  obtain ⟨le, -, below⟩ := h.marked after (m :: mark) rfl
  have mark_le : mark.length ≤ N := Nat.le_of_succ_le below
  constructor
  · refine ⟨le, mark_le, ?_⟩
    intro after' mark' same
    cases same
    exact ⟨le, Nat.le_refl _, mark_le⟩
  · have scaled : (mark.length + 1) * (P + N + 1) =
        mark.length * (P + N + 1) + (P + N + 1) := Nat.succ_mul _ _
    simp only [globRank, globFallback, List.length_cons]
    omega

/-- The loop ends within its turns: it moves on, or falls back to a later mark. -/
theorem globLoop_ends {turns : Nat} (h : GlobBounds P N pat name star)
    (enough : globRank P N pat name star < turns) :
    ∃ answer, globLoop turns pat name star = some answer := by
  induction turns generalizing pat name star with
  | zero => exact absurd enough (Nat.not_lt_zero _)
  | succ turns ih =>
      -- The rank of the next turn fits the turns that are left.
      have go {pat' name' : Str} {star' : Option (Str × Str)}
          (next : GlobBounds P N pat' name' star' ∧
            globRank P N pat' name' star' < globRank P N pat name star) :
          ∃ answer, globLoop turns pat' name' star' = some answer :=
        ih next.1 (Nat.lt_of_lt_of_le next.2 (Nat.le_of_lt_succ enough))
      cases name with
      | nil => exact ⟨_, rfl⟩
      | cons c rest =>
          unfold globLoop
          split
          · next one =>
              cases pat with
              | nil => simp at one
              | cons p pat => exact go h.next
          · split
            · next star_here =>
                cases pat with
                | nil => simp at star_here
                | cons p pat => exact go h.mark
            · cases star with
              | none => exact ⟨false, rfl⟩
              | some s =>
                  obtain ⟨after, mark⟩ := s
                  cases mark with
                  | nil => exact absurd (h.marked after [] rfl).2.1 (Nat.not_succ_le_zero _)
                  | cons m mark => exact go h.back

end

/-- `globMatch` is the answer of its loop. -/
theorem globMatch_ends (pat name : Str) :
    globLoop (globTurns pat name) pat name none = some (globMatch pat name) := by
  have enough : globRank pat.length name.length pat name none < globTurns pat name := by
    have split : (name.length + 2) * (pat.length + name.length + 1) =
        (name.length + 1) * (pat.length + name.length + 1) + (pat.length + name.length + 1) :=
      Nat.succ_mul _ _
    simp only [globRank, globFallback, globTurns]
    omega
  have bounds : GlobBounds pat.length name.length pat name none :=
    ⟨Nat.le_refl _, Nat.le_refl _, fun after mark same => by cases same⟩
  obtain ⟨answer, ends⟩ := globLoop_ends bounds enough
  rw [globMatch, ends, Option.getD_some]

/-! ## What a remove reaches -/

theorem globSplit_dir {path dir pat : Str} {dirCap patCap : Nat}
    (split : globSplit path dirCap patCap = some (dir, pat)) : dir.length < dirCap := by
  unfold globSplit at split
  simp only [Option.ite_none_left_eq_some, Option.some.injEq, Prod.mk.injEq] at split
  obtain ⟨-, fits, same, -⟩ := split
  rw [← same]
  exact Nat.not_le.mp fits

/-- The directory without a slash at its end. -/
def dirBase (dir : Str) : Str := if dir.getLast? = some '/' then dir.dropLast else dir

theorem dirBase_slash (base : Str) : dirBase (base ++ ['/']) = base := by
  rw [dirBase, if_pos List.getLast?_concat, List.dropLast_concat]

theorem dirBase_cases (dir : Str) :
    dir.getLast? ≠ some '/' ∧ dirBase dir = dir ∨ dir = dirBase dir ++ ['/'] := by
  by_cases slash : dir.getLast? = some '/'
  · obtain ⟨base, rfl⟩ := List.getLast?_eq_some_iff.mp slash
    rw [dirBase_slash]
    exact Or.inr rfl
  · exact Or.inl ⟨slash, if_neg slash⟩

theorem joined_eq (dir name : Str) : joined dir name = dirBase dir ++ '/' :: name := by
  obtain ⟨open_end, same⟩ | slash := dirBase_cases dir
  · rw [joined, if_neg open_end, same, List.append_assoc]
    rfl
  · rw [slash, dirBase_slash, joined, if_pos List.getLast?_concat, List.append_nil,
      List.append_assoc]
    rfl

theorem steps_dirBase (dir : Str) : steps (dirBase dir) = steps dir := by
  obtain ⟨-, same⟩ | slash := dirBase_cases dir
  · rw [same]
  · rw [slash, dirBase_slash, steps_append]
    exact (List.append_nil _).symm

theorem dirBase_length (dir : Str) : (dirBase dir).length ≤ dir.length := by
  unfold dirBase
  split
  · rw [List.length_dropLast]
    exact Nat.sub_le _ _
  · exact Nat.le_refl _

/-- A mount that does not lead to a directory does not lead to it without its last slash. -/
theorem serves_dirBase {mount dir : Str} (h : serves mount dir = false) :
    serves mount (dirBase dir) = false := by
  obtain ⟨-, same⟩ | slash := dirBase_cases dir
  · rwa [same]
  · rw [Bool.eq_false_iff] at h ⊢
    intro leads
    apply h
    rw [serves_iff] at leads
    rw [slash, serves_iff]
    obtain same | ⟨rest, more⟩ := leads
    · exact Or.inr ⟨[], by rw [same]⟩
    · exact Or.inr ⟨rest ++ ['/'], by rw [more, List.append_assoc]; rfl⟩

/-- The file LittleFS takes for a path of a directory that is not on a mount. -/
theorem steps_stripPrefix {mounts : List Str} {dir name : Str}
    (unmounted : resolveFS mounts dir = none) (h : IsName name) :
    steps (stripPrefix mounts (dirBase dir ++ '/' :: name)) =
      if dirBase dir ++ '/' :: name ∈ mounts then [] else steps dir ++ [name] := by
  have apart : ∀ m ∈ mounts, serves m dir = false := by
    intro m mem
    have not_found := List.find?_eq_none.mp unmounted m mem
    simpa using not_found
  have only (m : Str) (mem : m ∈ mounts) : serves m (dirBase dir ++ '/' :: name) = true ↔
      m = dirBase dir ++ '/' :: name :=
    serves_file h (serves_dirBase (apart m mem))
  unfold stripPrefix
  cases found : resolveFS mounts (dirBase dir ++ '/' :: name) with
  | none =>
      have outside : dirBase dir ++ '/' :: name ∉ mounts := by
        intro mem
        have not_found := List.find?_eq_none.mp found _ mem
        exact not_found ((only _ mem).mpr rfl)
      rw [if_neg outside, ← steps_dirBase dir]
      exact h.steps_append _
  | some m =>
      have mem := List.mem_of_find?_eq_some found
      have leads : serves m (dirBase dir ++ '/' :: name) = true :=
        List.find?_some (p := (serves · (dirBase dir ++ '/' :: name))) found
      have at_file := (only m mem).mp leads
      rw [at_file] at mem
      rw [if_pos mem, at_file]
      simp only [List.drop_length, true_or, if_true]
      rfl

/-- The clipped path ends in a name again, the entry's own unless that is longer than any
protected one. -/
theorem fullPath_name {dir name : Str} (short : dir.length < GLOB_DIR_CAP) (h : IsName name) :
    ∃ clipped, fullPath dir name = dirBase dir ++ '/' :: clipped ∧ IsName clipped ∧
      (clipped = name ∨ clipped ∉ PROTECTED ∧ name ∉ PROTECTED) := by
  have base := dirBase_length dir
  obtain ⟨room, left, long⟩ : ∃ room, GLOB_FULL_CAP - 1 = (dirBase dir).length + (room + 1) ∧
      63 ≤ room := by
    refine ⟨GLOB_FULL_CAP - 2 - (dirBase dir).length, ?_, ?_⟩
    · unfold GLOB_FULL_CAP
      unfold GLOB_DIR_CAP at short
      omega
    · unfold GLOB_FULL_CAP
      unfold GLOB_DIR_CAP at short
      omega
  have whole : fullPath dir name = dirBase dir ++ '/' :: name.take room := by
    rw [fullPath, joined_eq, left, List.take_length_add_append]
    rfl
  have limit : ∀ text ∈ PROTECTED, text.length ≤ 11 := by decide
  by_cases fits : name.length ≤ room
  · rw [List.take_of_length_le fits] at whole
    exact ⟨name, whole, h, Or.inl rfl⟩
  · have size : (name.take room).length = room := by
      rw [List.length_take]
      omega
    refine ⟨name.take room, whole, ⟨?_, ?_, ?_⟩, Or.inr ⟨?_, ?_⟩⟩
    · intro empty
      rw [empty, List.length_nil] at size
      omega
    · intro slash
      exact h.plain (List.mem_of_mem_take slash)
    · intro dot
      rw [dot] at size
      change 1 = room at size
      omega
    · intro mem
      have bound := limit _ mem
      omega
    · intro mem
      have bound := limit _ mem
      omega

/-- A remove of a file that LittleFS keeps the device's configuration or trust in. -/
def ReachesProtected (remove : Option Str × Str) : Prop :=
  remove.1 = none ∧ ∃ name ∈ PROTECTED, steps remove.2 = [name]

/-- Which removes of a wildcard reach a protected file. -/
theorem reachesProtected_iff {mounts : List Str} {dir : Str} (short : dir.length < GLOB_DIR_CAP)
    {name : Str} (h : IsName name) :
    ReachesProtected (resolveFS mounts dir, stripPrefix mounts (fullPath dir name)) ↔
      resolveFS mounts dir = none ∧ steps dir = [] ∧ name ∈ PROTECTED ∧
        joined dir name ∉ mounts := by
  obtain ⟨clipped, whole, real, same⟩ := fullPath_name short h
  unfold ReachesProtected
  rw [whole]
  refine and_congr_right fun unmounted => ?_
  show (∃ text ∈ PROTECTED, steps (stripPrefix mounts (dirBase dir ++ '/' :: clipped)) = [text]) ↔ _
  rw [steps_stripPrefix unmounted real]
  constructor
  · rintro ⟨text, mem, reached⟩
    split at reached
    · cases reached
    next outside =>
    obtain ⟨at_root, rfl⟩ : steps dir = [] ∧ clipped = text := by
      have one := congrArg List.length reached
      rw [List.length_append] at one
      have empty : steps dir = [] := List.length_eq_zero_iff.mp (by simpa using one)
      rw [empty] at reached
      exact ⟨empty, (List.cons.inj reached).1⟩
    obtain rfl | ⟨other, -⟩ := same
    · rw [joined_eq]
      exact ⟨at_root, mem, outside⟩
    · exact absurd mem other
  · rintro ⟨at_root, mem, outside⟩
    obtain rfl | ⟨-, other⟩ := same
    · rw [joined_eq] at outside
      rw [if_neg outside, at_root]
      exact ⟨clipped, mem, rfl⟩
    · exact absurd mem other

/-- The wildcard is harmless: the directory is spelled `/`, or lies on a mount, or is not the
LittleFS root, or no protected file in it matches. A mount at the very path of the file also
keeps it. -/
def WildcardSpares (mounts : List Str) (path : Str) (args : List Str)
    (listing : Option (List Entry)) : Prop :=
  ∀ dir pat entries, pathSafePolicy path = true →
    globSplit path GLOB_DIR_CAP GLOB_PAT_CAP = some (dir, pat) → "--yes".toList ∈ args →
    listing = some entries →
    dir = ['/'] ∨ resolveFS mounts dir ≠ none ∨ steps dir ≠ [] ∨
      ∀ e ∈ entries, e.isDirectory = false → globMatch pat e.name = true → e.name ∈ PROTECTED →
        joined dir e.name ∈ mounts

/-- The removes of one directory reach a protected file exactly when one of its entries leads
there and is not skipped. -/
theorem removes_spare_iff {mounts : List Str} {dir : Str} (short : dir.length < GLOB_DIR_CAP)
    (pat : Str) (entries : List Entry) :
    (∀ r ∈ (((globbed pat entries).filter fun e => !globRmProtected dir e.name).map fun e =>
        stripPrefix mounts (fullPath dir e.name)).map (resolveFS mounts dir, ·),
      ¬ReachesProtected r) ↔
    (dir = ['/'] ∨ resolveFS mounts dir ≠ none ∨ steps dir ≠ [] ∨
      ∀ e ∈ entries, e.isDirectory = false → globMatch pat e.name = true → e.name ∈ PROTECTED →
        joined dir e.name ∈ mounts) := by
  have each : (∀ r ∈ (((globbed pat entries).filter fun e => !globRmProtected dir e.name).map
        fun e => stripPrefix mounts (fullPath dir e.name)).map (resolveFS mounts dir, ·),
      ¬ReachesProtected r) ↔
      ∀ e ∈ entries, e.isDirectory = false → globMatch pat e.name = true →
        globRmProtected dir e.name = false →
        ¬ReachesProtected (resolveFS mounts dir, stripPrefix mounts (fullPath dir e.name)) := by
    simp only [globbed, List.mem_map, List.mem_filter, Bool.and_eq_true, Bool.not_eq_true']
    constructor
    · intro all e mem file hit open_name
      exact all _ ⟨_, ⟨e, ⟨⟨mem, file, hit⟩, open_name⟩, rfl⟩, rfl⟩
    · rintro all r ⟨_, ⟨e, ⟨⟨mem, file, hit⟩, open_name⟩, rfl⟩, rfl⟩
      exact all e mem file hit open_name
  rw [each]
  constructor
  · intro all
    by_cases at_root : dir = ['/']
    · exact Or.inl at_root
    by_cases unmounted : resolveFS mounts dir = none
    · by_cases spelled : steps dir = []
      · refine Or.inr (Or.inr (Or.inr ?_))
        intro e mem file hit prot
        have open_name : globRmProtected dir e.name = false := by
          simp [globRmProtected, at_root]
        have spared := all e mem file hit open_name
        rw [reachesProtected_iff short e.isName] at spared
        by_contra outside
        exact spared ⟨unmounted, spelled, prot, outside⟩
      · exact Or.inr (Or.inr (Or.inl spelled))
    · exact Or.inr (Or.inl unmounted)
  · intro harmless e mem file hit open_name reached
    obtain ⟨unmounted, spelled, prot, outside⟩ :=
      (reachesProtected_iff short e.isName).mp reached
    obtain at_root | mounted | elsewhere | none_there := harmless
    · rw [globRmProtected, at_root] at open_name
      simp [prot] at open_name
    · exact mounted unmounted
    · exact elsewhere spelled
    · exact outside (none_there e mem file hit prot)

/-- A wildcard `fs.rm` leaves the files that LittleFS resolves to `/config.json` and `/ca.crt`
alone exactly when the wildcard is harmless. -/
theorem cmdRm_spares_iff (mounts : List Str) {path : Str} (wildcard : globHasWildcard path = true)
    (args : List Str) (listing : Option (List Entry)) (removes : Str → Bool) :
    (∀ r ∈ (cmdRm mounts path args listing removes).removes, ¬ReachesProtected r) ↔
      WildcardSpares mounts path args listing := by
  unfold cmdRm WildcardSpares
  cases safe : pathSafePolicy path with
  | false => simp
  | true =>
      simp only [Bool.not_true, Bool.false_eq_true, if_false, if_pos wildcard, forall_const, rmGlob]
      cases split : globSplit path GLOB_DIR_CAP GLOB_PAT_CAP with
      | none => simp
      | some parts =>
          obtain ⟨dir, pat⟩ := parts
          by_cases yes : "--yes".toList ∈ args
          · simp only [yes, not_true_eq_false, if_false, Option.some.injEq, Prod.mk.injEq]
            cases listing with
            | none => simp
            | some entries =>
                dsimp only
                rw [removes_spare_iff (globSplit_dir split) pat entries]
                constructor
                · rintro harmless _ _ _ ⟨rfl, rfl⟩ - ⟨⟩
                  exact harmless
                · intro harmless
                  exact harmless dir pat entries ⟨rfl, rfl⟩ trivial rfl
          · constructor
            · intro _ _ _ _ _ given
              exact absurd given yes
            · intro _ r mem
              simp only [if_pos yes] at mem
              cases mem

/-- The configuration, as the directory lists it. -/
def configEntry : Entry where
  name := "config.json".toList
  isDirectory := false
  isName := ⟨by decide, by decide, by decide⟩

/-- At the root as it is spelled in full, the configuration matches and is skipped. -/
theorem cmdRm_spares_root :
    globMatch "*.json".toList "config.json".toList = true ∧
      ∀ r ∈ (cmdRm ["/sd".toList] "/*.json".toList ["--yes".toList] (some [configEntry])
        fun _ => true).removes, ¬ReachesProtected r := by
  refine ⟨by decide, (cmdRm_spares_iff ["/sd".toList] (by decide) _ _ _).mpr ?_⟩
  intro dir pat entries _ split _ _
  have parts : globSplit "/*.json".toList GLOB_DIR_CAP GLOB_PAT_CAP =
      some (['/'], "*.json".toList) := by decide
  rw [parts] at split
  cases split
  exact Or.inl rfl

/-- With a `.` segment before the pattern the configuration is removed. -/
theorem cmdRm_removes_config :
    ¬∀ (mounts : List Str) (path : Str) (args : List Str) (listing : Option (List Entry))
      (removes : Str → Bool), pathSafePolicy path = true → globHasWildcard path = true →
      ∀ r ∈ (cmdRm mounts path args listing removes).removes, ¬ReachesProtected r := by
  intro all
  have spared := all [] "/./*.json".toList ["--yes".toList] (some [configEntry]) (fun _ => true)
    (by decide) (by decide)
  have removed : (cmdRm [] "/./*.json".toList ["--yes".toList] (some [configEntry])
      fun _ => true).removes = [(none, "/./config.json".toList)] := by decide
  rw [removed] at spared
  exact spared _ (List.mem_singleton_self _) ⟨rfl, "config.json".toList, by decide, by decide⟩

end Thesada.Shell
