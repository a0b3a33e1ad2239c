import Mathlib.Data.List.DropRight
import Thesada.Config.Store
import Thesada.Library.Machine

/-!
# File uploads on the SD card

An upload is staged as `.upload.tmp` beside its target and then put in the target's place. FAT
cannot rename onto a name that is taken, so the old file is parked as `.upload.bak` in between.
All targets of a directory share the two names.

The state is the files of one directory under the names FAT takes them for. Each step of an
upload can fail, and a step that fails changes nothing, but for a write that leaves a part.
-/

namespace Thesada.Http

open CString Machine

def UPLOAD_TMP_NAME : Str := ".upload.tmp".toList
def UPLOAD_BAK_NAME : Str := ".upload.bak".toList

/-- The buffers of `_fileWriteAtomic` for the two staging paths. -/
def UPLOAD_PATH_CAP : Nat := 192

/-- What FAT takes a name for: no case, no trailing dots and spaces. -/
def fatName (name : Str) : Str :=
  (name.rdropWhile fun c => c = '.' || c = ' ').map Char.toLower

def uploadNameReserved (name : Str) : Bool :=
  [UPLOAD_TMP_NAME, UPLOAD_BAK_NAME].any fun r => fatName name = r

/-- A path up to and with its last slash, empty without one. -/
def dirPart (path : Str) : Str := path.rdropWhile (· ≠ '/')

def baseName (path : Str) : Str := path.rtakeWhile (· ≠ '/')

def uploadStagePath (cap : Nat) (path name : Str) : Option Str :=
  if dirPart path = [] || baseName path = [] || uploadNameReserved (baseName path) then none
  else if cap < (dirPart path).length + name.length + 1 then none
  else some (dirPart path ++ name)

def uploadTmpPath (cap : Nat) (path : Str) : Option Str :=
  uploadStagePath cap path UPLOAD_TMP_NAME

/-- The files of one directory by their FAT names. -/
abbrev DirFiles := Str → Option (List UInt8)

/-- The name a path has in its directory. -/
def entry (path : Str) : Str := fatName (baseName path)

/-- Which steps of one upload work. -/
structure UploadIo where
  opens : Bool
  /-- Bytes that `f.write` says it took. -/
  written : Nat
  /-- Bytes that reach the card. -/
  stored : Nat
  checks : Bool
  /-- `exists` on the target. -/
  sees : Bool
  /-- `remove` of a `.upload.bak` that is there before the commit. -/
  dropsOld : Bool
  parks : Bool
  moves : Bool
  restores : Bool
  /-- `remove` of `.upload.bak` after the commit. -/
  dropsBak : Bool
  /-- `remove` of `.upload.tmp`. -/
  cleans : Bool
  deriving DecidableEq

/-- Every step works for a body of this length. -/
def UploadIo.works (len : Nat) : UploadIo :=
  ⟨true, len, len, true, true, true, true, true, true, true, true⟩

inductive FatCommit where
  | ok
  | okBakLeft
  | keptOld
  | stranded
  deriving DecidableEq

namespace DirFiles

def remove (d : DirFiles) (path : Str) (works : Bool) : DirFiles × Bool :=
  if works && (d (entry path)).isSome then (Function.update d (entry path) none, true)
  else (d, false)

/-- A rename needs a source and does not replace. -/
def rename (d : DirFiles) (a b : Str) (works : Bool) : DirFiles × Bool :=
  if works && (d (entry a)).isSome && (d (entry b)).isNone then
    (Function.update (Function.update d (entry a) none) (entry b) (d (entry a)), true)
  else (d, false)

/-- `LittleFS.rename`, which replaces. -/
def replace (d : DirFiles) (a b : Str) (works : Bool) : DirFiles × Bool :=
  if works && (d (entry a)).isSome then
    (Function.update (Function.update d (entry a) none) (entry b) (d (entry a)), true)
  else (d, false)

/-- The target is put back, or both copies stay under their staging names. -/
def fatRestore (d : DirFiles) (io : UploadIo) (tmp bak path : Str) : DirFiles × FatCommit :=
  let (d, restored) := d.rename bak path io.restores
  if restored then ((d.remove tmp io.cleans).1, .keptOld) else (d, .stranded)

/-- The second half of the commit: the new file moves in. -/
def fatMove (d : DirFiles) (io : UploadIo) (parked : Bool) (tmp bak path : Str) :
    DirFiles × FatCommit :=
  let (d, moved) := d.rename tmp path io.moves
  if !moved then
    if !parked then ((d.remove tmp io.cleans).1, .keptOld) else d.fatRestore io tmp bak path
  else if parked then
    let (d, dropped) := d.remove bak io.dropsBak
    (d, if dropped then .ok else .okBakLeft)
  else (d, .ok)

def fatCommit (d : DirFiles) (io : UploadIo) (tmp bak path : Str) : DirFiles × FatCommit :=
  if io.sees && (d (entry path)).isSome then
    let (d, parked) := (d.remove bak io.dropsOld).1.rename path bak io.parks
    if !parked then ((d.remove tmp io.cleans).1, .keptOld) else d.fatMove io true tmp bak path
  else d.fatMove io false tmp bak path

/-- The size that is read back of the staged body. -/
def stagedSize (body : List UInt8) (io : UploadIo) : Nat :=
  if io.checks then (body.take io.stored).length else 0

/-- The staged body is on the card whole. -/
def stagedWhole (body : List UInt8) (io : UploadIo) : Bool :=
  Config.fileWriteLanded (if body.length = 0 then 0 else io.written) (stagedSize body io)
    body.length

/-- `_fileWriteAtomic`: the bytes on disk when the upload is reported written. -/
def fileWriteAtomic (lfs : Bool) (d : DirFiles) (path : Str) (body : List UInt8)
    (io : UploadIo) : DirFiles × Option Nat :=
  match uploadTmpPath UPLOAD_PATH_CAP path, uploadStagePath UPLOAD_PATH_CAP path UPLOAD_BAK_NAME with
  | some tmp, some bak =>
      if !io.opens then (d, none)
      else
        let d : DirFiles := Function.update d (entry tmp) (some (body.take io.stored))
        if !stagedWhole body io then ((d.remove tmp io.cleans).1, none)
        else if lfs then
          let (d, moved) := d.replace tmp path io.moves
          if moved then (d, some (stagedSize body io)) else ((d.remove tmp io.cleans).1, none)
        else
          match d.fatCommit io tmp bak path with
          | (d, .ok) => (d, some (stagedSize body io))
          | (d, .okBakLeft) => (d, some (stagedSize body io))
          | (d, _) => (d, none)
  | _, _ => (d, none)

end DirFiles

/-- One `POST /api/file` for a path in the directory. -/
structure Upload where
  path : Str
  body : List UInt8
  io : UploadIo
  deriving DecidableEq

/-- The upload stages its body whole, finds its target there and removes `.upload.bak`. -/
def Upload.dropsParked (u : Upload) (d : DirFiles) : Bool :=
  (uploadTmpPath UPLOAD_PATH_CAP u.path).isSome &&
    (uploadStagePath UPLOAD_PATH_CAP u.path UPLOAD_BAK_NAME).isSome && u.io.opens &&
    DirFiles.stagedWhole u.body u.io && u.io.sees && (d (entry u.path)).isSome && u.io.dropsOld

structure UploadDir where
  files : DirFiles
  /-- The last content of each target that was reported written. -/
  reported : DirFiles

def uploadStep (s : UploadDir) (u : Upload) : UploadDir :=
  match s.files.fileWriteAtomic false u.path u.body u.io with
  | (files, some _) =>
      { files, reported := Function.update s.reported (entry u.path) (some u.body) }
  | (files, none) => { s with files }

/-! ## Names -/

/-- A staging path names its file in the directory of the target. -/
theorem baseName_stage (path : Str) {name : Str} (plain : ∀ c ∈ name, c ≠ '/') :
    baseName (dirPart path ++ name) = name := by
  have stops : (path.reverse.dropWhile (decide <| · ≠ '/')).takeWhile (decide <| · ≠ '/') = [] := by
    rw [List.takeWhile_eq_nil_iff]
    intro left
    exact List.dropWhile_get_zero_not _ _ left
  simp only [baseName, dirPart, List.rtakeWhile, List.rdropWhile, List.reverse_append,
    List.reverse_reverse]
  rw [List.takeWhile_append_of_pos (by simpa using plain), stops, List.append_nil,
    List.reverse_reverse]

/-- The three paths of one upload name three files of the directory. -/
structure Staged (tmp bak path : Str) : Prop where
  tmpName : entry tmp = UPLOAD_TMP_NAME
  bakName : entry bak = UPLOAD_BAK_NAME
  notTmp : entry path ≠ UPLOAD_TMP_NAME
  notBak : entry path ≠ UPLOAD_BAK_NAME

theorem uploadStagePath_eq_some {cap : Nat} {path name stage : Str}
    (staged : uploadStagePath cap path name = some stage) :
    uploadNameReserved (baseName path) = false ∧ stage = dirPart path ++ name := by
  simp only [uploadStagePath] at staged
  split at staged
  · exact absurd staged (by simp)
  · rename_i usable
    split at staged
    · exact absurd staged (by simp)
    · simp only [Bool.or_eq_true, not_or, Bool.not_eq_true] at usable
      exact ⟨usable.2, (Option.some.inj staged).symm⟩

theorem Staged.of_paths {tmp bak path : Str}
    (staged : uploadTmpPath UPLOAD_PATH_CAP path = some tmp)
    (parking : uploadStagePath UPLOAD_PATH_CAP path UPLOAD_BAK_NAME = some bak) :
    Staged tmp bak path := by
  obtain ⟨usable, rfl⟩ := uploadStagePath_eq_some staged
  obtain ⟨-, rfl⟩ := uploadStagePath_eq_some parking
  simp only [uploadNameReserved, List.any_cons, List.any_nil, Bool.or_false, Bool.or_eq_false_iff,
    decide_eq_false_iff_not] at usable
  refine ⟨?_, ?_, usable.1, usable.2⟩
  · rw [entry, baseName_stage path fun c inside => ne_of_mem_of_not_mem inside (by decide)]
    decide +kernel
  · rw [entry, baseName_stage path fun c inside => ne_of_mem_of_not_mem inside (by decide)]
    decide +kernel

/-! ## The commit -/

namespace DirFiles

variable {d : DirFiles} {io : UploadIo} {tmp bak path : Str}

theorem remove_other (d : DirFiles) {t : Str} (other : t ≠ entry path) (works : Bool) :
    (d.remove path works).1 t = d t := by
  simp only [remove]
  split
  · exact Function.update_of_ne other ..
  · rfl

/-- A remove that works leaves nothing, one that fails leaves the file. -/
theorem remove_self (d : DirFiles) (path : Str) (works : Bool) :
    (d.remove path works).1 (entry path) = none ∧ works = true ∨
      (d.remove path works).1 (entry path) = d (entry path) := by
  simp only [remove]
  split
  · rename_i done
    exact .inl ⟨Function.update_self .., (Bool.and_eq_true_iff.mp done).1⟩
  · exact .inr rfl

theorem rename_cases (d : DirFiles) (a b : Str) (works : Bool) :
    d.rename a b works = (d, false) ∨
      d (entry a) ≠ none ∧ d (entry b) = none ∧ d.rename a b works =
        (Function.update (Function.update d (entry a) none) (entry b) (d (entry a)), true) := by
  simp only [rename]
  split
  · rename_i done
    simp only [Bool.and_eq_true, Option.isNone_iff_eq_none] at done
    exact .inr ⟨Option.isSome_iff_ne_none.mp done.1.2, done.2, rfl⟩
  · exact .inl rfl

/-- What a commit may do to the directory. `drops` is that it removes a parked file it has
not parked itself. -/
structure Commits (d : DirFiles) (target : Str) (drops : Prop) (d' : DirFiles)
    (r : FatCommit) : Prop where
  others : ∀ t, t ≠ target → t ≠ UPLOAD_TMP_NAME → t ≠ UPLOAD_BAK_NAME → d' t = d t
  landed : r = .ok ∨ r = .okBakLeft → d' target = d UPLOAD_TMP_NAME
  kept : r = .keptOld → d' target = d target
  stranded : r = .stranded → d target ≠ none ∧ d' target = none ∧ d' UPLOAD_BAK_NAME = d target
  bak : d' UPLOAD_BAK_NAME = d UPLOAD_BAK_NAME ∨ d UPLOAD_BAK_NAME = none ∨ drops

variable (h : Staged tmp bak path)

include h

/-- Only the staged file is given up. -/
theorem cleaned {p : DirFiles} {drops : Prop} (works : Bool)
    (others : ∀ t, t ≠ UPLOAD_TMP_NAME → t ≠ UPLOAD_BAK_NAME → p t = d t)
    (bakKept : p UPLOAD_BAK_NAME = d UPLOAD_BAK_NAME ∨ d UPLOAD_BAK_NAME = none ∨ drops) :
    Commits d (entry path) drops (p.remove tmp works).1 .keptOld where
  others := by
    intro t _ notTmp notBak
    rw [remove_other p (h.tmpName ▸ notTmp), others t notTmp notBak]
  landed := by simp
  kept := by
    intro _
    rw [remove_other p (h.tmpName ▸ h.notTmp), others _ h.notTmp h.notBak]
  stranded := by simp
  bak := by rwa [remove_other p (h.tmpName ▸ by decide)]

theorem fatMove_new {drops : Prop} :
    Commits d (entry path) drops (d.fatMove io false tmp bak path).1
      (d.fatMove io false tmp bak path).2 := by
  obtain failed | ⟨-, -, moved⟩ := rename_cases d tmp path io.moves
  · simp only [fatMove, failed, Bool.not_false, if_true]
    exact cleaned h io.cleans (fun _ _ _ => rfl) (.inl rfl)
  · simp only [fatMove, moved, Bool.not_true, Bool.false_eq_true, if_false]
    refine ⟨?_, ?_, by simp, by simp, .inl ?_⟩
    · intro t other notTmp _
      rw [Function.update_of_ne other, Function.update_of_ne (h.tmpName ▸ notTmp)]
    · intro _
      rw [Function.update_self, h.tmpName]
    · rw [Function.update_of_ne h.notBak.symm, Function.update_of_ne (h.tmpName ▸ by decide)]

/-- The old file is parked: it moves back, or the new one moves in, or both stay staged. -/
theorem fatMove_parked {p : DirFiles} {drops : Prop}
    (others : ∀ t, t ≠ entry path → t ≠ UPLOAD_BAK_NAME → p t = d t) (old : d (entry path) ≠ none)
    (gone : p (entry path) = none) (parked : p UPLOAD_BAK_NAME = d (entry path))
    (bakGiven : d UPLOAD_BAK_NAME = none ∨ drops) :
    Commits d (entry path) drops (p.fatMove io true tmp bak path).1
      (p.fatMove io true tmp bak path).2 := by
  obtain failed | ⟨-, -, moved⟩ := rename_cases p tmp path io.moves
  · simp only [fatMove, failed, Bool.not_false, if_true, Bool.not_true, Bool.false_eq_true,
      if_false, fatRestore]
    obtain failed | ⟨-, -, restored⟩ := rename_cases p bak path io.restores
    · simp only [failed, Bool.false_eq_true, if_false]
      exact ⟨fun t other _ => others t other, by simp, by simp, fun _ => ⟨old, gone, parked⟩,
        .inr bakGiven⟩
    · simp only [restored, if_true]
      refine cleaned h io.cleans ?_ (.inr bakGiven)
      intro t _ notBak
      by_cases target : t = entry path
      · rw [target, Function.update_self, h.bakName, parked]
      · rw [Function.update_of_ne target, Function.update_of_ne (h.bakName ▸ notBak),
          others t target notBak]
  · simp only [fatMove, moved, Bool.not_true, Bool.false_eq_true, if_false, if_true]
    have landed (t : Str) (notBak : t ≠ UPLOAD_BAK_NAME) :
        (remove (Function.update (Function.update p (entry tmp) none) (entry path)
          (p (entry tmp))) bak io.dropsBak).1 t =
            if t = entry path then p (entry tmp) else if t = entry tmp then none else p t := by
      rw [remove_other _ (h.bakName ▸ notBak)]
      simp only [Function.update_apply]
    refine ⟨?_, ?_, ?_, ?_, .inr bakGiven⟩
    · intro t other notTmp notBak
      rw [landed t notBak, if_neg other, if_neg (h.tmpName ▸ notTmp), others t other notBak]
    · intro _
      rw [landed _ h.notBak, if_pos rfl, h.tmpName,
        others _ h.notTmp.symm (by decide)]
    · split <;> simp
    · split <;> simp

theorem fatCommit_commits :
    Commits d (entry path) (io.sees = true ∧ d (entry path) ≠ none ∧ io.dropsOld = true)
      (d.fatCommit io tmp bak path).1 (d.fatCommit io tmp bak path).2 := by
  simp only [fatCommit]
  split
  · rename_i there
    rw [Bool.and_eq_true, Option.isSome_iff_ne_none] at there
    obtain ⟨sees, old⟩ := there
    have others (t : Str) (notBak : t ≠ UPLOAD_BAK_NAME) : (d.remove bak io.dropsOld).1 t = d t :=
      remove_other d (h.bakName ▸ notBak) io.dropsOld
    have dropped := remove_self d bak io.dropsOld
    rw [h.bakName] at dropped
    obtain failed | ⟨-, freed, parked⟩ :=
      rename_cases (d.remove bak io.dropsOld).1 path bak io.parks
    · simp only [failed, Bool.not_false, if_true]
      refine cleaned h io.cleans (fun t _ => others t) ?_
      obtain ⟨-, works⟩ | same := dropped
      · exact .inr (.inr ⟨sees, old, works⟩)
      · exact .inl same
    · simp only [parked, Bool.not_true, Bool.false_eq_true, if_false]
      refine fatMove_parked h ?_ old ?_ ?_ ?_
      · intro t other notBak
        rw [h.bakName, Function.update_of_ne notBak, Function.update_of_ne other, others t notBak]
      · rw [h.bakName, Function.update_of_ne h.notBak, Function.update_self]
      · rw [h.bakName, Function.update_self, others _ h.notBak]
      · rw [h.bakName] at freed
        obtain ⟨-, works⟩ | same := dropped
        · exact .inr ⟨sees, old, works⟩
        · exact .inl (same ▸ freed)
  · exact fatMove_new h

omit h

theorem stored_of_stagedWhole {body : List UInt8} (whole : stagedWhole body io = true) :
    body.take io.stored = body := by
  have size : stagedSize body io = body.length :=
    of_decide_eq_true (Bool.and_eq_true_iff.mp whole).2
  apply List.take_of_length_le
  simp only [stagedSize] at size
  split at size
  · rw [List.length_take] at size
    omega
  · omega

/-- What an upload may do to the directory: its target holds the new body when that was reported,
and otherwise what it held, or the old file is parked and the target missing. -/
structure Writes (d : DirFiles) (u : Upload) (d' : DirFiles) (r : Option Nat) : Prop where
  others : ∀ t, t ≠ entry u.path → t ≠ UPLOAD_TMP_NAME → t ≠ UPLOAD_BAK_NAME → d' t = d t
  landed : r ≠ none → entry u.path ≠ UPLOAD_TMP_NAME ∧ entry u.path ≠ UPLOAD_BAK_NAME ∧
    d' (entry u.path) = some u.body
  failed : r = none → d' (entry u.path) = d (entry u.path) ∨
    d (entry u.path) ≠ none ∧ d' (entry u.path) = none ∧
      d' UPLOAD_BAK_NAME = d (entry u.path)
  bak : d' UPLOAD_BAK_NAME = d UPLOAD_BAK_NAME ∨ d UPLOAD_BAK_NAME = none ∨
    u.dropsParked d = true

theorem Writes.nothing (d : DirFiles) (u : Upload) : Writes d u d none where
  others := fun _ _ _ _ => rfl
  landed := by simp
  failed := fun _ => .inl rfl
  bak := .inl rfl

theorem fileWriteAtomic_writes (d : DirFiles) (u : Upload) :
    Writes d u (d.fileWriteAtomic false u.path u.body u.io).1
      (d.fileWriteAtomic false u.path u.body u.io).2 := by
  simp only [fileWriteAtomic]
  split
  · rename_i tmp bak tmpPath bakPath
    have h := Staged.of_paths tmpPath bakPath
    split
    · exact .nothing d u
    · rename_i opens
      have beside (t : Str) (notTmp : t ≠ UPLOAD_TMP_NAME) (c : Option (List UInt8)) :
          Function.update d (entry tmp) c t = d t :=
        Function.update_of_ne (h.tmpName ▸ notTmp) ..
      split
      · refine ⟨?_, by simp, fun _ => .inl ?_, .inl ?_⟩
        · intro t _ notTmp _
          rw [remove_other _ (h.tmpName ▸ notTmp), beside t notTmp]
        · rw [remove_other _ (h.tmpName ▸ h.notTmp), beside _ h.notTmp]
        · rw [remove_other _ (h.tmpName ▸ by decide), beside _ (by decide)]
      · rename_i whole
        rw [Bool.not_eq_true', Bool.not_eq_false] at opens whole
        rw [stored_of_stagedWhole whole]
        have commits :=
          @fatCommit_commits (Function.update d (entry tmp) (some u.body)) u.io _ _ _ h
        have staged : Function.update d (entry tmp) (some u.body) UPLOAD_TMP_NAME = some u.body :=
          h.tmpName ▸ Function.update_self ..
        have others (t : Str) (other : t ≠ entry u.path) (notTmp : t ≠ UPLOAD_TMP_NAME)
            (notBak : t ≠ UPLOAD_BAK_NAME) := (commits.others t other notTmp notBak).trans
          (beside t notTmp _)
        have given := commits.bak
        rw [beside _ (by decide), beside _ h.notTmp] at given
        have drops : u.io.sees = true ∧ d (entry u.path) ≠ none ∧ u.io.dropsOld = true →
            u.dropsParked d = true := by
          rintro ⟨sees, there, removes⟩
          simp [Upload.dropsParked, tmpPath, bakPath, opens, whole, sees, removes,
            Option.isSome_iff_ne_none, there]
        have landed := commits.landed
        have kept := commits.kept
        have stranded := commits.stranded
        rw [staged] at landed
        rw [beside _ h.notTmp] at kept stranded
        simp only [Bool.false_eq_true, if_false]
        generalize DirFiles.fatCommit _ u.io tmp bak u.path = c at *
        obtain ⟨d', r⟩ := c
        cases r with
        | ok =>
            exact ⟨others, fun _ => ⟨h.notTmp, h.notBak, landed (.inl rfl)⟩, by simp,
              given.imp_right (Or.imp_right drops)⟩
        | okBakLeft =>
            exact ⟨others, fun _ => ⟨h.notTmp, h.notBak, landed (.inr rfl)⟩, by simp,
              given.imp_right (Or.imp_right drops)⟩
        | keptOld =>
            exact ⟨others, by simp, fun _ => .inl (kept rfl), given.imp_right (Or.imp_right drops)⟩
        | stranded =>
            exact ⟨others, by simp, fun _ => .inr (stranded rfl),
              given.imp_right (Or.imp_right drops)⟩
  · exact .nothing d u

/-- On LittleFS, whose rename replaces, a failed upload leaves the target as it was. -/
theorem fileWriteAtomic_lfs (d : DirFiles) (path : Str) (body : List UInt8) (io : UploadIo) :
    (d.fileWriteAtomic true path body io).1 (entry path) =
      if (d.fileWriteAtomic true path body io).2.isSome then some body else d (entry path) := by
  simp only [fileWriteAtomic]
  split
  · rename_i tmp bak tmpPath bakPath
    have h := Staged.of_paths tmpPath bakPath
    have other : entry path ≠ entry tmp := h.tmpName ▸ h.notTmp
    split
    · rfl
    · split
      · simp only [Option.isSome_none, Bool.false_eq_true, if_false]
        rw [remove_other _ other, Function.update_of_ne other]
      · rename_i whole
        rw [Bool.not_eq_true', Bool.not_eq_false] at whole
        simp only [stored_of_stagedWhole whole, if_true, replace, Function.update_self]
        split
        · simp
        · simp only [Bool.false_eq_true, if_false, Option.isSome_none]
          rw [remove_other _ other, Function.update_of_ne other]
  · rfl

end DirFiles

/-! ## Runs of uploads -/

/-- A target reported written is missing at its path. -/
def Stranded (s : UploadDir) : Prop := ∃ t c, s.reported t = some c ∧ s.files t = none

/-- The upload does not remove `.upload.bak` while it is a stranded target's only copy. -/
def Spares (s : UploadDir) (u : Upload) : Prop :=
  u.dropsParked s.files = true → ¬Stranded s

/-- Each target that was reported written is whole at its path, or missing there and parked. -/
structure ReportedKept (s : UploadDir) : Prop where
  targets : ∀ t, s.reported t ≠ none → t ≠ UPLOAD_TMP_NAME ∧ t ≠ UPLOAD_BAK_NAME
  kept : ∀ t c, s.reported t = some c →
    s.files t = some c ∨ s.files t = none ∧ s.files UPLOAD_BAK_NAME = some c

theorem ReportedKept.step {s : UploadDir} {u : Upload} (h : ReportedKept s) (spares : Spares s u) :
    ReportedKept (uploadStep s u) := by
  have writes := DirFiles.fileWriteAtomic_writes s.files u
  simp only [uploadStep]
  generalize s.files.fileWriteAtomic false u.path u.body u.io = w at *
  obtain ⟨files, done⟩ := w
  -- A target missing at its path is parked, and nothing has removed what is parked.
  have parked {t : Str} {c : List UInt8} (reported : s.reported t = some c)
      (missing : s.files t = none) (copy : s.files UPLOAD_BAK_NAME = some c) :
      files UPLOAD_BAK_NAME = some c := by
    obtain same | none | drops := writes.bak
    · exact same.trans copy
    · rw [none] at copy
      exact absurd copy (by simp)
    · exact absurd ⟨t, c, reported, missing⟩ (spares drops)
  have beside {t : Str} {c : List UInt8} (reported : s.reported t = some c)
      (other : t ≠ entry u.path) :
      files t = some c ∨ files t = none ∧ files UPLOAD_BAK_NAME = some c := by
    obtain ⟨notTmp, notBak⟩ := h.targets t (by simp [reported])
    have same := writes.others t other notTmp notBak
    obtain whole | ⟨missing, copy⟩ := h.kept t c reported
    · exact .inl (same.trans whole)
    · exact .inr ⟨same.trans missing, parked reported missing copy⟩
  cases done with
  | some bytes =>
      obtain ⟨notTmp, notBak, landed⟩ := writes.landed (by simp)
      refine ⟨?_, ?_⟩
      · intro t (reported : Function.update s.reported _ _ t ≠ none)
        by_cases target : t = entry u.path
        · subst target
          exact ⟨notTmp, notBak⟩
        · rw [Function.update_of_ne target] at reported
          exact h.targets t reported
      · intro t c (reported : Function.update s.reported _ _ t = some c)
        by_cases target : t = entry u.path
        · subst target
          rw [Function.update_self] at reported
          exact .inl (landed.trans reported)
        · rw [Function.update_of_ne target] at reported
          exact beside reported target
  | none =>
      refine ⟨h.targets, ?_⟩
      intro t c (reported : s.reported t = some c)
      by_cases target : t = entry u.path
      · subst target
        have old := h.kept _ c reported
        obtain same | ⟨there, missing, moved⟩ := writes.failed rfl
        · obtain whole | ⟨missing, copy⟩ := old
          · exact .inl (same.trans whole)
          · exact .inr ⟨same.trans missing, parked reported missing copy⟩
        · obtain whole | ⟨missing', -⟩ := old
          · exact .inr ⟨missing, moved.trans whole⟩
          · exact absurd missing' there
      · exact beside reported target

/-- A directory of which nothing has been reported yet. -/
def unreported (files : DirFiles) : UploadDir := { files, reported := fun _ => none }

/-- As long as no upload removes a `.upload.bak` that is a stranded target's only copy, whatever
step of whatever upload fails, what was last reported of a target is whole at its path, at
`.upload.bak` or at `.upload.tmp`. -/
theorem uploads_keep_reported (files : DirFiles) (us : List Upload)
    (spare : Meets uploadStep Spares (unreported files) us) :
    let s := run uploadStep (unreported files) us
    ∀ t c, s.reported t = some c →
      s.files t = some c ∨ s.files UPLOAD_BAK_NAME = some c ∨ s.files UPLOAD_TMP_NAME = some c := by
  intro s t c reported
  have start : ReportedKept (unreported files) := ⟨by simp [unreported], by simp [unreported]⟩
  have kept : ReportedKept s := spare.invariant (fun _ _ => ReportedKept.step) start
  obtain whole | ⟨-, parked⟩ := kept.kept t c reported
  · exact .inl whole
  · exact .inr (.inl parked)

/-- A second upload to one target is stranded, and a third one takes the place of both. -/
theorem uploads_keep_reported_again :
    let us : List Upload := [⟨"/a".toList, [49], .works 1⟩,
      ⟨"/a".toList, [50], { UploadIo.works 1 with moves := false, restores := false }⟩,
      ⟨"/a".toList, [51], .works 1⟩]
    let s := run uploadStep (unreported fun _ => none) us
    ∀ t c, s.reported t = some c →
      s.files t = some c ∨ s.files UPLOAD_BAK_NAME = some c ∨ s.files UPLOAD_TMP_NAME = some c := by
  refine uploads_keep_reported (fun _ => none) _ ⟨?_, ?_, ?_, trivial⟩
  · exact fun drops => absurd drops (by decide)
  · rintro - ⟨t, c, reported, missing⟩
    by_cases target : t = "a".toList
    · subst target
      exact absurd missing (by decide)
    · have fresh : (uploadStep (unreported fun _ => none) ⟨"/a".toList, [49], .works 1⟩).reported
          t = none := Function.update_of_ne target ..
      exact absurd (fresh.symm.trans reported) (by simp)
  · exact fun drops => absurd drops (by decide)

/-- The commit of one target fails half way, and the next upload, to another target, removes what
it left parked. -/
theorem next_upload_drops_parked :
    ¬∀ (files : DirFiles) (us : List Upload) (t : Str) (c : List UInt8),
      let s := run uploadStep (unreported files) us
      s.reported t = some c →
        s.files t = some c ∨ s.files UPLOAD_BAK_NAME = some c ∨
          s.files UPLOAD_TMP_NAME = some c := by
  intro kept
  have lost := kept (fun _ => none) [⟨"/a".toList, [49], .works 1⟩, ⟨"/b".toList, [50], .works 1⟩,
    ⟨"/a".toList, [51], { UploadIo.works 1 with moves := false, restores := false }⟩,
    ⟨"/b".toList, [52], .works 1⟩] "a".toList [49]
  exact absurd lost (by decide)

end Thesada.Http
