import Thesada.Http.Upload

/-!
# What the code of a commit says

`fatCommit` moves a staged file over its target in up to five steps, each of which can fail. Its
code is a statement about three names at once, and the caller tells the operator from it which
content is on the card.

Any three names of the directory will do, as long as they differ.
-/

namespace Thesada.Http.DirFiles

open CString

/-- The paths of a commit name three files of the directory. -/
structure Apart (tmp bak path : Str) : Prop where
  tmpBak : entry tmp ≠ entry bak
  tmpPath : entry tmp ≠ entry path
  bakPath : entry bak ≠ entry path

/-- What a code says: where the new content is, and where the old one. -/
structure Tells (d : DirFiles) (tmp bak path : Str) (d' : DirFiles) (r : FatCommit) : Prop where
  moved : r = .ok ∨ r = .okBakLeft →
    d (entry tmp) ≠ none ∧ d' (entry path) = d (entry tmp)
  left : r = .okBakLeft → d (entry path) ≠ none ∧ d' (entry bak) = d (entry path)
  kept : r = .keptOld → d' (entry path) = d (entry path)
  stranded : r = .stranded →
    d (entry path) ≠ none ∧ d' (entry bak) = d (entry path) ∧
      d' (entry tmp) = d (entry tmp) ∧ d' (entry path) = none

variable {d p : DirFiles} {io : UploadIo} {tmp bak path : Str}

/-- A code that is true leaves the old content or the new one on the card. -/
theorem Tells.keeps_one {d' : DirFiles} {r : FatCommit} (tells : Tells d tmp bak path d' r)
    {old new : List UInt8} (hadOld : d (entry path) = some old)
    (hadNew : d (entry tmp) = some new) :
    ∃ t, d' t = some old ∨ d' t = some new := by
  cases r with
  | ok => exact ⟨entry path, .inr ((tells.moved (.inl rfl)).2.trans hadNew)⟩
  | okBakLeft => exact ⟨entry path, .inr ((tells.moved (.inr rfl)).2.trans hadNew)⟩
  | keptOld => exact ⟨entry path, .inl ((tells.kept rfl).trans hadOld)⟩
  | stranded => exact ⟨entry bak, .inl ((tells.stranded rfl).2.1.trans hadOld)⟩

section Commit

variable (apart : Apart tmp bak path)

include apart

/-- The staged file is given up where the target is as it was. -/
theorem giveUp_tells (works : Bool) (same : p (entry path) = d (entry path)) :
    Tells d tmp bak path (p.remove tmp works).1 .keptOld where
  moved := by simp
  left := by simp
  kept := by
    intro _
    rw [remove_other p apart.tmpPath.symm, same]
  stranded := by simp

section Parked

/-! The old file is parked as `.upload.bak` and the target is missing. -/

variable (old : d (entry path) ≠ none) (parked : p (entry bak) = d (entry path))
    (gone : p (entry path) = none) (staged : p (entry tmp) = d (entry tmp))

include old parked gone staged

theorem fatRestore_tells :
    Tells d tmp bak path (p.fatRestore io tmp bak path).1 (p.fatRestore io tmp bak path).2 := by
  obtain failed | ⟨-, -, restored⟩ := rename_cases p bak path io.restores
  · simp only [fatRestore, failed, Bool.false_eq_true, if_false]
    exact ⟨by simp, by simp, by simp, fun _ => ⟨old, parked, staged, gone⟩⟩
  · simp only [fatRestore, restored, if_true]
    apply giveUp_tells apart
    rw [Function.update_self, parked]

theorem fatMove_tells :
    Tells d tmp bak path (p.fatMove io true tmp bak path).1 (p.fatMove io true tmp bak path).2 := by
  obtain failed | ⟨there, -, moved⟩ := rename_cases p tmp path io.moves
  · simp only [fatMove, failed, Bool.not_false, if_true, Bool.not_true, Bool.false_eq_true,
      if_false]
    exact fatRestore_tells apart old parked gone staged
  · simp only [fatMove, moved, Bool.not_true, Bool.false_eq_true, if_false, if_true]
    rw [staged] at there
    generalize atPath : Function.update (Function.update p (entry tmp) none) (entry path)
      (p (entry tmp)) = q
    have new : q (entry path) = d (entry tmp) := by
      rw [← atPath, Function.update_self, staged]
    have still : q (entry bak) = d (entry path) := by
      rw [← atPath, Function.update_of_ne apart.bakPath, Function.update_of_ne apart.tmpBak.symm,
        parked]
    refine ⟨?_, ?_, ?_, ?_⟩
    · intro _
      rw [remove_other q apart.bakPath.symm]
      exact ⟨there, new⟩
    · -- the parked file is there, so a remove that says no has left it
      intro left
      refine ⟨old, ?_⟩
      simp only [remove, still] at left ⊢
      split
      · rename_i done
        rw [if_pos done] at left
        simp at left
      · exact still
    · split <;> simp
    · split <;> simp

end Parked

/-- Every code of a commit is true, whichever of its steps fail, and one of the two contents
survives. -/
theorem fatCommit_tells (d : DirFiles) (io : UploadIo) :
    Tells d tmp bak path (d.fatCommit io tmp bak path).1 (d.fatCommit io tmp bak path).2 ∧
      ∀ old new, d (entry path) = some old → d (entry tmp) = some new →
        ∃ t, (d.fatCommit io tmp bak path).1 t = some old ∨
          (d.fatCommit io tmp bak path).1 t = some new := by
  have tells : Tells d tmp bak path (d.fatCommit io tmp bak path).1
      (d.fatCommit io tmp bak path).2 := by
    simp only [fatCommit]
    split
    · rename_i there
      rw [Bool.and_eq_true, Option.isSome_iff_ne_none] at there
      have swept : (d.remove bak io.dropsOld).1 (entry path) = d (entry path) :=
        remove_other d apart.bakPath.symm io.dropsOld
      have staged : (d.remove bak io.dropsOld).1 (entry tmp) = d (entry tmp) :=
        remove_other d apart.tmpBak io.dropsOld
      obtain failed | ⟨-, -, parked⟩ :=
        rename_cases (d.remove bak io.dropsOld).1 path bak io.parks
      · simp only [failed, Bool.not_false, if_true]
        exact giveUp_tells apart io.cleans swept
      · simp only [parked, Bool.not_true, Bool.false_eq_true, if_false]
        apply fatMove_tells apart there.2
        · rw [Function.update_self, swept]
        · rw [Function.update_of_ne apart.bakPath.symm, Function.update_self]
        · rw [Function.update_of_ne apart.tmpBak, Function.update_of_ne apart.tmpPath, staged]
    · obtain failed | ⟨there, -, moved⟩ := rename_cases d tmp path io.moves
      · simp only [fatMove, failed, Bool.not_false, if_true]
        exact giveUp_tells apart io.cleans rfl
      · simp only [fatMove, moved, Bool.not_true, Bool.false_eq_true, if_false]
        refine ⟨fun _ => ⟨there, ?_⟩, by simp, by simp, by simp⟩
        rw [Function.update_self]
  exact ⟨tells, fun old new => tells.keeps_one⟩

end Commit

def stagedScript : DirFiles := fun t =>
  if t = ".upload.tmp".toList then some [2] else if t = "main.lua".toList then some [1] else none

/-- The new file cannot move in and the old one cannot move back. -/
def bothStay : UploadIo := { UploadIo.works 1 with moves := false, restores := false }

theorem fatCommit_tells_stranded :
    (stagedScript.fatCommit bothStay "/scripts/.upload.tmp".toList
      "/scripts/.upload.bak".toList "/scripts/main.lua".toList).2 = .stranded ∧
    Tells stagedScript "/scripts/.upload.tmp".toList "/scripts/.upload.bak".toList
      "/scripts/main.lua".toList
      (stagedScript.fatCommit bothStay "/scripts/.upload.tmp".toList
        "/scripts/.upload.bak".toList "/scripts/main.lua".toList).1 .stranded := by
  have stays : (stagedScript.fatCommit bothStay "/scripts/.upload.tmp".toList
      "/scripts/.upload.bak".toList "/scripts/main.lua".toList).2 = .stranded := by
    decide +kernel
  have apart : Apart "/scripts/.upload.tmp".toList "/scripts/.upload.bak".toList
      "/scripts/main.lua".toList :=
    ⟨by decide +kernel, by decide +kernel, by decide +kernel⟩
  have tells := (fatCommit_tells apart stagedScript bothStay).1
  rw [stays] at tells
  exact ⟨stays, tells⟩

end Thesada.Http.DirFiles
