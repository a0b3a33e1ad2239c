import Thesada.Library.CString

/-!
# Paths of a file system

A path is cut at its slashes. Empty segments and `.` name no step down, so several spellings
reach one file; `steps` is what is left of a path. Paths with `..` are not covered.

A mount serves the paths its prefix leads to: the prefix itself, and those that go on with a
slash.
-/

namespace SlashPath

open CString

def DOT : Str := ['.']

/-- The directories and the file a path goes down to from the root. -/
def steps (path : Str) : List Str := (path.splitOn '/').filter fun s => s ≠ [] && s ≠ DOT

/-- A name that a directory can hold. -/
structure IsName (name : Str) : Prop where
  nonempty : name ≠ []
  plain : '/' ∉ name
  real : name ≠ DOT

theorem steps_append (dir rest : Str) : steps (dir ++ '/' :: rest) = steps dir ++ steps rest := by
  have split : (dir ++ '/' :: rest).splitOn '/' = dir.splitOn '/' ++ rest.splitOn '/' :=
    List.splitOn_append_cons_self ..
  rw [steps, split, List.filter_append]
  rfl

theorem IsName.steps {name : Str} (h : IsName name) : steps name = [name] := by
  have whole : name.splitOn '/' = [name] := List.splitOn_eq_singleton h.plain
  rw [SlashPath.steps, whole, List.filter_cons_of_pos]
  · rfl
  · simp [h.nonempty, h.real]

/-- A file is reached through its directory. -/
theorem IsName.steps_append {name : Str} (h : IsName name) (dir : Str) :
    SlashPath.steps (dir ++ '/' :: name) = SlashPath.steps dir ++ [name] := by
  rw [SlashPath.steps_append, h.steps]

/-- The prefix leads to the path. -/
def serves (mount path : Str) : Bool :=
  mount.isPrefixOf path &&
    match path.drop mount.length with
    | [] => true
    | c :: _ => c == '/'

theorem serves_iff {mount path : Str} :
    serves mount path = true ↔ path = mount ∨ ∃ rest, path = mount ++ '/' :: rest := by
  unfold serves
  rw [Bool.and_eq_true, List.isPrefixOf_iff_prefix]
  constructor
  · rintro ⟨⟨rest, rfl⟩, after⟩
    rw [List.drop_left] at after
    cases rest with
    | nil => exact Or.inl (List.append_nil mount)
    | cons c rest =>
        obtain rfl : c = '/' := by simpa using after
        exact Or.inr ⟨rest, rfl⟩
  · rintro (rfl | ⟨rest, rfl⟩)
    · exact ⟨List.prefix_refl _, by rw [List.drop_length]⟩
    · exact ⟨List.prefix_append _ _, by rw [List.drop_left]; rfl⟩

/-- A mount that leads to a file but not to its directory is at the file itself. -/
theorem serves_file {mount dir name : Str} (h : IsName name)
    (serves_not : serves mount dir = false) :
    serves mount (dir ++ '/' :: name) = true ↔ mount = dir ++ '/' :: name := by
  rw [serves_iff]
  constructor
  · rintro (same | ⟨rest, cut⟩)
    · exact same.symm
    · -- the slash after the mount is the one before the name, or lies in the directory
      exfalso
      have above : serves mount dir = true := by
        rw [serves_iff]
        obtain ⟨more, rfl, tail⟩ | ⟨more, rfl, tail⟩ := List.append_eq_append_iff.mp cut
        · cases more with
          | nil => exact Or.inl (by simp)
          | cons c more =>
              obtain ⟨rfl, inside⟩ := List.cons.inj tail
              refine absurd ?_ h.plain
              rw [inside]
              exact List.mem_append_right _ List.mem_cons_self
        · cases more with
          | nil => exact Or.inl (by simp)
          | cons c more =>
              obtain ⟨rfl, inside⟩ := List.cons.inj tail
              exact Or.inr ⟨more, rfl⟩
      rw [above] at serves_not
      cases serves_not
  · intro same
    exact Or.inl same.symm

end SlashPath
