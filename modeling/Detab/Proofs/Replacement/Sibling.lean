import Detab.Proofs.FileSystem.Components
import Detab.Proofs.Replacement.Permissions

set_option relaxedAutoImplicit false
set_option autoImplicit false

/-!
# The temporary file is a sibling

The temporary path is made on the text of a path alone: what does not count at its end is dropped, and
the file name is replaced. Where paths lead is decided by the file system, through links and two dots.
This file shows that the text does not mislead: whatever the spelling, both paths name entries of one
directory, so that giving the temporary file the name of the other moves nothing elsewhere.

## Main definitions

* `Detab.FileSystem.EndsIn` — a path that names an entry of a directory.
* `Detab.Replacement.suffix` — what tells temporary files of one file apart.

## Main results

* `Detab.Replacement.temporaryName_eq`, `Detab.Replacement.temporaryName_injective` — the temporary name
  is made from the name of the file, and tells it.
* `Detab.Replacement.exists_lastStep_of_leaf` — a path to a leaf ends with its name.
* `Detab.Replacement.sibling_of_temporaryPath?` — **the temporary file is a sibling.**

## Design

A path to a leaf is one that leads to a file or a link when a link at its very end is not followed.
Whether the directory holds an entry under the temporary name does not matter, so it is not said that
the temporary path leads anywhere, but where its last name is looked up.
-/

namespace Detab

open Detab.Path

/-- **A path that names an entry of a directory:** the steps before its last one lead to the directory
at `parent`, through all links, and the last one is to the name `n`. -/
def FileSystem.EndsIn (fs : FileSystem) (path : Path) (parent : Place) (n : Name) : Prop :=
  ∃ before, steps path = before ++ [.name n] ∧
    fs.walkFrom .toFile maxLinks (startOf path fs.workingDirectory) before = .ok parent

namespace Replacement

open FileSystem

variable {fs : FileSystem} {stamp : Stamp} {path temporary : Path} {parent : Place} {mode : Mode}
  {entries : Directory} {name : Name} {split : List Bytes} {leaf : Leaf}

/-! ## Names -/

/-- What tells temporary files of one file apart: the process, and the instant. -/
def suffix (stamp : Stamp) : Bytes :=
  digits stamp.process ++ utf8 "-" ++ digits stamp.nanoseconds

/-- The name of a temporary file is the name of the file between a dot and a suffix that does not
depend on the file. -/
lemma temporaryName_eq (stamp : Stamp) (name : Name) :
    temporaryName stamp name = utf8 "." ++ name ++ utf8 "." ++ suffix stamp ++ utf8 ".tmp" := by
  simp [temporaryName, suffix]

/-- The name of the file can be told from the temporary name. -/
lemma temporaryName_injective (stamp : Stamp) : Function.Injective (temporaryName stamp) := by
  intro name name' h
  simpa [temporaryName] using h

/-! ## Places -/

/-- The path itself names an entry of the directory in which its last step is taken. -/
lemma endsIn_of_lastStep (h : fs.lastStep path = .ok (.entry parent mode entries name false)) :
    fs.EndsIn path parent name := by
  obtain ⟨-, before, hsteps, hwalked, -⟩ := lastStep_eq_entry_iff.mp h
  exact ⟨before, hsteps, (walkFrom_eq_ok_iff rfl).mpr hwalked⟩

/-- The temporary path names an entry of the directory in which the last step of the path is taken. -/
lemma endsIn_temporary (hsplit : path.splitName? = some (split, name))
    (hchosen : temporaryPath? stamp path = some temporary)
    (h : fs.lastStep path = .ok (.entry parent mode entries name false)) :
    fs.EndsIn temporary parent (temporaryName stamp name) := by
  obtain ⟨-, -, -, -, -, hname, -⟩ := splitName?_spec hsplit
  have hstep : IsStep (temporaryName stamp name) := isStep_temporaryName stamp hname.2.2.2
  exact ⟨_, (steps_sibling hsplit hchosen hstep).1,
    (walkFrom_eq_ok_iff rfl).mpr (exists_walked_sibling hsplit hchosen hstep h)⟩

/-- **A path to a leaf ends with its name,** in the directory that holds it. -/
lemma exists_lastStep_of_leaf (hsplit : path.splitName? = some (split, name))
    (h : fs.lookUp .toEntry path = .ok (.leaf leaf)) :
    ∃ parent mode entries, fs.resolve .toEntry path = .ok (parent ++ [name]) ∧
      fs.lastStep path = .ok (.entry parent mode entries name false) ∧
      entries.find? name = some (.leaf leaf) := by
  obtain ⟨goal, hgoal, hentry⟩ := lookUp_eq_ok_iff.mp h
  have hleaf : ∀ mode, fs.shape? goal ≠ some (.directory mode) := by
    intro mode hmode
    obtain ⟨entries, hdirectory⟩ := shape?_eq_directory_iff.mp hmode
    rw [hentry] at hdirectory
    cases hdirectory
  obtain ⟨parent, mode, entries, hlast⟩ := lastStep_of_resolve_leaf rfl hsplit hgoal hleaf
  obtain rfl := resolve_eq_concat rfl hlast hgoal (by simp [Walk.toEntry])
  obtain ⟨-, -, -, -, hparent, -⟩ := lastStep_eq_entry_iff.mp hlast
  exact ⟨parent, mode, entries, hgoal, hlast, by rw [← entry?_concat hparent, hentry]⟩

/-- **The temporary file is a sibling,** for every spelling of the path.

* There is no temporary path exactly for the paths without a file name: for the empty one, and for those
  whose last component is the root, two dots, or a dot at the beginning.
* Otherwise it has the components of the path but for the last one. That is the file name between dots,
  with a suffix; it is another name, and by the suffix it tells the file name.
* Wherever the path leads to something that is no directory, with a link at its end not followed, it
  names an entry of a directory there, and the temporary path names an entry of the same directory. All
  operations on the temporary path look up its name there, or refuse a path or a name that is too
  long.

**Proof sketch.** All clauses come from the cut of the path before its file name. Where the cut
fails is read off the components; where it succeeds the sibling has the other components and the new
name, and its walk is that of the path up to the last step. -/
theorem sibling_of_temporaryPath? (stamp : Stamp) (path : Path) :
    (temporaryPath? stamp path = none ↔
      path = [] ∨ ∃ c, (components path).getLast? = some c ∧ (c = .root ∨ c = .here ∨ c = .up)) ∧
    (∀ temporary, temporaryPath? stamp path = some temporary → ∃ name,
      (components path).getLast? = some (.name name) ∧
      components temporary = (components path).dropLast ++ [.name (temporaryName stamp name)] ∧
      temporaryName stamp name ≠ name ∧
      ∀ (fs : FileSystem) (leaf : Leaf), fs.lookUp .toEntry path = .ok (.leaf leaf) →
        ∃ parent mode entries, fs.resolve .toEntry path = .ok (parent ++ [name]) ∧
          fs.entry? parent = some (.directory mode entries) ∧
          entries.find? name = some (.leaf leaf) ∧
          fs.EndsIn path parent name ∧ fs.EndsIn temporary parent (temporaryName stamp name) ∧
          fs.lastStep path = .ok (.entry parent mode entries name false) ∧
          fs.lastStep temporary =
            if maxPath < temporary.length ∨ maxName < (temporaryName stamp name).length then
              .error .nameTooLong
            else .ok (.entry parent mode entries (temporaryName stamp name) false)) ∧
    (∀ name, temporaryName stamp name =
      utf8 "." ++ name ++ utf8 "." ++ suffix stamp ++ utf8 ".tmp") ∧
    Function.Injective (temporaryName stamp) := by
  refine ⟨?_, fun temporary hchosen => ?_, temporaryName_eq stamp, temporaryName_injective stamp⟩
  · rw [← splitName?_eq_none_iff, temporaryPath?, sibling?, Option.map_eq_none_iff]
  · obtain ⟨⟨split, name⟩, hsplit, -⟩ := Option.map_eq_some_iff.mp hchosen
    obtain ⟨-, -, -, -, -, hname, -⟩ := splitName?_spec hsplit
    have hstep : IsStep (temporaryName stamp name) := isStep_temporaryName stamp hname.2.2.2
    have hfile : path.fileName? = some name := by rw [fileName?, hsplit]; rfl
    refine ⟨name, fileName?_eq_some_iff.mp hfile, components_sibling hsplit hchosen hstep,
      temporaryName_ne stamp name, fun fs leaf hleaf => ?_⟩
    obtain ⟨parent, mode, entries, hgoal, hlast, hfind⟩ := exists_lastStep_of_leaf hsplit hleaf
    obtain ⟨-, -, -, -, hparent, -⟩ := lastStep_eq_entry_iff.mp hlast
    exact ⟨parent, mode, entries, hgoal, hparent, hfind, endsIn_of_lastStep hlast,
      endsIn_temporary hsplit hchosen hlast, hlast, lastStep_temporary_eq hsplit hchosen hlast⟩

/-- A directory with a file, and beside it a link to the directory. -/
def linkedDirectory : FileSystem where
  rootMode := .newDirectory
  root :=
    .sub (utf8 "a") .newDirectory (.leaf (utf8 "f") (.file 0) .empty)
      (.leaf (utf8 "l") (.link (utf8 "a")) .empty)
  files := [⟨pack [9], .newFile⟩]
  workingDirectory := []

/-- A path that goes through the link, above what that leads to, and through the link again. -/
theorem sibling_of_temporaryPath?_linked :
    linkedDirectory.EndsIn (utf8 "./l/..//l/.f.7-0.tmp") [utf8 "a"] (utf8 ".f.7-0.tmp") := by
  have hchosen : temporaryPath? ⟨7, 0⟩ (utf8 "./l/..//l/./f") = some (utf8 "./l/..//l/.f.7-0.tmp") := by
    decide +kernel
  obtain ⟨-, hsibling, -⟩ := sibling_of_temporaryPath? ⟨7, 0⟩ (utf8 "./l/..//l/./f")
  obtain ⟨name, hlast, -, -, hplaces⟩ := hsibling _ hchosen
  obtain rfl : utf8 "f" = name := by
    have hlast' : (components (utf8 "./l/..//l/./f")).getLast? = some (.name (utf8 "f")) := by
      decide +kernel
    exact Component.name.inj (Option.some.inj (hlast'.symm.trans hlast))
  obtain ⟨parent, -, -, hgoal, -, -, -, hends, -⟩ :=
    hplaces linkedDirectory (.file 0) (by decide +kernel)
  obtain rfl : [utf8 "a"] = parent := by
    have hgoal' : linkedDirectory.resolve .toEntry (utf8 "./l/..//l/./f") =
        .ok ([utf8 "a"] ++ [utf8 "f"]) := by
      decide +kernel
    exact List.append_inj_left' (Except.ok.inj (hgoal'.symm.trans hgoal)) rfl
  have hname : temporaryName ⟨7, 0⟩ (utf8 "f") = utf8 ".f.7-0.tmp" := by decide +kernel
  rwa [hname] at hends

end Replacement

end Detab
