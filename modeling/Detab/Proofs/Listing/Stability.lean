import Detab.Proofs.Listing.Selection
import Mathlib.Data.List.Sort

set_option relaxedAutoImplicit false
set_option autoImplicit false

/-!
# What a target stands for, in two trees

Which paths a target stands for depends on where names lead and on what may be read there, not on
what files hold. In two trees that are the same to walks a target stands for the same paths.

## Main results

* `Detab.FileSystem.isDirectory_eq_of_keeps` — a path leads to a directory in both trees or in none.
* `Detab.FileSystem.Holds.of_keeps` — the same files are found below a directory.
* `Detab.Conversion.matched_of_keeps` — **a target stands for the same paths.**

## Design

Reading a directory may give different entries, since a name may stand for another file. The paths
that a directory stands for are therefore compared by what is found at each of them, and two lists
of the same ways that are both in order are one list.
-/

namespace Detab

namespace FileSystem

variable {fs fs' : FileSystem} {path target : Path} {goal place : Place} {way : List Name}
  {entries : Directory}

/-- A path leads to a directory when it is resolved to a place that is one, through all links. -/
lemma isDirectory_iff :
    fs.isDirectory path = true ↔
      ∃ place mode, fs.resolve .toFile path = .ok place ∧
        fs.shape? place = some (.directory mode) := by
  constructor
  · intro h
    unfold isDirectory at h
    split at h
    · rename_i mode entries hlook
      obtain ⟨place, hplace, hentry⟩ := lookUp_eq_ok_iff.mp hlook
      exact ⟨place, mode, hplace, shape?_eq_directory_iff.mpr ⟨entries, hentry⟩⟩
    · simp at h
  · rintro ⟨place, mode, hplace, hshape⟩
    obtain ⟨entries, hentry⟩ := shape?_eq_directory_iff.mp hshape
    exact isDirectory_of_resolve hplace hentry

/-- A path that leads to a directory still does in a tree that has everything that this one has. -/
lemma isDirectory_of_keeps (h : fs.Keeps fs') (hdirectory : fs.isDirectory path = true) :
    fs'.isDirectory path = true := by
  obtain ⟨place, mode, hplace, hshape⟩ := isDirectory_iff.mp hdirectory
  exact isDirectory_iff.mpr ⟨place, mode, h.resolve hplace, h.shape place _ hshape⟩

/-- A path leads to a directory in both trees or in none. -/
lemma isDirectory_eq_of_keeps (h : fs.Keeps fs') (h' : fs'.Keeps fs) :
    fs'.isDirectory path = fs.isDirectory path :=
  Bool.eq_iff_iff.mpr ⟨isDirectory_of_keeps h', isDirectory_of_keeps h⟩

/-- What can be opened in a tree can be opened in one that keeps it. -/
lemma exists_openDirectory_of_keeps (h : fs.Keeps fs')
    (hopen : fs.openDirectory path = .ok entries) :
    ∃ entries', fs'.openDirectory path = .ok entries' := by
  obtain ⟨place, mode, hplace, hentry, hread⟩ := openDirectory_eq_ok_iff.mp hopen
  obtain ⟨entries', hentry'⟩ := shape?_eq_directory_iff.mp
    (h.shape place _ (shape?_eq_directory_iff.mpr ⟨entries, hentry⟩))
  exact ⟨entries', openDirectory_eq_ok_iff.mpr
    ⟨place, mode, h.resolve hplace, hentry', hread⟩⟩

/-- **The same files are found below a directory** in two trees that are the same to walks.

**Proof sketch.** Each directory on the way has the same shape in the other tree, so it can be
opened there; the leaf at the end is of the same kind, and a link leads to a directory in both trees
or in neither. -/
lemma Holds.of_keeps (wf : fs'.WellFormed) (h : fs.Keeps fs') (h' : fs'.Keeps fs)
    (htarget : fs.resolve .toFile target = .ok goal) (hholds : fs.Holds target goal way) :
    fs'.Holds target goal way := by
  refine ⟨fun before hbefore hne => ?_, ?_⟩
  · obtain ⟨mode, entries, hentry, hopen⟩ := hholds.opens before hbefore hne
    obtain ⟨entries', hentry'⟩ := shape?_eq_directory_iff.mp
      (h.shape _ _ (shape?_eq_directory_iff.mpr ⟨entries, hentry⟩))
    obtain ⟨found, hfound⟩ := exists_openDirectory_of_keeps h hopen
    obtain rfl := openDirectory_extend wf (h.resolve htarget) hentry' hfound
    exact ⟨mode, found, hentry', hfound⟩
  · obtain ⟨leaf, hleaf, hlink⟩ := hholds.leaf
    rw [← isDirectory_eq_of_keeps h h'] at hlink
    cases leaf with
    | file id =>
      have hfile := h.shape _ _ (shape?_eq_file_iff.mpr ⟨id, node?_eq_leaf_iff.mpr hleaf⟩)
      obtain ⟨id', hid'⟩ := shape?_eq_file_iff.mp hfile
      exact ⟨_, node?_eq_leaf_iff.mp hid', by simp⟩
    | link link =>
      have hshape := h.shape _ _ (shape?_eq_link_iff.mpr hleaf)
      exact ⟨_, shape?_eq_link_iff.mp hshape, fun _ _ => hlink link rfl⟩

end FileSystem

namespace Conversion

open FileSystem

variable {fs fs' : FileSystem}

/-- **A target stands for the same paths** in two trees that are the same to walks.

**Proof sketch.** A target that is a directory is one in both trees, and the same ways lead to its
files. Both match sets are in strict order, and so they are equal. -/
lemma matched_of_keeps (wf : fs.WellFormed) (wf' : fs'.WellFormed) (h : fs.Keeps fs')
    (h' : fs'.Keeps fs) (pattern : Pattern) (target : Path) :
    matched fs' pattern target = matched fs pattern target := by
  by_cases hdirectory : fs.isDirectory target = true
  · obtain ⟨goal, mode, hgoal, hshape⟩ := isDirectory_iff.mp hdirectory
    have hgoal' := h.resolve hgoal
    obtain ⟨entries, hentry⟩ := shape?_eq_directory_iff.mp hshape
    obtain ⟨entries', hentry'⟩ := shape?_eq_directory_iff.mp (h.shape goal _ hshape)
    obtain ⟨ways, hmatched, hways, hordered⟩ := exists_files_survey wf hgoal hentry pattern
    obtain ⟨ways', hmatched', hways', hordered'⟩ :=
      exists_files_survey wf' hgoal' hentry' pattern
    have hsame : ∀ way, way ∈ ways' ↔ way ∈ ways := by
      intro way
      rw [hways, hways']
      exact and_congr_left fun _ =>
        ⟨fun hholds => hholds.of_keeps wf h' h hgoal', fun hholds => hholds.of_keeps wf' h h' hgoal⟩
    rw [matched, matched, hmatched, hmatched', hordered'.eq_of_mem_iff hordered hsame]
  · have hdirectory' : ¬ fs'.isDirectory target = true := by
      rwa [isDirectory_eq_of_keeps h h']
    simp only [matched, survey, hdirectory, hdirectory']
    rfl

end Conversion

end Detab
