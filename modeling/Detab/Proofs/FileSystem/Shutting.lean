import Detab.Proofs.FileSystem.Descending
import Detab.Proofs.FileSystem.Sights

set_option relaxedAutoImplicit false
set_option autoImplicit false

/-!
# Directories that may not be read

A directory without its owner's permission to read can still be passed through, if the permission to
pass is left. So paths lead where they led before, also those that lead through the directory, and only
opening the directory itself fails.

## Main definitions

* `Detab.Mode.unreadable` — a mode without its owner's permission to read.
* `Detab.FileSystem.shut` — **a tree in which the directories at some places may not be read.**

## Main results

* `Detab.FileSystem.entry?_shut` — what stands at a place is what stood there, but for the permission to
  read.
* `Detab.FileSystem.resolve_shut`, `Detab.FileSystem.isDirectory_shut` — **where paths lead stays the
  same.**
* `Detab.FileSystem.openDirectory_shut_of_ok`, `Detab.FileSystem.openDirectory_shut_of_error` — what can
  still be opened.
-/

namespace Detab

/-! ## Modes -/

namespace Mode

/-- **A mode without its owner's permission to read.** -/
def unreadable (mode : Mode) : Mode :=
  mode &&& ~~~0o400

/-- Only the bit of the owner's permission to read is taken away. -/
lemma getLsbD_unreadable (mode : Mode) (i : Nat) :
    mode.unreadable.getLsbD i = (mode.getLsbD i && decide (i ≠ 8)) := by
  have hbit : ∀ i < 12, (~~~(0o400 : Mode)).getLsbD i = decide (i ≠ 8) := by decide
  rw [unreadable, BitVec.getLsbD_and]
  by_cases hi : i < 12
  · rw [hbit i hi]
  · rw [BitVec.getLsbD_of_ge mode i (Nat.not_lt.mp hi), Bool.false_and, Bool.false_and]

/-- A directory with such a mode cannot be opened by its owner. -/
lemma canRead_unreadable (mode : Mode) : mode.unreadable.canRead = false :=
  (getLsbD_unreadable mode 8).trans (Bool.and_false _)

/-- It can still be passed through, if it could before. -/
lemma canSearch_unreadable (mode : Mode) : mode.unreadable.canSearch = mode.canSearch :=
  (getLsbD_unreadable mode 6).trans (Bool.and_true _)

/-- The mode of the directory at a place, when those at some places may not be read. -/
def shut (places : List Place) (place : Place) (mode : Mode) : Mode :=
  if places.contains place then mode.unreadable else mode

/-- Shutting directories does not take away the permission to pass through them. -/
lemma canSearch_shut (places : List Place) (place : Place) (mode : Mode) :
    (mode.shut places place).canSearch = mode.canSearch := by
  unfold shut
  split
  · exact canSearch_unreadable mode
  · rfl

/-- A directory can be opened after the shutting if it could before, and is not among the shut ones.
-/
lemma canRead_shut (places : List Place) (place : Place) (mode : Mode) :
    (mode.shut places place).canRead = (mode.canRead && decide (place ∉ places)) := by
  unfold shut
  split
  · simp_all [canRead_unreadable]
  · simp_all

end Mode

/-! ## Trees -/

variable {places : List Place} {place : Place}

/-- The entries of the directory at `place`, when the directories at some places may not be read. -/
def Directory.shut (places : List Place) (place : Place) : Directory → Directory
  | empty => empty
  | leaf name l rest => leaf name l (rest.shut places place)
  | sub name mode entries rest =>
    sub name (mode.shut places (place ++ [name])) (entries.shut places (place ++ [name]))
      (rest.shut places place)

/-- The entry at `place`, when the directories at some places may not be read. -/
def Entry.shut (places : List Place) (place : Place) : Entry → Entry
  | .leaf l => .leaf l
  | .directory mode entries => .directory (mode.shut places place) (entries.shut places place)

/-- A name stands for what it stood for, with the directories below it shut. -/
lemma Directory.find?_shut (places : List Place) (place : Place) (n : Name) (d : Directory) :
    (d.shut places place).find? n = (d.find? n).map (Entry.shut places (place ++ [n])) := by
  induction d with
  | empty => rfl
  | leaf name l rest ih => by_cases hn : name = n <;> simp [shut, find?, hn, ih, Entry.shut]
  | sub name mode entries rest _ ih =>
    by_cases hn : name = n <;> simp [shut, find?, hn, ih, Entry.shut]

/-- Following names in a shut tree leads to what they led to before, shut in turn. -/
lemma Entry.follow?_shut (places : List Place) (place way : Place) (e : Entry) :
    (e.shut places place).follow? way = (e.follow? way).map (Entry.shut places (place ++ way)) := by
  induction way generalizing place e with
  | nil => simp [follow?]
  | cons n way ih =>
    cases e with
    | leaf l => rfl
    | directory mode entries =>
      simp only [shut, follow?, Directory.find?_shut]
      cases entries.find? n with
      | none => rfl
      | some e => simpa using ih (place ++ [n]) e

namespace FileSystem

variable {fs : FileSystem} {path : Path} {entries : Directory} {cause : IoError}

/-- **A tree in which the directories at some places may not be read** by their owner. All else is as
before. -/
def shut (fs : FileSystem) (places : List Place) : FileSystem :=
  { fs with rootMode := fs.rootMode.shut places [], root := fs.root.shut places [] }

/-- The entry of a place in a shut tree is its entry, shut. -/
lemma entry?_shut (fs : FileSystem) (places : List Place) (place : Place) :
    entry? (fs.shut places) place = (fs.entry? place).map (Entry.shut places place) :=
  Entry.follow?_shut places [] place (.directory fs.rootMode fs.root)

/-- **Walks do not see that directories are shut:** they ask for the permission to pass through,
never for the permission to read. -/
lemma sight?_shut (fs : FileSystem) (places : List Place) (place : Place) :
    (fs.shut places).sight? place = fs.sight? place := by
  rw [sight?, sight?, entry?_shut]
  rcases fs.entry? place with _ | (id | target) | ⟨mode, entries⟩
  · rfl
  · rfl
  · rfl
  · simp [Entry.shut, Entry.sight, Mode.canSearch_shut]

/-- **Where paths lead stays the same,** through links and through the directories that are shut. -/
lemma resolve_shut (fs : FileSystem) (places : List Place) (walk : Walk) (path : Path) :
    (fs.shut places).resolve walk path = fs.resolve walk path :=
  resolve_congr (sight?_shut fs places) rfl walk path

/-- Whether a path leads to a directory does not depend on which directories are shut. -/
lemma isDirectory_shut (fs : FileSystem) (places : List Place) (path : Path) :
    (fs.shut places).isDirectory path = fs.isDirectory path :=
  isDirectory_congr (sight?_shut fs places) rfl path

/-- A directory that can be opened can still be opened, if it is not shut. -/
lemma openDirectory_shut_of_ok (hplace : fs.resolve .toFile path = .ok place)
    (h : fs.openDirectory path = .ok entries) :
    (fs.shut places).openDirectory path =
      if place ∈ places then .error .permissionDenied else .ok (entries.shut places place) := by
  obtain ⟨place', mode, hplace', hentry, hread⟩ := openDirectory_eq_ok_iff.mp h
  obtain rfl : place' = place := Except.ok.inj (hplace'.symm.trans hplace)
  have hlook : (fs.shut places).lookUp .toFile path =
      .ok (Entry.shut places place' (.directory mode entries)) := by
    refine lookUp_eq_ok_iff.mpr ⟨place', by rwa [resolve_shut], ?_⟩
    rw [entry?_shut, hentry]
    rfl
  rw [openDirectory, hlook]
  simp only [Entry.shut, Mode.canRead_shut, hread, Bool.true_and, decide_eq_true_eq, ite_not]

/-- What cannot be opened still cannot be opened, for the same reason. -/
lemma openDirectory_shut_of_error (h : fs.openDirectory path = .error cause) :
    (fs.shut places).openDirectory path = .error cause := by
  unfold openDirectory lookUp at h ⊢
  rw [resolve_shut]
  cases hplace : fs.resolve .toFile path with
  | error e => rwa [hplace] at h
  | ok place =>
    simp only [hplace, entry?_shut] at h ⊢
    rcases hentry : fs.entry? place with _ | l | ⟨mode, entries⟩
    · rwa [hentry] at h
    · rwa [hentry] at h
    · simp only [hentry] at h
      split_ifs at h with hread
      simpa [Entry.shut, Mode.canRead_shut, hread] using h

end FileSystem

end Detab
