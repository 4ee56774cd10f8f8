import Detab.FileSystem.Survey
import Detab.Proofs.FileSystem.Drafts
import Detab.Proofs.FileSystem.Sights

set_option relaxedAutoImplicit false
set_option autoImplicit false

/-!
# The outline of a tree

The *outline* of a tree is what is left of it without its files: names with what they stand for,
links with their targets, and directories with their modes. Which files these are, and what is in
them, is not part of it. All that a walk asks of a tree is in its outline, also where the walk comes
to no good end; so is all that a survey finds.

## Main definitions

* `Detab.FileSystem.outline` — the outline of a tree.
* `Detab.Item.bare` — what a place holds, without contents.
* `Detab.FileSystem.SameEntries` — two trees that only the contents of files tell apart.

## Main results

* `Detab.FileSystem.resolve_outline` — where a path leads, or why it leads nowhere, is decided by the
  outline.
* `Detab.FileSystem.survey_outline` — **what a target turns out to be is decided by the outline.**
* `Detab.FileSystem.sameEntries_withFile`, `Detab.FileSystem.sameEntries_overwrite` — **what keeps the
  entries of a tree.**

## Design

The outline of a tree is a tree itself, in which every name of a file stands for the same number. So
it is resolved and surveyed like any other one, and that two trees have one outline is an equation.
-/

namespace Detab

/-! ## Outlines -/

/-- A leaf, whichever file it names. -/
def Leaf.outline : Leaf → Leaf
  | .file _ => .file 0
  | .link target => .link target

/-- The entries of a directory, whichever files they name. -/
def Directory.outline : Directory → Directory
  | empty => empty
  | leaf name l rest => leaf name l.outline rest.outline
  | sub name mode entries rest => sub name mode entries.outline rest.outline

/-- What a name stands for, whichever files there are. -/
def Entry.outline : Entry → Entry
  | .leaf l => .leaf l.outline
  | .directory mode entries => .directory mode entries.outline

/-- A name stands for the outline of what it stood for. -/
lemma Directory.find?_outline (n : Name) (d : Directory) :
    d.outline.find? n = (d.find? n).map Entry.outline := by
  induction d with
  | empty => rfl
  | leaf name l rest ih => by_cases hn : name = n <;> simp [outline, find?, hn, ih, Entry.outline]
  | sub name mode entries rest _ ih =>
    by_cases hn : name = n <;> simp [outline, find?, hn, ih, Entry.outline]

/-- Following names in an outline leads to the outline of what they lead to in the tree. -/
lemma Entry.follow?_outline (place : Place) (e : Entry) :
    e.outline.follow? place = (e.follow? place).map Entry.outline := by
  induction place generalizing e with
  | nil => rfl
  | cons n place ih =>
    cases e with
    | leaf l => rfl
    | directory mode entries =>
      simp only [outline, follow?, Directory.find?_outline]
      cases entries.find? n with
      | none => rfl
      | some e => exact ih e

namespace FileSystem

open Detab.Path

variable {fs fs' fs'' : FileSystem} {walk : Walk} {path : Path} {parent place : Place}
  {n : Name} {file : File} {id : FileId}

/-- **The outline of a tree:** the tree without its files. -/
def outline (fs : FileSystem) : FileSystem :=
  { fs with root := fs.root.outline, files := [] }

/-- The entry of a place in an outline is the outline of its entry. -/
lemma entry?_outline (fs : FileSystem) (place : Place) :
    fs.outline.entry? place = (fs.entry? place).map Entry.outline :=
  Entry.follow?_outline place (.directory fs.rootMode fs.root)

/-- An outline shows the same shapes as the tree. -/
lemma shape?_outline (fs : FileSystem) (place : Place) :
    fs.outline.shape? place = fs.shape? place := by
  rw [shape?, shape?, node?, node?, entry?_outline]
  rcases fs.entry? place with _ | (id | target) | ⟨mode, entries⟩ <;> rfl

/-! ## What is decided by the outline -/

/-- An outline looks to a walk as the tree does. -/
lemma sight?_outline (fs : FileSystem) (place : Place) :
    fs.outline.sight? place = fs.sight? place := by
  rw [sight?, sight?, entry?_outline]
  rcases fs.entry? place with _ | (id | target) | ⟨mode, entries⟩ <;> rfl

/-- **Where a path leads,** or why it leads nowhere, is decided by the outline. -/
lemma resolve_outline (fs : FileSystem) (walk : Walk) (path : Path) :
    fs.outline.resolve walk path = fs.resolve walk path :=
  resolve_congr (sight?_outline fs) rfl walk path

/-- Looking a path up in an outline finds the outline of what it finds in the tree, and fails where
that fails, with the same error. -/
lemma lookUp_outline (fs : FileSystem) (walk : Walk) (path : Path) :
    fs.outline.lookUp walk path = (fs.lookUp walk path).map Entry.outline := by
  unfold lookUp
  rw [resolve_outline]
  cases fs.resolve walk path with
  | error e => rfl
  | ok place =>
    simp only [entry?_outline]
    cases fs.entry? place <;> rfl

/-- Whether a path leads to a directory can be seen in the outline. -/
lemma isDirectory_outline (fs : FileSystem) (path : Path) :
    fs.outline.isDirectory path = fs.isDirectory path :=
  isDirectory_congr (sight?_outline fs) rfl path

/-- Opening a directory in an outline gives the outline of its entries. -/
lemma openDirectory_outline (fs : FileSystem) (path : Path) :
    fs.outline.openDirectory path = (fs.openDirectory path).map Directory.outline := by
  unfold openDirectory
  rw [lookUp_outline]
  rcases fs.lookUp .toFile path with e | l | ⟨mode, entries⟩
  · rfl
  · rfl
  · simp only [Except.map, Entry.outline]
    split <;> rfl

/-- What is in a directory is listed by the outline. -/
lemma listing_outline (fs : FileSystem) (path : Path) (d : Directory) :
    fs.outline.listing path d.outline = fs.listing path d := by
  induction d generalizing path with
  | empty => rfl
  | leaf name l rest ih =>
    cases l with
    | file id => simp only [Directory.outline, Leaf.outline, listing, ih]
    | link target => simp only [Directory.outline, Leaf.outline, listing, isDirectory_outline, ih]
  | sub name mode entries rest ihentries ih =>
    simp only [Directory.outline, listing, openDirectory_outline]
    cases fs.openDirectory (path.join name) with
    | error e => simp only [Except.map, ih]
    | ok found => simp only [Except.map, ihentries, ih]

/-- **What a target turns out to be** is decided by the outline, with every directory that cannot be
read and the reason why. -/
lemma survey_outline (fs : FileSystem) (target : Path) :
    fs.outline.survey target = fs.survey target := by
  unfold survey
  rw [isDirectory_outline, openDirectory_outline]
  cases fs.openDirectory target with
  | error e => rfl
  | ok entries => simp only [Except.map, listing_outline]

end FileSystem

/-! ## What keeps the outline -/

/-- Another file under the name of a file. -/
lemma Directory.outline_replaceLeaf {d : Directory} {n : Name} {id : FileId}
    (hfind : d.find? n = some (.leaf (.file id))) (new : FileId) :
    (d.replaceLeaf n (.file new)).outline = d.outline := by
  induction d with
  | empty => rfl
  | leaf name l rest ih =>
    by_cases hn : name = n
    · obtain rfl : l = .file id := by simpa [find?, hn] using hfind
      simp [replaceLeaf, hn, outline, Leaf.outline]
    · simp only [find?, if_neg hn] at hfind
      simp only [replaceLeaf, if_neg hn, outline, ih hfind]
  | sub name mode entries rest _ ih =>
    by_cases hn : name = n
    · simp [find?, hn] at hfind
    · simp only [find?, if_neg hn] at hfind
      simp only [replaceLeaf, outline, ih hfind]

/-- A change of a subdirectory that keeps its mode and outline. -/
lemma Directory.outline_changeSub {d : Directory} {n : Name} {mode : Mode} {entries : Directory}
    {change : Mode → Directory → Mode × Directory}
    (hfind : d.find? n = some (.directory mode entries)) (hmode : (change mode entries).1 = mode)
    (hentries : (change mode entries).2.outline = entries.outline) :
    (d.changeSub n change).outline = d.outline := by
  induction d with
  | empty => rfl
  | leaf name l rest ih =>
    by_cases hn : name = n
    · simp [find?, hn] at hfind
    · simp only [find?, if_neg hn] at hfind
      simp only [changeSub, outline, ih hfind]
  | sub name m e rest _ ih =>
    by_cases hn : name = n
    · simp only [find?, if_pos hn, Option.some.injEq, Entry.directory.injEq] at hfind
      obtain ⟨rfl, rfl⟩ := hfind
      simp [changeSub, hn, outline, hmode, hentries]
    · simp only [find?, if_neg hn] at hfind
      simp only [changeSub, if_neg hn, outline, ih hfind]

/-- A change of a directory that keeps its mode and outline keeps that of everything above it.

**Proof sketch.** Induction on the names that lead to the place, each of which finds a directory. -/
lemma Entry.outline_changeBelow {place : Place} {mode m : Mode} {entries e : Directory}
    {change : Mode → Directory → Mode × Directory}
    (hplace : Entry.follow? place (.directory mode entries) = some (.directory m e))
    (hmode : (change m e).1 = m) (hentries : (change m e).2.outline = e.outline) :
    (changeBelow change place mode entries).1 = mode ∧
      (changeBelow change place mode entries).2.outline = entries.outline := by
  induction place generalizing mode entries with
  | nil =>
    simp only [follow?, Option.some.injEq, Entry.directory.injEq] at hplace
    obtain ⟨rfl, rfl⟩ := hplace
    exact ⟨hmode, hentries⟩
  | cons n place ih =>
    simp only [follow?] at hplace
    rcases hfind : entries.find? n with _ | l | ⟨m', e'⟩
    · simp [hfind] at hplace
    · cases place <;> simp [hfind, follow?] at hplace
    · rw [hfind] at hplace
      obtain ⟨hmode', hentries'⟩ := ih hplace
      exact ⟨rfl, Directory.outline_changeSub hfind hmode' hentries'⟩

namespace FileSystem

variable {fs fs' fs'' : FileSystem} {path target : Path} {parent place : Place} {n : Name}
  {file : File} {id : FileId}

/-- A change of the entries of one directory that keeps their outline. -/
lemma outline_changeAt {change : Directory → Directory} {mode : Mode} {entries : Directory}
    (hparent : fs.entry? parent = some (.directory mode entries))
    (hentries : (change entries).outline = entries.outline) :
    (fs.changeAt parent change).outline = fs.outline := by
  have hkept :
      (Entry.changeBelow (fun m e => (m, change e)) parent fs.rootMode fs.root).1 = fs.rootMode ∧
        (Entry.changeBelow (fun m e => (m, change e)) parent fs.rootMode fs.root).2.outline =
          fs.root.outline :=
    Entry.outline_changeBelow hparent rfl hentries
  simp only [outline, changeAt, changeDirectory, hkept.1, hkept.2]

/-- Overwriting a file keeps the outline. -/
lemma outline_overwrite (hold : fs.node? (parent ++ [n]) = some (.leaf (.file id))) (file : File) :
    (fs.overwrite parent n file).outline = fs.outline := by
  obtain ⟨mode, entries, hparent, hfind⟩ := exists_find?_of_node? hold
  have hparent' : entry? (fs.withFile file) parent = some (.directory mode entries) := hparent
  calc (fs.overwrite parent n file).outline
      _ = (fs.withFile file).outline :=
        outline_changeAt hparent' (Directory.outline_replaceLeaf hfind _)
      _ = fs.outline := rfl

end FileSystem

/-! ## The same entries -/

/-- What a place holds, without contents: the kind, the mode, and the target of a link. -/
def Item.bare : Item → Item
  | .file _ mode => .file .empty mode
  | .link target => .link target
  | .directory mode => .directory mode

namespace FileSystem

variable {fs fs' fs'' : FileSystem} {path target : Path} {parent place : Place} {n : Name}
  {file old : File} {id : FileId}

/-- **Two trees that only the contents of files tell apart:** every place holds the same in both, up
to contents, and every directory lists its entries in the same order. -/
structure SameEntries (fs fs' : FileSystem) : Prop where
  outline : fs'.outline = fs.outline
  item : ∀ place, (fs'.item? place).map Item.bare = (fs.item? place).map Item.bare

namespace SameEntries

/-- A tree has the same entries as itself. -/
lemma refl (fs : FileSystem) : fs.SameEntries fs :=
  ⟨rfl, fun _ => rfl⟩

/-- Two changes that keep the entries, one after the other, keep the entries. -/
lemma trans (h : fs.SameEntries fs') (h' : fs'.SameEntries fs'') : fs.SameEntries fs'' :=
  ⟨h'.outline.trans h.outline, fun place => (h'.item place).trans (h.item place)⟩

/-- What a target turns out to be is the same. -/
lemma survey (h : fs.SameEntries fs') (target : Path) : fs'.survey target = fs.survey target := by
  rw [← survey_outline, h.outline, survey_outline]

/-- Trees with the same entries have the same shapes everywhere. -/
lemma shape? (h : fs.SameEntries fs') (place : Place) : fs'.shape? place = fs.shape? place := by
  rw [← shape?_outline, h.outline, shape?_outline]

/-- No place has come or gone. -/
lemma entry?_eq_none_iff (h : fs.SameEntries fs') (place : Place) :
    fs'.entry? place = none ↔ fs.entry? place = none := by
  rw [← shape?_eq_none_iff, h.shape?, shape?_eq_none_iff]

end SameEntries

/-- One more file, which nothing names, is no entry. -/
lemma sameEntries_withFile (wf : fs.WellFormed) (file : File) :
    fs.SameEntries (fs.withFile file) :=
  ⟨rfl, fun place => by rw [(wf.sameTree_withFile file).item]⟩

/-- **A file that is overwritten** by one of the same mode keeps its entry. -/
lemma sameEntries_overwrite (wf : fs.WellFormed)
    (hold : fs.node? (parent ++ [n]) = some (.leaf (.file id))) (hfile : fs.files[id]? = some old)
    (contents : ByteArray) :
    fs.SameEntries (fs.overwrite parent n ⟨contents, old.mode⟩) := by
  refine ⟨outline_overwrite hold _, fun place => ?_⟩
  rw [item?_overwrite hold wf]
  split_ifs with hplace
  · subst hplace
    rw [item?_eq_bind_node?, hold]
    simp [Node.item?, itemOfLeaf?, hfile, Item.bare]
  · rfl

/-- One more file, which nothing names, leaves a tree that can exist. -/
lemma WellFormed.withFile (wf : fs.WellFormed) (file : File) : (fs.withFile file).WellFormed := by
  refine ⟨?_, wf.workingDirectory⟩
  have hcount : (fs.withFile file).files.length = fs.files.length + 1 := by
    simp [FileSystem.withFile]
  rw [hcount]
  exact wf.root.mono (Nat.le_succ _)

end FileSystem

end Detab
