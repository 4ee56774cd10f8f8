import Detab.Proofs.FileSystem.Entries
import Mathlib.Data.List.Induction

set_option relaxedAutoImplicit false
set_option autoImplicit false

/-!
# Trees that can exist

A value of `FileSystem` may hold what no disk can: an entry whose name contains a slash, two entries
of one name, a name of a file that is nowhere. `FileSystem.WellFormed` leaves these out. Nothing else
is asked of a tree: any modes, any links, and any number of names of one file are allowed.

## Main definitions

* `Detab.Path.IsName` — what an entry can be called.
* `Detab.Directory.WellFormed`, `Detab.FileSystem.WellFormed` — trees that can exist.
* `Detab.FileSystem.aliased` — a small tree with two names and a link for one file.

## Main results

* `Detab.FileSystem.WellFormed.isName`, `Detab.FileSystem.WellFormed.id_lt` — what well-formedness
  says of each place.
* `Detab.Directory.WellFormed.changeBelow` — a change of one directory that keeps it well-formed
  keeps the whole tree well-formed.
-/

namespace Detab

/-- **What an entry can be called:** it is not empty, it is neither of the dots, and it holds no
slash and no zero byte. -/
def Path.IsName (name : Name) : Prop :=
  name ≠ [] ∧ name ≠ Path.dot ∧ name ≠ Path.dotDot ∧ Path.slash ∉ name ∧ 0 ∉ name

/-- Whether some bytes are a name can be computed. -/
instance (name : Name) : Decidable (Path.IsName name) :=
  inferInstanceAs (Decidable (_ ∧ _))

/-- A leaf that is not a name of a file behind the end of the table of files. -/
def Leaf.Known (count : Nat) : Leaf → Prop
  | .file id => id < count
  | .link _ => True

/-- Whether a leaf is known can be computed. -/
instance (count : Nat) : (l : Leaf) → Decidable (l.Known count)
  | .file id => inferInstanceAs (Decidable (id < count))
  | .link _ => inferInstanceAs (Decidable True)

namespace Directory

/-- The names of the entries. -/
def names : Directory → List Name
  | empty => []
  | leaf name _ rest => name :: rest.names
  | sub name _ _ rest => name :: rest.names

/-- **A directory that can exist,** when there are `count` files: no name is taken twice, every name
is one, and every file is there. -/
def WellFormed (count : Nat) : Directory → Prop
  | empty => True
  | leaf name l rest =>
    Path.IsName name ∧ name ∉ rest.names ∧ l.Known count ∧ rest.WellFormed count
  | sub name _ entries rest =>
    Path.IsName name ∧ name ∉ rest.names ∧ entries.WellFormed count ∧ rest.WellFormed count

/-- Whether a directory can exist is found out by looking at each of its entries. -/
instance decidableWellFormed (count : Nat) : (d : Directory) → Decidable (d.WellFormed count)
  | empty => inferInstanceAs (Decidable True)
  | leaf name l rest =>
    have := decidableWellFormed count rest
    inferInstanceAs (Decidable (Path.IsName name ∧ name ∉ rest.names ∧ l.Known count ∧
      rest.WellFormed count))
  | sub name _ entries rest =>
    have := decidableWellFormed count entries
    have := decidableWellFormed count rest
    inferInstanceAs (Decidable (Path.IsName name ∧ name ∉ rest.names ∧
      entries.WellFormed count ∧ rest.WellFormed count))

variable {count : Nat} {n t : Name} {l : Leaf}

/-- The names of a directory are those that stand for something. -/
lemma mem_names_iff {d : Directory} : n ∈ d.names ↔ d.find? n ≠ none := by
  induction d with
  | empty => simp [names, find?]
  | leaf name l rest ih => by_cases hn : name = n <;> simp [names, find?, hn, ih, Ne.symm]
  | sub name mode entries rest _ ih =>
    by_cases hn : name = n <;> simp [names, find?, hn, ih, Ne.symm]

/-- A leaf that is added comes last. -/
lemma names_addLeaf (n : Name) (new : Leaf) (d : Directory) :
    (d.addLeaf n new).names = d.names ++ [n] := by
  induction d with
  | empty => rfl
  | leaf name l rest ih => simp only [addLeaf, names, ih, List.cons_append]
  | sub name mode entries rest _ ih => simp only [addLeaf, names, ih, List.cons_append]

/-- Nothing is called anew by a removal. -/
lemma names_removeLeaf (n : Name) (d : Directory) : (d.removeLeaf n).names ⊆ d.names := by
  induction d with
  | empty => exact List.Subset.refl _
  | leaf name l rest ih =>
    unfold removeLeaf
    split
    · exact List.subset_cons_self name rest.names
    · exact List.cons_subset_cons name ih
  | sub name mode entries rest _ ih => exact List.cons_subset_cons name ih

/-- Replacing a leaf keeps the names, in their order. -/
lemma names_replaceLeaf (n : Name) (new : Leaf) (d : Directory) :
    (d.replaceLeaf n new).names = d.names := by
  induction d with
  | empty => rfl
  | leaf name l rest ih => by_cases hn : name = n <;> simp [replaceLeaf, names, hn, ih]
  | sub name mode entries rest _ ih => simp only [replaceLeaf, names, ih]

/-- Changing a directory below a name keeps the names, in their order. -/
lemma names_changeSub (n : Name) (change : Mode → Directory → Mode × Directory) (d : Directory) :
    (d.changeSub n change).names = d.names := by
  induction d with
  | empty => rfl
  | leaf name l rest ih => simp only [changeSub, names, ih]
  | sub name mode entries rest _ ih => by_cases hn : name = n <;> simp [changeSub, names, hn, ih]

namespace WellFormed

/-- More files make no entry less well-formed. -/
lemma mono {d : Directory} (h : d.WellFormed count) {count' : Nat} (hle : count ≤ count') :
    d.WellFormed count' := by
  induction d with
  | empty => trivial
  | leaf name l rest ih =>
    obtain ⟨hname, hnew, hknown, hrest⟩ := h
    refine ⟨hname, hnew, ?_, ih hrest⟩
    cases l with
    | file id => exact Nat.lt_of_lt_of_le hknown hle
    | link target => trivial
  | sub name mode entries rest ihe ih =>
    obtain ⟨hname, hnew, hentries, hrest⟩ := h
    exact ⟨hname, hnew, ihe hentries, ih hrest⟩

/-- A directory stays well formed when a leaf is replaced by one that is known. -/
lemma replaceLeaf {d : Directory} (h : d.WellFormed count) (n : Name) {new : Leaf}
    (hnew : new.Known count) : (d.replaceLeaf n new).WellFormed count := by
  induction d with
  | empty => trivial
  | leaf name l rest ih =>
    obtain ⟨hname, hfresh, hknown, hrest⟩ := h
    unfold Directory.replaceLeaf
    split
    · exact ⟨hname, hfresh, hnew, hrest⟩
    · exact ⟨hname, by rwa [names_replaceLeaf], hknown, ih hrest⟩
  | sub name mode entries rest _ ih =>
    obtain ⟨hname, hfresh, hentries, hrest⟩ := h
    exact ⟨hname, by rwa [names_replaceLeaf], hentries, ih hrest⟩

/-- A directory stays well formed when a known leaf is added under a name that is free. Freeness
keeps the names apart. -/
lemma addLeaf {d : Directory} (h : d.WellFormed count) (hn : Path.IsName n)
    (hfree : d.find? n = none) {new : Leaf} (hnew : new.Known count) :
    (d.addLeaf n new).WellFormed count := by
  have hfresh : n ∉ d.names := fun hmem => mem_names_iff.mp hmem hfree
  clear hfree
  induction d with
  | empty => exact ⟨hn, List.not_mem_nil, hnew, trivial⟩
  | leaf name l rest ih =>
    obtain ⟨hname, hother, hknown, hrest⟩ := h
    obtain ⟨hne, hfresh⟩ := not_or.mp (mt List.mem_cons.mpr hfresh)
    refine ⟨hname, ?_, hknown, ih hrest hfresh⟩
    simp [names_addLeaf, hother, Ne.symm hne]
  | sub name mode entries rest _ ih =>
    obtain ⟨hname, hother, hentries, hrest⟩ := h
    obtain ⟨hne, hfresh⟩ := not_or.mp (mt List.mem_cons.mpr hfresh)
    refine ⟨hname, ?_, hentries, ih hrest hfresh⟩
    simp [names_addLeaf, hother, Ne.symm hne]

/-- A directory stays well formed when a leaf is removed. -/
lemma removeLeaf {d : Directory} (h : d.WellFormed count) (n : Name) :
    (d.removeLeaf n).WellFormed count := by
  induction d with
  | empty => trivial
  | leaf name l rest ih =>
    obtain ⟨hname, hfresh, hknown, hrest⟩ := h
    unfold Directory.removeLeaf
    split
    · exact hrest
    · exact ⟨hname, fun hmem => hfresh (names_removeLeaf n rest hmem), hknown, ih hrest⟩
  | sub name mode entries rest _ ih =>
    obtain ⟨hname, hfresh, hentries, hrest⟩ := h
    exact ⟨hname, fun hmem => hfresh (names_removeLeaf n rest hmem), hentries, ih hrest⟩

/-- A leaf that was removed is gone, since no name is taken twice. -/
lemma find?_removeLeaf {d : Directory} (h : d.WellFormed count)
    (hfind : d.find? t = some (.leaf l)) : (d.removeLeaf t).find? t = none := by
  induction d with
  | empty => rfl
  | leaf name l' rest ih =>
    obtain ⟨-, hfresh, -, hrest⟩ := h
    by_cases ht : name = t
    · subst ht
      rw [Directory.removeLeaf, if_pos rfl]
      exact not_not.mp (mt mem_names_iff.mpr hfresh)
    · simp only [find?, if_neg ht] at hfind
      simp only [Directory.removeLeaf, if_neg ht, find?, ih hrest hfind]
  | sub name mode entries rest _ ih =>
    obtain ⟨-, -, -, hrest⟩ := h
    by_cases ht : name = t
    · simp [find?, ht] at hfind
    · simp only [find?, if_neg ht] at hfind
      simp only [Directory.removeLeaf, find?, if_neg ht, ih hrest hfind]

/-- A directory stays well formed when one below it is changed to one that is well formed. -/
lemma changeSub {d : Directory} (h : d.WellFormed count) (n : Name)
    {change : Mode → Directory → Mode × Directory}
    (hchange : ∀ mode entries, entries.WellFormed count → (change mode entries).2.WellFormed count) :
    (d.changeSub n change).WellFormed count := by
  induction d with
  | empty => trivial
  | leaf name l rest ih =>
    obtain ⟨hname, hfresh, hknown, hrest⟩ := h
    exact ⟨hname, by rwa [names_changeSub], hknown, ih hrest⟩
  | sub name mode entries rest _ ih =>
    obtain ⟨hname, hfresh, hentries, hrest⟩ := h
    unfold Directory.changeSub
    split
    · exact ⟨hname, hfresh, hchange _ _ hentries, hrest⟩
    · exact ⟨hname, by rwa [names_changeSub], hentries, ih hrest⟩

/-- A change of one directory that keeps it well-formed keeps everything above it well-formed. -/
lemma changeBelow {d : Directory} (h : d.WellFormed count)
    {change : Mode → Directory → Mode × Directory}
    (hchange : ∀ mode entries, entries.WellFormed count → (change mode entries).2.WellFormed count)
    (place : Place) (mode : Mode) :
    (Entry.changeBelow change place mode d).2.WellFormed count := by
  induction place generalizing d mode with
  | nil => exact hchange mode d h
  | cons n place ih => exact h.changeSub n fun m e he => ih he m

/-- Every name that stands for something is one. -/
lemma isName {d : Directory} (h : d.WellFormed count) {e : Entry} (hfind : d.find? n = some e) :
    Path.IsName n := by
  induction d with
  | empty => simp [find?] at hfind
  | leaf name l rest ih =>
    unfold find? at hfind
    split at hfind
    · rename_i hn
      exact hn ▸ h.1
    · exact ih h.2.2.2 hfind
  | sub name mode entries rest _ ih =>
    unfold find? at hfind
    split at hfind
    · rename_i hn
      exact hn ▸ h.1
    · exact ih h.2.2.2 hfind

/-- Every file that a name stands for is in the table. -/
lemma known {d : Directory} (h : d.WellFormed count) {l : Leaf}
    (hfind : d.find? n = some (.leaf l)) : l.Known count := by
  induction d with
  | empty => simp [find?] at hfind
  | leaf name l' rest ih =>
    unfold find? at hfind
    split at hfind
    · obtain rfl := Entry.leaf.inj (Option.some.inj hfind)
      exact h.2.2.1
    · exact ih h.2.2.2 hfind
  | sub name mode entries rest _ ih =>
    unfold find? at hfind
    split at hfind
    · simp at hfind
    · exact ih h.2.2.2 hfind

/-- A subdirectory is as well-formed as the directory that it is in. -/
lemma below {d : Directory} (h : d.WellFormed count) {mode : Mode} {entries : Directory}
    (hfind : d.find? n = some (.directory mode entries)) : entries.WellFormed count := by
  induction d with
  | empty => simp [find?] at hfind
  | leaf name l' rest ih =>
    unfold find? at hfind
    split at hfind
    · simp at hfind
    · exact ih h.2.2.2 hfind
  | sub name m e rest _ ih =>
    unfold find? at hfind
    split at hfind
    · simp only [Option.some.injEq, Entry.directory.injEq] at hfind
      exact hfind.2 ▸ h.2.2.1
    · exact ih h.2.2.2 hfind

end WellFormed

end Directory

namespace FileSystem

variable {fs : FileSystem} {place : Place}

/-- **A file system that can exist:** its entries are well-formed, and there is a directory where
relative paths start. -/
structure WellFormed (fs : FileSystem) : Prop where
  root : fs.root.WellFormed fs.files.length
  workingDirectory : ∃ mode, fs.node? fs.workingDirectory = some (.directory mode)

namespace WellFormed

/-- The entries of every directory are well-formed. -/
lemma entries (wf : fs.WellFormed) {mode : Mode} {entries : Directory}
    (h : fs.entry? place = some (.directory mode entries)) :
    entries.WellFormed fs.files.length := by
  induction place using List.reverseRecOn generalizing mode entries with
  | nil =>
    obtain ⟨rfl, rfl⟩ := Entry.directory.inj (Option.some.inj h)
    exact wf.root
  | append_singleton parent n ih =>
    obtain ⟨m, e, hparent⟩ := exists_directory_of_entry?_concat h
    rw [entry?_concat hparent] at h
    exact (ih hparent).below h

/-- Places are made of names. -/
lemma isName (wf : fs.WellFormed) {e : Entry} (h : fs.entry? place = some e) :
    ∀ n ∈ place, Path.IsName n := by
  induction place using List.reverseRecOn generalizing e with
  | nil => simp
  | append_singleton parent n ih =>
    obtain ⟨m, d, hparent⟩ := exists_directory_of_entry?_concat h
    rw [entry?_concat hparent] at h
    intro n' hn'
    rcases List.mem_append.mp hn' with hn' | hn'
    · exact ih hparent n' hn'
    · rw [List.mem_singleton.mp hn']
      exact (wf.entries hparent).isName h

/-- Every file that a place holds is in the table. -/
lemma id_lt (wf : fs.WellFormed) {id : FileId} (h : fs.node? place = some (.leaf (.file id))) :
    id < fs.files.length := by
  rw [node?_eq_leaf_iff] at h
  induction place using List.reverseRecOn with
  | nil => simp at h
  | append_singleton parent n _ =>
    obtain ⟨m, d, hparent⟩ := exists_directory_of_entry?_concat h
    rw [entry?_concat hparent] at h
    exact (wf.entries hparent).known h

end WellFormed

/-- A change of one directory that makes well-formed entries of those that are there keeps the entries
of the whole tree well-formed. -/
lemma wellFormed_root_changeAt {count : Nat} (hroot : fs.root.WellFormed count) {mode : Mode}
    {entries : Directory} (h : fs.entry? place = some (.directory mode entries))
    {change : Directory → Directory} (hchange : (change entries).WellFormed count) :
    (fs.changeAt place change).root.WellFormed count := by
  have hsame : fs.changeAt place change = fs.changeAt place fun _ => change entries :=
    changeAt_congr h rfl
  rw [hsame]
  exact hroot.changeBelow (fun _ _ _ => hchange) place fs.rootMode

/-! ## Small trees -/

/-- A directory `d` in which a file has the name `a.java` and, as a hard link, the name `c`, and in
which `b.java` is a symbolic link to it. -/
def aliases : Directory :=
  .sub (utf8 "d") .newDirectory
    (.leaf (utf8 "a.java") (.file 0) (.leaf (utf8 "b.java") (.link (utf8 "a.java"))
      (.leaf (utf8 "c") (.file 0) .empty))) .empty

/-- A tree of one file, with aliases. -/
def aliased (file : File) : FileSystem :=
  ⟨.newDirectory, aliases, [file], []⟩

/-- The tree with aliases is well-formed, whatever its file holds. -/
lemma wellFormed_aliased (file : File) : (aliased file).WellFormed := by
  have hroot : aliases.WellFormed 1 := by decide +kernel
  exact ⟨hroot, .newDirectory, rfl⟩

/-- A name of so many letters. Names and paths that are as long as is allowed, or nearly so, are made
with it. -/
def letters (count : ℕ) : Name := List.replicate count 110

/-- A tree of one file, which is alone in the outermost directory. -/
def alone (name : Name) (file : File) : FileSystem :=
  ⟨.newDirectory, .leaf name (.file 0) .empty, [file], []⟩

/-- A tree of one file is well-formed, whatever the file holds, if its name is one. -/
lemma wellFormed_alone {name : Name} (hname : Path.IsName name) (file : File) :
    (alone name file).WellFormed := by
  have hroot : (Directory.leaf name (.file 0) .empty).WellFormed 1 :=
    ⟨hname, List.not_mem_nil, Nat.zero_lt_one, trivial⟩
  exact ⟨hroot, .newDirectory, rfl⟩

/-- Directories in each other, the first one outermost, and these entries in the innermost one. -/
def nested (directories : List (Name × Mode)) (entries : Directory) : Directory :=
  directories.foldr (fun (name, mode) below => .sub name mode below .empty) entries

/-- A file with a tab and a link to it, in a working directory that lies below one that cannot be passed
through. -/
def belowShut : FileSystem where
  rootMode := .newDirectory
  root := nested [(utf8 "a", 0o600), (utf8 "b", .newDirectory)]
    (.leaf (utf8 "f") (.file 0) (.leaf (utf8 "l") (.link (utf8 "f")) .empty))
  files := [⟨pack [9], 0o600⟩]
  workingDirectory := [utf8 "a", utf8 "b"]

/-- The working directory may well be one that cannot be reached any more. -/
lemma wellFormed_belowShut : belowShut.WellFormed := by
  have hroot : belowShut.root.WellFormed 1 := by decide +kernel
  exact ⟨hroot, .newDirectory, by decide +kernel⟩

end FileSystem

end Detab
