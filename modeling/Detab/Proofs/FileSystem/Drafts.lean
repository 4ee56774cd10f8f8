import Detab.Proofs.FileSystem.LastStep

set_option relaxedAutoImplicit false
set_option autoImplicit false

/-!
# Drafts beside a file

A replacement makes a *draft*: a new file under a name that was free. Then it either gives the draft
the name of the file to be replaced, or it removes the draft again. This file says what each of the
operations of a file system does to a draft, and what a tree with a draft, or with a file that was
overwritten by one, holds.

## Main definitions

* `Detab.FileSystem.SameTree` — two file systems that look the same.
* `Detab.FileSystem.withFile` — a file system with one more file, which nothing names.
* `Detab.FileSystem.draft` — a file system with a new file under a new name.
* `Detab.FileSystem.overwrite` — a file system in which a name stands for a new file.
* `Detab.FileSystem.Room` — a path under which a draft can be made.

## Main results

* `Detab.FileSystem.exists_room_of_createNew` — making a new file makes a draft.
* `Detab.FileSystem.append_draft`, `Detab.FileSystem.Room.setMode_draft`,
  `Detab.FileSystem.Room.remove_draft`, `Detab.FileSystem.Room.rename_draft` — **what becomes of a
  draft.**
* `Detab.FileSystem.Room.item?_draft`, `Detab.FileSystem.item?_overwrite` — what else is in the tree.
-/

namespace Detab.FileSystem

open Detab.Path

variable {fs fs' : FileSystem} {path temporary : Path} {parent place goal : Place}
  {mode : Mode} {entries : Directory} {t n : Name} {file : File} {id : FileId}

/-! ## One more file -/

/-- The file system with one more file, which nothing names. -/
def withFile (fs : FileSystem) (file : File) : FileSystem :=
  { fs with files := fs.files ++ [file] }

/-- The file system with a new file under a new name. -/
def draft (fs : FileSystem) (parent : Place) (t : Name) (file : File) : FileSystem :=
  (fs.withFile file).changeAt parent (Directory.addLeaf t (.file fs.files.length))

/-- **The file system in which a name of a directory stands for a new file** instead of the leaf that
it stood for. -/
def overwrite (fs : FileSystem) (parent : Place) (n : Name) (file : File) : FileSystem :=
  (fs.withFile file).changeAt parent (Directory.replaceLeaf n (.file fs.files.length))

/-- A change of the newest file. -/
lemma modify_length_concat {α : Type} (f : α → α) (l : List α) (a : α) :
    (l ++ [a]).modify l.length f = l ++ [f a] := by
  induction l with
  | nil => rfl
  | cons b l ih => simp [ih]

/-- Changing the new file of a draft makes the draft of a changed file. -/
lemma changeFile_draft (change : File → File) :
    (fs.draft parent t file).changeFile fs.files.length change =
      fs.draft parent t (change file) := by
  simp only [changeFile, draft, withFile, changeAt, changeDirectory, modify_length_concat]

/-- Writing to a draft. -/
lemma append_draft (bytes : ByteArray) :
    (fs.draft parent t file).append fs.files.length bytes =
      fs.draft parent t { file with contents := file.contents ++ bytes } :=
  changeFile_draft _

/-- **The same tree:** the same names in the same directories, and every place holds the same. -/
structure SameTree (fs fs' : FileSystem) : Prop where
  workingDirectory : fs'.workingDirectory = fs.workingDirectory
  entry : ∀ place, fs'.entry? place = fs.entry? place
  item : ∀ place, fs'.item? place = fs.item? place

/-- Every tree is the same as itself. -/
lemma SameTree.refl (fs : FileSystem) : fs.SameTree fs :=
  ⟨rfl, fun _ => rfl, fun _ => rfl⟩

/-- Further files are not seen at a place that keeps its node. -/
lemma item?_eq_of_prefix (wf : fs.WellFormed) (hfiles : fs.files <+: fs'.files)
    (hnode : fs'.node? place = fs.node? place) : fs'.item? place = fs.item? place := by
  obtain ⟨more, hmore⟩ := hfiles
  rw [item?_eq_bind_node?, item?_eq_bind_node?, hnode, ← hmore]
  rcases hplace : fs.node? place with _ | (id | target) | mode
  · rfl
  · have hid : id < fs.files.length := wf.id_lt hplace
    simp only [Option.bind_some, Node.item?, itemOfLeaf?, List.getElem?_append_left hid]
  · rfl
  · rfl

/-- A file that no name has is not seen. -/
lemma item?_eq_of_node? (wf : fs.WellFormed) (hfiles : fs'.files = fs.files ++ [file])
    (hnode : fs'.node? place = fs.node? place) : fs'.item? place = fs.item? place :=
  item?_eq_of_prefix wf ⟨[file], hfiles.symm⟩ hnode

/-- One more file that nothing names leaves the tree the same: in a well-formed tree no name stands
for a number behind the end of the table. -/
lemma WellFormed.sameTree_withFile (wf : fs.WellFormed) (file : File) :
    fs.SameTree (fs.withFile file) :=
  ⟨rfl, fun _ => rfl, fun _ => item?_eq_of_node? wf rfl rfl⟩

/-! ## Room for a draft -/

/-- **A path under which a draft can be made:** its last step is a name that is free, in a directory
that can be written. -/
structure Room (fs : FileSystem) (temporary : Path) (parent : Place) (mode : Mode)
    (entries : Directory) (t : Name) : Prop where
  lastStep : fs.lastStep temporary = .ok (.entry parent mode entries t false)
  free : entries.find? t = none
  canWrite : mode.canWrite = true

/-- **Making a new file makes a draft.**

**Proof sketch.** Along the tests that making a file consists of: the last step has to be a name
without a slash behind it, the name has to be free, and the directory has to be one that can be
written. -/
lemma exists_room_of_createNew (h : fs.createNew path = .ok (id, fs')) :
    ∃ parent mode entries t, fs.Room path parent mode entries t ∧ id = fs.files.length ∧
      fs' = fs.draft parent t ⟨.empty, .newFile⟩ := by
  unfold createNew at h
  cases hlast : fs.lastStep path with
  | error e => simp [hlast] at h
  | ok last =>
    cases last with
    | nameless => simp [hlast] at h
    | entry parent mode entries t asDirectory =>
      simp only [hlast] at h
      split at h
      · simp at h
      rename_i hslash
      split at h
      · simp at h
      rename_i hfree
      split at h
      · rename_i hwrite
        obtain ⟨rfl, rfl⟩ := Prod.mk.inj (Except.ok.inj h)
        obtain rfl : asDirectory = false := by simpa using hslash
        exact ⟨parent, mode, entries, t, ⟨hlast, hfree, hwrite⟩, rfl, rfl⟩
      · simp at h

/-- Where nothing exists, nothing is removed. -/
lemma exists_error_of_remove_of_vacant (h : fs.Vacant path) : ∃ e, fs.remove path = .error e := by
  unfold remove
  cases hlast : fs.lastStep path with
  | error e => exact ⟨e, rfl⟩
  | ok last =>
    cases last with
    | nameless => exact ⟨_, rfl⟩
    | entry parent mode entries t asDirectory =>
      refine ⟨.notFound, ?_⟩
      simp only [h parent mode entries t asDirectory hlast]

namespace Room

variable (room : fs.Room temporary parent mode entries t)

include room

/-- What the directory of the draft holds before the draft is made. -/
lemma entry?_parent : fs.entry? parent = some (.directory mode entries) := by
  obtain ⟨-, -, -, -, hparent, -⟩ := lastStep_eq_entry_iff.mp room.lastStep
  exact hparent

/-- The directory of a draft. -/
lemma entry?_draft :
    entry? (fs.draft parent t file) parent =
      some (.directory mode (entries.addLeaf t (.file fs.files.length))) := by
  have hparent : entry? (fs.withFile file) parent = some (.directory mode entries) :=
    room.entry?_parent
  have hafter : entry? (fs.draft parent t file) (parent ++ []) =
      Entry.follow? [] (.directory mode (entries.addLeaf t (.file fs.files.length))) :=
    entry?_changeAt hparent []
  simpa [Entry.follow?] using hafter

/-- A draft is the only change. -/
lemma node?_draft (file : File) (place : Place) :
    (fs.draft parent t file).node? place =
      if place = parent ++ [t] then some (.leaf (.file fs.files.length)) else fs.node? place := by
  have hparent : entry? (fs.withFile file) parent = some (.directory mode entries) :=
    room.entry?_parent
  refine node?_changeAt_leaf hparent (fun m e h => ?_) (Directory.find?_addLeaf_self room.free)
    (fun n hn => Directory.find?_addLeaf_of_ne hn entries) place
  simp [room.free] at h

/-- Nothing is at the place of the draft before it is made. -/
lemma node?_eq_none : fs.node? (parent ++ [t]) = none := by
  rw [node?_eq_none_iff, entry?_concat room.entry?_parent, room.free]

/-- A draft takes nothing away. -/
lemma keeps_draft (file : File) : fs.Keeps (fs.draft parent t file) := by
  refine ⟨rfl, fun place shape h => ?_⟩
  rw [shape?] at h ⊢
  rw [room.node?_draft, if_neg]
  · exact h
  · rintro rfl
    simp [room.node?_eq_none] at h

/-- The temporary path in the tree with the draft. -/
lemma lastStep_draft :
    (fs.draft parent t file).lastStep temporary =
      .ok (.entry parent mode (entries.addLeaf t (.file fs.files.length)) t false) :=
  lastStep_of_keeps (room.keeps_draft file) room.lastStep room.entry?_draft

/-- Setting the mode of a draft. -/
lemma setMode_draft (newMode : Mode) :
    (fs.draft parent t file).setMode temporary newMode =
      .ok (fs.draft parent t { file with mode := newMode }) := by
  have hfind : (entries.addLeaf t (.file fs.files.length)).find? t =
      some (.leaf (.file fs.files.length)) := Directory.find?_addLeaf_self room.free
  have hlast : FileSystem.lastStep (fs.draft parent t file) temporary =
      .ok (.entry parent mode (entries.addLeaf t (.file fs.files.length)) t false) :=
    room.lastStep_draft
  have hresolve := resolve_of_lastStep hlast hfind
  have hentry : entry? (fs.draft parent t file) (parent ++ [t]) =
      some (.leaf (.file fs.files.length)) := by
    rw [entry?_concat room.entry?_draft, hfind]
  rw [setMode, hresolve]
  simp only [hentry, changeFile_draft]

/-- **Removing a draft** leaves a file that nothing names. -/
lemma remove_draft : (fs.draft parent t file).remove temporary = .ok (fs.withFile file) := by
  have hfind : (entries.addLeaf t (.file fs.files.length)).find? t =
      some (.leaf (.file fs.files.length)) := Directory.find?_addLeaf_self room.free
  have hparent : entry? (fs.withFile file) parent = some (.directory mode entries) :=
    room.entry?_parent
  have hundone : (fs.draft parent t file).changeAt parent (Directory.removeLeaf t) =
      fs.withFile file := by
    rw [draft, changeAt_changeAt]
    exact changeAt_eq_self hparent (Directory.removeLeaf_addLeaf room.free)
  rw [remove, room.lastStep_draft]
  simp only [hfind, room.canWrite, hundone]
  simp

/-- **What else is in the tree with a draft.** -/
lemma item?_draft (wf : fs.WellFormed) (place : Place) :
    (fs.draft parent t file).item? place =
      if place = parent ++ [t] then some (.file file.contents file.mode) else fs.item? place := by
  have hnode := room.node?_draft file place
  split_ifs at hnode ⊢ with hplace
  · rw [item?_eq_bind_node?, hnode]
    simp [Node.item?, itemOfLeaf?, draft, withFile]
  · exact item?_eq_of_node? wf rfl hnode

end Room

/-! ## Overwriting -/

section Overwriting

variable (hold : fs.node? (parent ++ [n]) = some (.leaf (.file id)))

include hold

/-- When there is something at the place of a name, it is found in the directory that the name is
in. -/
lemma exists_find?_of_node? : ∃ mode entries, fs.entry? parent = some (.directory mode entries) ∧
    entries.find? n = some (.leaf (.file id)) := by
  obtain ⟨mode, entries, hparent⟩ :=
    exists_directory_of_entry?_concat (node?_eq_leaf_iff.mp hold)
  exact ⟨mode, entries, hparent, find?_of_node? hparent hold⟩

/-- The name stands for the new file, and that is the only change. -/
lemma node?_overwrite (file : File) (place : Place) :
    (fs.overwrite parent n file).node? place =
      if place = parent ++ [n] then some (.leaf (.file fs.files.length)) else fs.node? place := by
  obtain ⟨mode, entries, hparent, hfind⟩ := exists_find?_of_node? hold
  have hparent' : entry? (fs.withFile file) parent = some (.directory mode entries) := hparent
  refine node?_changeAt_leaf hparent' (fun m e h => ?_) (Directory.find?_replaceLeaf_self hfind)
    (fun n' hn' => Directory.find?_replaceLeaf_of_ne hn' entries) place
  simp [hfind] at h

/-- **What else is in the tree with a file that was overwritten.** -/
lemma item?_overwrite (wf : fs.WellFormed) (file : File) (place : Place) :
    (fs.overwrite parent n file).item? place =
      if place = parent ++ [n] then some (.file file.contents file.mode) else fs.item? place := by
  have hnode := node?_overwrite hold file place
  split_ifs at hnode ⊢ with hplace
  · rw [item?_eq_bind_node?, hnode]
    simp [Node.item?, itemOfLeaf?, overwrite, withFile]
  · exact item?_eq_of_node? wf rfl hnode

/-- Overwriting a file changes nothing for walks. -/
lemma shape?_overwrite (file : File) (place : Place) :
    (fs.overwrite parent n file).shape? place = fs.shape? place := by
  rw [shape?, shape?, node?_overwrite hold]
  split_ifs with hplace
  · rw [hplace, hold]
    rfl
  · rfl

/-- After a file has been overwritten everything is there that was there before. -/
lemma keeps_overwrite (file : File) : fs.Keeps (fs.overwrite parent n file) :=
  ⟨rfl, fun place shape h => by rwa [shape?_overwrite hold]⟩

/-- Nothing more is there than was there before, so that walks go the same ways in both trees. -/
lemma overwrite_keeps (file : File) : (fs.overwrite parent n file).Keeps fs :=
  ⟨rfl, fun place shape h => by rwa [shape?_overwrite hold] at h⟩

/-- Overwriting a file makes a tree that can exist.

**Proof sketch.** The new file's number is the last one of the longer table. The working directory
is not the place that was overwritten, because that held a file. -/
lemma WellFormed.overwrite (wf : fs.WellFormed) (file : File) :
    (fs.overwrite parent n file).WellFormed := by
  have hcount : (fs.overwrite parent n file).files.length = fs.files.length + 1 := by
    simp [FileSystem.overwrite, withFile]
  refine ⟨?_, ?_⟩
  · rw [hcount]
    have hroot : fs.root.WellFormed (fs.files.length + 1) := wf.root.mono (Nat.le_succ _)
    refine hroot.changeBelow (fun mode entries hentries => ?_) parent fs.rootMode
    exact hentries.replaceLeaf n (Nat.lt_succ_self _)
  · obtain ⟨mode, hmode⟩ := wf.workingDirectory
    refine ⟨mode, ?_⟩
    have hnode := node?_overwrite hold file fs.workingDirectory
    rw [if_neg] at hnode
    · exact hnode.trans hmode
    · intro hplace
      simp [← hplace, hmode] at hold

end Overwriting

/-! ## Giving a draft its name -/

/-- Where a file or a directory is, no link has the name. -/
lemma find?_of_solid (hparent : fs.entry? parent = some (.directory mode entries))
    (hsolid : fs.Solid (parent ++ [n])) :
    (∃ id, entries.find? n = some (.leaf (.file id))) ∨
      ∃ m e, entries.find? n = some (.directory m e) := by
  obtain ⟨shape, hshape, hlink⟩ := hsolid
  rw [shape?, node?, entry?_concat hparent] at hshape
  rcases hfind : entries.find? n with _ | (id | target) | ⟨m, e⟩
  · simp [hfind] at hshape
  · exact .inl ⟨id, rfl⟩
  · simp only [hfind, Option.map_some, Option.some.injEq] at hshape
    exact absurd hshape.symm (hlink target)
  · exact .inr ⟨m, e, rfl⟩

/-- A leaf that was added under one name and moved to another one has replaced what was there. -/
lemma removeLeaf_putLeaf_addLeaf {leaf : Leaf} (hfree : entries.find? t = none) (hne : n ≠ t)
    (hold : entries.find? n ≠ none) :
    (putLeaf (entries.addLeaf t leaf) n leaf).removeLeaf t = entries.replaceLeaf n leaf := by
  obtain ⟨entry, hentry⟩ := Option.ne_none_iff_exists'.mp hold
  have hstill : (entries.addLeaf t leaf).find? n = some entry := by
    rw [Directory.find?_addLeaf_of_ne hne, hentry]
  have hfree' : (entries.replaceLeaf n leaf).find? t = none := by
    rw [Directory.find?_replaceLeaf_of_ne (Ne.symm hne), hfree]
  rw [putLeaf, hstill]
  dsimp only
  rw [Directory.replaceLeaf_addLeaf hne, Directory.removeLeaf_addLeaf hfree']

/-- A draft that was given the name of a path has been beside what the path leads to.

**Proof sketch.** Both paths have a last step in the tree with the draft, for otherwise the renaming
would have failed. The temporary path is the sibling of the path there, so its last step is in the
same directory, under the new name; and what the path leads to was there before the draft was made.
-/
lemma Room.lastStep_of_rename (room : fs.Room temporary parent mode entries t)
    {newName : Name → Name} {split : List Bytes} (hsplit : path.splitName? = some (split, n))
    (htemporary : path.sibling? newName = some temporary) (hstep : IsStep (newName n))
    (hgoal : fs.resolve .toFile path = .ok goal)
    (h : (fs.draft parent t file).rename temporary path = .ok fs') :
    t = newName n ∧ fs.lastStep path = .ok (.entry parent mode entries n false) := by
  have htemp : FileSystem.lastStep (fs.draft parent t file) temporary =
      .ok (.entry parent mode (entries.addLeaf t (.file fs.files.length)) t false) :=
    room.lastStep_draft
  have hmoved : (entries.addLeaf t (.file fs.files.length)).find? t =
      some (.leaf (.file fs.files.length)) := Directory.find?_addLeaf_self room.free
  unfold rename at h
  -- without a last step of the path the renaming would have failed
  rcases hlast : (fs.draft parent t file).lastStep path with
    e | ⟨p, m, e, n', asDirectory⟩ | _
  · simp [htemp, hlast] at h
  swap
  · simp [htemp, hlast] at h
  simp only [htemp, hlast, hmoved, Bool.false_or] at h
  split at h
  · simp at h
  rename_i hslash
  obtain rfl : asDirectory = false := by simpa using hslash
  obtain ⟨rfl, -⟩ := lastStep_of_sibling hsplit htemporary hstep room.lastStep
  obtain ⟨rfl, rfl⟩ := lastStep_sibling hsplit htemporary hstep hlast htemp
  have hparent : entry? (fs.draft parent (newName n') file) parent = some (.directory m e) := by
    obtain ⟨-, -, -, -, hparent, -⟩ := lastStep_eq_entry_iff.mp hlast
    exact hparent
  obtain ⟨rfl, rfl⟩ : mode = m ∧ entries.addLeaf (newName n') (.file fs.files.length) = e := by
    simpa using room.entry?_draft.symm.trans hparent
  exact ⟨rfl, (room.keeps_draft file).lastStep_of_resolve hgoal hlast room.entry?_parent⟩

/-- What giving a draft another name in its directory comes to: it takes the place of a file that is
not the draft, and is refused that of a directory.

**Proof sketch.** The last steps of both paths are known in the tree with the draft. The rest is the
table of what renaming does, by what has the name already; moving the draft over a file is adding
its name, replacing the other one, and removing the first again. -/
lemma Room.rename_draft_eq (room : fs.Room temporary parent mode entries t) (hne : t ≠ n)
    (hlast : fs.lastStep path = .ok (.entry parent mode entries n false)) (file : File) :
    (∀ id, entries.find? n = some (.leaf (.file id)) → id ≠ fs.files.length →
      (fs.draft parent t file).rename temporary path = .ok (fs.overwrite parent n file)) ∧
    ∀ m e, entries.find? n = some (.directory m e) →
      (fs.draft parent t file).rename temporary path = .error .isDirectory := by
  have htemp : FileSystem.lastStep (fs.draft parent t file) temporary =
      .ok (.entry parent mode (entries.addLeaf t (.file fs.files.length)) t false) :=
    room.lastStep_draft
  have hpath : FileSystem.lastStep (fs.draft parent t file) path =
      .ok (.entry parent mode (entries.addLeaf t (.file fs.files.length)) n false) :=
    lastStep_of_keeps (room.keeps_draft file) hlast room.entry?_draft
  have hmoved : (entries.addLeaf t (.file fs.files.length)).find? t =
      some (.leaf (.file fs.files.length)) := Directory.find?_addLeaf_self room.free
  have hothers : (entries.addLeaf t (.file fs.files.length)).find? n = entries.find? n :=
    Directory.find?_addLeaf_of_ne (Ne.symm hne) entries
  have hparent : entry? (fs.withFile file) parent = some (.directory mode entries) :=
    room.entry?_parent
  refine ⟨fun id hfile hid => ?_, fun m e hdirectory => ?_⟩
  · -- adding a name, replacing the other one and removing the first again is one replacement
    have hwritten : ((fs.draft parent t file).changeAt parent fun entries =>
          putLeaf entries n (.file fs.files.length)).changeAt parent (Directory.removeLeaf t) =
        fs.overwrite parent n file := by
      rw [draft, overwrite, changeAt_changeAt, changeAt_changeAt]
      exact changeAt_congr hparent
        (removeLeaf_putLeaf_addLeaf room.free (Ne.symm hne) (by simp [hfile]))
    simp [rename, htemp, hpath, hmoved, hothers, hfile, room.canWrite, hid, hwritten]
  · simp [rename, htemp, hpath, hmoved, hothers, hdirectory, room.canWrite]

/-- **Giving a draft the name of the file beside it** overwrites that file.

**Proof sketch.** Both paths end in the same directory, so the file is found there under the last
name of its path. It is not the draft itself, whose number is new. -/
lemma Room.rename_draft (room : fs.Room temporary parent mode entries t) (wf : fs.WellFormed)
    {newName : Name → Name} {split : List Bytes} (hsplit : path.splitName? = some (split, n))
    (htemporary : path.sibling? newName = some temporary) (hstep : IsStep (newName n))
    (hne : newName n ≠ n) (hsettled : fs.Settled path)
    (hgoal : fs.resolve .toFile path = .ok goal)
    (h : (fs.draft parent t file).rename temporary path = .ok fs') :
    goal = parent ++ [n] ∧ (∃ id, fs.node? (parent ++ [n]) = some (.leaf (.file id))) ∧
      fs' = fs.overwrite parent n file := by
  obtain ⟨rfl, hlast⟩ := room.lastStep_of_rename hsplit htemporary hstep hgoal h
  obtain rfl := resolve_eq_concat rfl hlast hgoal fun _ => hsettled _ _ _ _ hlast
  obtain ⟨hofFile, hofDirectory⟩ := room.rename_draft_eq hne hlast file
  rcases find?_of_solid room.entry?_parent (wf.solid_of_resolve rfl hgoal) with
    ⟨id, hfile⟩ | ⟨m, e, hdirectory⟩
  · have hnode : fs.node? (parent ++ [n]) = some (.leaf (.file id)) := by
      rw [node?_eq_leaf_iff, entry?_concat room.entry?_parent, hfile]
    have hid : id ≠ fs.files.length := Nat.ne_of_lt (wf.id_lt hnode)
    exact ⟨rfl, ⟨id, hnode⟩, Except.ok.inj (h.symm.trans (hofFile id hfile hid))⟩
  · exact absurd (h.symm.trans (hofDirectory m e hdirectory)) (by simp)

end Detab.FileSystem
