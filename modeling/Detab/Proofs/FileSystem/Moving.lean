import Detab.Proofs.FileSystem.Drafts

set_option relaxedAutoImplicit false
set_option autoImplicit false

/-!
# Moving a file over another one

A file is given the name of another one in the same directory: its own name is gone, and the name of
the other file stands for it.

## Main definitions

* `Detab.FileSystem.moveOver` — the file system in which that was done.

## Main results

* `Detab.FileSystem.rename_eq_moveOver` — that is what renaming does.
* `Detab.FileSystem.node?_moveOver` — **which places change,** and how.
-/

namespace Detab.FileSystem

variable {fs : FileSystem} {source target : Path} {parent : Place} {mode : Mode}
  {entries : Directory} {t n : Name} {id old : FileId}

/-- **The file system in which a file that was called `t` has taken the name `n`** from another one in
the same directory. -/
def moveOver (fs : FileSystem) (parent : Place) (t n : Name) (id : FileId) : FileSystem :=
  fs.changeAt parent fun entries => (entries.replaceLeaf n (.file id)).removeLeaf t

/-- In a directory, `t` and `n` are the names of two files. -/
structure Moves (entries : Directory) (t n : Name) (id old : FileId) : Prop where
  source : entries.find? t = some (.leaf (.file id))
  target : entries.find? n = some (.leaf (.file old))
  ne : id ≠ old

/-- **Renaming a file to the name of another one in its directory** moves it over that one. -/
lemma rename_eq_moveOver
    (hsource : fs.lastStep source = .ok (.entry parent mode entries t false))
    (htarget : fs.lastStep target = .ok (.entry parent mode entries n false))
    (hwrite : mode.canWrite = true) (hmoves : Moves entries t n id old) :
    fs.rename source target = .ok (fs.moveOver parent t n id) := by
  obtain ⟨-, -, -, -, hparent, -⟩ := lastStep_eq_entry_iff.mp hsource
  have hput : (putLeaf entries n (.file id)).removeLeaf t =
      (entries.replaceLeaf n (.file id)).removeLeaf t := by
    rw [putLeaf, hmoves.target]
  have hmoved : (fs.changeAt parent fun entries => putLeaf entries n (.file id)).changeAt parent
      (Directory.removeLeaf t) = fs.moveOver parent t n id := by
    rw [changeAt_changeAt, moveOver]
    exact changeAt_congr hparent hput
  simp [rename, hsource, htarget, hmoves.source, hmoves.target, hwrite, Ne.symm hmoves.ne, hmoved]

/-- The two names differ, since they stand for different files. -/
lemma Moves.name_ne (hmoves : Moves entries t n id old) : n ≠ t := by
  rintro rfl
  have hsame := hmoves.source.symm.trans hmoves.target
  exact hmoves.ne (by simpa using hsame)

/-- **Which places change** when a file is moved over another one.

**Proof sketch.** First the name of the other file stands for the file, and then the name that it had
is removed. Either change concerns one name, under which there is a leaf. -/
lemma node?_moveOver (wf : fs.WellFormed) (hparent : fs.entry? parent = some (.directory mode entries))
    (hmoves : Moves entries t n id old) (place : Place) :
    (fs.moveOver parent t n id).node? place =
      if place = parent ++ [t] then none
      else if place = parent ++ [n] then some (.leaf (.file id)) else fs.node? place := by
  set fs' := fs.changeAt parent (Directory.replaceLeaf n (.file id)) with hfs'
  have hgiven : fs'.node? place =
      if place = parent ++ [n] then some (.leaf (.file id)) else fs.node? place := by
    refine node?_changeAt_leaf hparent (fun m e h => ?_)
      (Directory.find?_replaceLeaf_self hmoves.target)
      (fun n' hn' => Directory.find?_replaceLeaf_of_ne hn' entries) place
    simp [hmoves.target] at h
  have hparent' : fs'.entry? parent =
      some (.directory mode (entries.replaceLeaf n (.file id))) := by
    have hafter : fs'.entry? (parent ++ []) = _ := entry?_changeAt hparent []
    simpa [Entry.follow?] using hafter
  have hsource : (entries.replaceLeaf n (.file id)).find? t = some (.leaf (.file id)) := by
    rw [Directory.find?_replaceLeaf_of_ne (Ne.symm hmoves.name_ne), hmoves.source]
  have hgone : ((entries.replaceLeaf n (.file id)).removeLeaf t).find? t =
      (none : Option Leaf).map .leaf :=
    ((wf.entries hparent).replaceLeaf n
      ((wf.entries hparent).known hmoves.source)).find?_removeLeaf hsource
  have hremoved := node?_changeAt_name hparent' (fun m e h => by simp [hsource] at h) hgone
    (fun n' hn' => Directory.find?_removeLeaf_of_ne hn' _) place
  rw [hgiven, hfs', changeAt_changeAt] at hremoved
  exact hremoved

/-- A file that is moved over another one leaves a tree that can exist. -/
lemma wellFormed_root_moveOver (wf : fs.WellFormed)
    (hparent : fs.entry? parent = some (.directory mode entries))
    (hmoves : Moves entries t n id old) :
    (fs.moveOver parent t n id).root.WellFormed fs.files.length := by
  have hentries := wf.entries hparent
  exact wellFormed_root_changeAt wf.root hparent
    ((hentries.replaceLeaf n (hentries.known hmoves.source)).removeLeaf t)

/-- A draft leaves a tree that can exist. -/
lemma Room.wellFormed_root_draft (room : fs.Room source parent mode entries t) (wf : fs.WellFormed)
    (file : File) :
    (fs.draft parent t file).root.WellFormed (fs.draft parent t file).files.length := by
  have hcount : (fs.draft parent t file).files.length = fs.files.length + 1 := by
    simp [draft, withFile]
  have hroot : (fs.withFile file).root.WellFormed (fs.files.length + 1) :=
    wf.root.mono (Nat.le_succ _)
  have hparent : entry? (fs.withFile file) parent = some (.directory mode entries) :=
    room.entry?_parent
  have hentries : entries.WellFormed (fs.files.length + 1) :=
    (wf.entries room.entry?_parent).mono (Nat.le_succ _)
  rw [hcount]
  exact wellFormed_root_changeAt hroot hparent
    (hentries.addLeaf (isName_of_lastStep room.lastStep) room.free (Nat.lt_succ_self _))

end Detab.FileSystem
