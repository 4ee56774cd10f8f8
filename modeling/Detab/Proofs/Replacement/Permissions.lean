import Detab.Proofs.Replacement.Completing

set_option relaxedAutoImplicit false
set_option autoImplicit false

/-!
# The permission that a replacement needs

Whether a file can be replaced is up to the directory that it is in: it has to be possible to write
there. What the file itself permits does not count, and neither does the directory of a link that leads
to the file.

A link is replaced under its canonical path. As every name on the way to it is looked up from the root,
it has to be possible to reach the working directory from there, and none of the paths under which these
names are looked up may be too long.

## Main definitions

* `Detab.Replacement.WithinLimits` — neither the paths under which a link is followed nor the temporary
  path is too long.
* `Detab.Replacement.Chosen` — what a replacement goes for, and the temporary path beside it.

## Main results

* `Detab.FileSystem.createNew_of_closed`, `Detab.FileSystem.remove_of_free` — in a directory that
  cannot be written no file is made, and so none is removed.
* `Detab.Replacement.exists_destination` — what is replaced ends with the name of the file.
* `Detab.Replacement.exists_chosen` — within the limits a temporary path is chosen.
* `Detab.Replacement.Chosen.run_replace_of_canWrite`, `Detab.Replacement.Chosen.run_replace_of_closed` —
  **the permission of that directory decides.**
* `Detab.Replacement.free_iff_eq_none` — the temporary path is free if nothing is beside the file under
  the temporary name.
-/

namespace Detab

open Detab.Path

namespace FileSystem

variable {fs : FileSystem} {temporary : Path} {parent : Place} {mode : Mode} {entries : Directory}
  {t : Name}

/-- In a directory that cannot be written no file is made. -/
lemma createNew_of_closed (hlast : fs.lastStep temporary = .ok (.entry parent mode entries t false))
    (hfree : entries.find? t = none) (hclosed : mode.canWrite = false) :
    fs.createNew temporary = .error .permissionDenied := by
  simp [createNew, hlast, hfree, hclosed]

/-- What is not there is not removed. -/
lemma remove_of_free (hlast : fs.lastStep temporary = .ok (.entry parent mode entries t false))
    (hfree : entries.find? t = none) : fs.remove temporary = .error .notFound := by
  simp [remove, hlast, hfree]

end FileSystem

namespace Replacement

open FileSystem

variable {fs : FileSystem} {stamp : Stamp} {path destination temporary : Path} {parent : Place}
  {name : Name} {id : FileId} {old : File} {mode dirMode : Mode} {entries : Directory}
  {split : List Bytes} {session : Session}

/-- **Within the limits of the system:** if the path is a link, none of the paths from the root under
which it is followed is too long, and neither is the temporary path; and none of them has a name that
is. -/
structure WithinLimits (fs : FileSystem) (stamp : Stamp) (path : Path) : Prop where
  way : fs.isLink path = .ok true → ∀ place ∈ fs.way path, Fits (pathOf place)
  temporary : TemporaryFits fs stamp path

/-- **What is replaced ends with the name of the file,** whether it is the path itself or the canonical
path of what a link leads to.

**Proof sketch.** If the path is no link, it is replaced itself, and its last step is the name of
the file. If it is one, its canonical path is found, as every path on the way can be looked up from
the root, and ends with the name of the file. -/
lemma exists_destination (wf : fs.WellFormed)
    (hleads : fs.LeadsTo .toFile path (parent ++ [name]) id old)
    (hparent : fs.entry? parent = some (.directory dirMode entries))
    (hreachable : fs.isLink path = .ok true → fs.Reachable fs.workingDirectory)
    (hway : fs.isLink path = .ok true → ∀ place ∈ fs.way path, Fits (pathOf place)) :
    ∃ destination split, destination? fs path = some destination ∧
      destination.splitName? = some (split, name) ∧
      fs.lastStep destination = .ok (.entry parent dirMode entries name false) := by
  have hfind : entries.find? name = some (.leaf (.file id)) := find?_of_node? hparent hleads.node
  obtain ⟨link, hlink⟩ := wf.exists_isLink hleads.resolve
  cases link with
  | false =>
    obtain ⟨before, n, hsteps⟩ := wf.exists_steps_of_file hleads.resolve hleads.shape
    obtain ⟨split, hsplit⟩ := exists_splitName?_of_steps hsteps
    obtain ⟨parent', m, e, hplace, hlast⟩ :=
      lastStep_of_resolve_file hsplit (settled_of_isLink hlink) hleads.resolve hleads.shape
    obtain ⟨rfl, hname⟩ := List.append_inj' hplace rfl
    obtain rfl : name = n := by simpa using hname
    obtain ⟨-, -, -, -, hparent', -⟩ := lastStep_eq_entry_iff.mp hlast
    obtain ⟨rfl, rfl⟩ := Entry.directory.inj (Option.some.inj (hparent.symm.trans hparent'))
    exact ⟨path, split, by simp [destination?, hlink], hsplit, hlast⟩
  | true =>
    -- every path on the way can be looked up from the root
    have hplace := wf.canonicalPlace_of_resolve hleads.canonical.resolve (hreachable hlink)
      (hway hlink)
    have hdestination : destination? fs path = some (pathOf (parent ++ [name])) := by
      simp [destination?, hlink, canonicalPath, hplace, Except.map, Except.toOption]
    have hnames : ∀ n ∈ parent ++ [name], IsName n := wf.isName (node?_eq_leaf_iff.mp hleads.node)
    have hsteps : steps (pathOf (parent ++ [name])) = parent.map .name ++ [.name name] := by
      rw [steps_pathOf hnames (by simp), List.map_append]
      rfl
    obtain ⟨split, hsplit⟩ := exists_splitName?_of_steps hsteps
    refine ⟨_, split, hdestination, hsplit, ?_⟩
    exact lastStep_pathOf wf ((hreachable hlink).of_resolve hleads.resolve) hparent (by simp [hfind])
      (hway hlink _ (wf.mem_way hleads.resolve hleads.shape))

/-- **What a replacement goes for, and the temporary path that it chooses:** both end in the directory of
the file, which has this mode and these entries. -/
structure Chosen (fs : FileSystem) (stamp : Stamp) (path : Path) (parent : Place) (dirMode : Mode)
    (entries : Directory) (name : Name) (mode : Mode) (destination temporary : Path) : Prop where
  leads : destination? fs path = some destination
  hasMode : fs.modeOf destination = .ok mode
  chosen : temporaryPath? stamp destination = some temporary
  lastStep : fs.lastStep destination = .ok (.entry parent dirMode entries name false)
  lastStep_temporary :
    fs.lastStep temporary = .ok (.entry parent dirMode entries (temporaryName stamp name) false)

/-- They are chosen if the file can be gone for at all, and the temporary path fits. -/
lemma exists_chosen_of_destination (hdestination : destination? fs path = some destination)
    (hmode : fs.modeOf destination = .ok mode) (hsplit : destination.splitName? = some (split, name))
    (hlast : fs.lastStep destination = .ok (.entry parent dirMode entries name false))
    (hfits : TemporaryFits fs stamp path) :
    ∃ temporary, Chosen fs stamp path parent dirMode entries name mode destination temporary := by
  have hchosen := temporaryPath?_of_splitName? stamp hsplit
  have hfits := hfits _ ((temporary?_eq hdestination hmode).trans hchosen)
  exact ⟨_, hdestination, hmode, hchosen, hlast,
    lastStep_temporary_of_fits hsplit hchosen hlast hfits⟩

/-- **Within the limits they are chosen,** if a link can be followed from the root. -/
lemma exists_chosen (wf : fs.WellFormed)
    (hleads : fs.LeadsTo .toFile path (parent ++ [name]) id old)
    (hparent : fs.entry? parent = some (.directory dirMode entries))
    (hreachable : fs.isLink path = .ok true → fs.Reachable fs.workingDirectory)
    (hlimits : WithinLimits fs stamp path) :
    ∃ destination temporary,
      Chosen fs stamp path parent dirMode entries name old.mode destination temporary := by
  obtain ⟨destination, split, hdestination, hsplit, hlast⟩ :=
    exists_destination wf hleads hparent hreachable hlimits.way
  have hfind : entries.find? name = some (.leaf (.file id)) := find?_of_node? hparent hleads.node
  have hmode : fs.modeOf destination = .ok old.mode :=
    LeadsTo.modeOf ⟨resolve_of_lastStep hlast hfind, hleads.node, hleads.file⟩
  obtain ⟨temporary, h⟩ :=
    exists_chosen_of_destination hdestination hmode hsplit hlast hlimits.temporary
  exact ⟨destination, temporary, h⟩

namespace Chosen

variable (h : Chosen fs session.stamp.1 path parent dirMode entries name mode destination temporary)

include h

/-- The directory is the one of the file. -/
lemma entry?_parent : fs.entry? parent = some (.directory dirMode entries) := by
  obtain ⟨-, -, -, -, hparent, -⟩ := lastStep_eq_entry_iff.mp h.lastStep
  exact hparent

/-- In it the temporary name is not taken, if the temporary path is free. -/
lemma find?_temporaryName (hfree : Free ⟨fs, session⟩ path) :
    entries.find? (temporaryName session.stamp.1 name) = none :=
  hfree temporary ((temporary?_eq h.leads h.hasMode).trans h.chosen) _ _ _ _ _ h.lastStep_temporary

/-- **Where the directory of the file can be written, it is replaced.** -/
lemma run_replace_of_canWrite (wf : fs.WellFormed) (hfree : Free ⟨fs, session⟩ path)
    (hnode : fs.node? (parent ++ [name]) = some (.leaf (.file id))) (hwrite : dirMode.canWrite = true)
    (chunks : List ByteArray) :
    (replace path chunks).run.run ⟨fs, session⟩ =
      (.ok (), ⟨fs.overwrite parent name ⟨joined chunks, mode⟩, session.stamp.2⟩) := by
  have hfind : entries.find? name = some (.leaf (.file id)) := find?_of_node? h.entry?_parent hnode
  have room : fs.Room temporary parent dirMode entries (temporaryName session.stamp.1 name) :=
    ⟨h.lastStep_temporary, h.find?_temporaryName hfree, hwrite⟩
  have hrename := (room.rename_draft_eq (temporaryName_ne _ name) h.lastStep ⟨joined chunks, mode⟩).1
    id hfind (Nat.ne_of_lt (wf.id_lt hnode))
  have hsucceeding : Succeeding fs session.stamp.1 path chunks destination temporary mode _ :=
    ⟨h.leads, h.hasMode, h.chosen, _, _, _, _, room, hrename⟩
  exact Succeeding.run hsucceeding

/-- **Where the directory of the file cannot be written,** the temporary file is refused, and nothing
is changed. -/
lemma run_replace_of_closed (hfree : Free ⟨fs, session⟩ path) (hclosed : dirMode.canWrite = false)
    (chunks : List ByteArray) :
    (replace path chunks).run.run ⟨fs, session⟩ =
      (.error (.creating temporary .permissionDenied), ⟨fs, session.stamp.2⟩) := by
  have hnone := h.find?_temporaryName hfree
  let world : World := ⟨fs, session⟩
  have hleads : destination? world.fs path = some destination := h.leads
  let ready : World := ⟨fs, session.stamp.2⟩
  have hnew : ready.fs.createNew temporary = .error .permissionDenied :=
    createNew_of_closed h.lastStep_temporary hnone hclosed
  exact (run_replace_of_chosen hleads h.hasMode h.chosen chunks).trans
    (run_writeOrRemove_of_error hnew (remove_of_free h.lastStep_temporary hnone) destination chunks mode)

end Chosen

/-- **A temporary path is free if nothing is at its place,** which is beside the file.

**Proof sketch.** Within the limits a temporary path is chosen, and its last step is looked up
beside the file; so being free is a matter of this one name. -/
lemma free_iff_eq_none (wf : fs.WellFormed)
    (hleads : fs.LeadsTo .toFile path (parent ++ [name]) id old)
    (hparent : fs.entry? parent = some (.directory dirMode entries))
    (hreachable : fs.isLink path = .ok true → fs.Reachable fs.workingDirectory)
    (hlimits : WithinLimits fs session.stamp.1 path) :
    Free ⟨fs, session⟩ path ↔
      fs.entry? (parent ++ [temporaryName session.stamp.1 name]) = none := by
  constructor
  · intro hfree
    obtain ⟨destination, temporary, h⟩ := exists_chosen wf hleads hparent hreachable hlimits
    rw [entry?_concat hparent]
    exact h.find?_temporaryName hfree
  · intro hnone
    exact free_of_entry?_eq_none wf hleads.resolve hleads.shape hnone

end Replacement

end Detab
