import Detab.Proofs.Replacement.Completing

set_option relaxedAutoImplicit false
set_option autoImplicit false

/-!
# Temporary names that are taken

A replacement makes its temporary file only where nothing has that name yet. But after any failure it
removes what has the name, and that the name was taken is a failure too. So a file or link of
somebody else is removed where it can be, and a directory stays.

## Main definitions

* `Detab.FileSystem.Occupied` — a path that ends at a file or link which can be removed.
* `Detab.Replacement.Occupies` — what is at a place has the temporary name and can be removed.
* `Detab.Replacement.Outcome` — how a replacement ends, and what it leaves.

## Main results

* `Detab.FileSystem.exists_occupied_of_remove`, `Detab.FileSystem.Occupied.item?_removed` — what is
  removed, and what else is in the tree.
* `Detab.Replacement.outcome_of_run` — **how a replacement ends,** whatever has the temporary name.
* `Detab.Replacement.item?_of_run_replace` — **which entries a replacement takes away.**
* `Detab.Replacement.item?_of_run_replace_taken` — a file that the replacement has not made is gone.
-/

namespace Detab

/-! ## Paths that are taken -/

namespace FileSystem

variable {fs fs' : FileSystem} {path : Path} {parent : Place} {mode : Mode} {entries : Directory}
  {t : Name} {leaf : Leaf}

/-- **A path that ends at a file or link which can be removed.** -/
structure Occupied (fs : FileSystem) (path : Path) (parent : Place) (mode : Mode)
    (entries : Directory) (t : Name) (leaf : Leaf) : Prop where
  lastStep : fs.lastStep path = .ok (.entry parent mode entries t false)
  taken : entries.find? t = some (.leaf leaf)
  canWrite : mode.canWrite = true

/-- **What is removed** is a file or link at the end of the path.

**Proof sketch.** Along the tests that removing consists of: the last step has to be a name without
a slash behind it, the name has to be that of a file or a link, and the directory has to be one that
can be written. -/
lemma exists_occupied_of_remove (h : fs.remove path = .ok fs') :
    ∃ parent mode entries t leaf, fs.Occupied path parent mode entries t leaf ∧
      fs' = fs.changeAt parent (Directory.removeLeaf t) := by
  unfold remove at h
  cases hlast : fs.lastStep path with
  | error e => simp [hlast] at h
  | ok last =>
    cases last with
    | nameless => simp [hlast] at h
    | entry parent mode entries t asDirectory =>
      simp only [hlast] at h
      split at h
      · simp at h
      · simp at h
      · rename_i leaf htaken
        split_ifs at h with hslash hwrite
        obtain rfl : asDirectory = false := by simpa using hslash
        exact ⟨parent, mode, entries, t, leaf, ⟨hlast, htaken, hwrite⟩, (Except.ok.inj h).symm⟩

namespace Occupied

variable (occupied : fs.Occupied path parent mode entries t leaf)

include occupied

/-- No new file is made there. -/
lemma createNew : fs.createNew path = .error .alreadyExists := by
  simp [FileSystem.createNew, occupied.lastStep, occupied.taken]

/-- Removing the path takes its name out of the directory. -/
lemma remove : fs.remove path = .ok (fs.changeAt parent (Directory.removeLeaf t)) := by
  simp [FileSystem.remove, occupied.lastStep, occupied.taken, occupied.canWrite]

/-- A draft cannot be made there. -/
lemma not_room {parent' : Place} {mode' : Mode} {entries' : Directory} {t' : Name} :
    ¬ fs.Room path parent' mode' entries' t' := by
  intro room
  have hmade := room.createNew
  rw [occupied.createNew] at hmade
  simp at hmade

/-- What the directory of the path holds. -/
lemma entry?_parent : fs.entry? parent = some (.directory mode entries) := by
  obtain ⟨-, -, -, -, hparent, -⟩ := lastStep_eq_entry_iff.mp occupied.lastStep
  exact hparent

/-- **What else is in the tree** from which the file or link was removed. -/
lemma item?_removed (wf : fs.WellFormed) (place : Place) :
    (fs.changeAt parent (Directory.removeLeaf t)).item? place =
      if place = parent ++ [t] then none else fs.item? place := by
  have hgone : (entries.removeLeaf t).find? t = (none : Option Leaf).map .leaf :=
    (wf.entries occupied.entry?_parent).find?_removeLeaf occupied.taken
  have hnode := node?_changeAt_name occupied.entry?_parent (fun m e h => by
    simp [occupied.taken] at h) hgone (fun n hn => Directory.find?_removeLeaf_of_ne hn entries) place
  rw [item?_eq_bind_node?, hnode, changeAt_files]
  split_ifs
  · rfl
  · rw [item?_eq_bind_node?]

end Occupied

end FileSystem

namespace Replacement

open FileSystem

variable {fs : FileSystem} {stamp : Stamp} {path destination temporary : Path}
  {parent place : Place} {mode : Mode} {entries : Directory} {t : Name} {leaf : Leaf} {world : World}

/-! ## How a replacement ends -/

/-- **What is at a place has the temporary name** that a replacement chooses, and can be removed. -/
def Occupies (fs : FileSystem) (stamp : Stamp) (path : Path) (place : Place) : Prop :=
  ∃ temporary parent mode entries t leaf, temporary? fs stamp path = some temporary ∧
    fs.Occupied temporary parent mode entries t leaf ∧ place = parent ++ [t]

/-- **How a replacement ends, and what it leaves.** -/
inductive Outcome (fs : FileSystem) (stamp : Stamp) (path : Path) (contents : ByteArray) :
    Except Error Unit → FileSystem → Prop
  /-- Nothing was made, and there was nothing to remove. -/
  | kept {e : Error} : (∀ place, ¬ Occupies fs stamp path place) →
      Outcome fs stamp path contents (.error e) fs
  /-- The temporary name was taken, and what had it was removed. -/
  | removed {temporary : Path} {parent : Place} {mode : Mode} {entries : Directory} {t : Name}
      {leaf : Leaf} : temporary? fs stamp path = some temporary →
        fs.Occupied temporary parent mode entries t leaf →
          Outcome fs stamp path contents (.error (.creating temporary .alreadyExists))
            (fs.changeAt parent (Directory.removeLeaf t))
  /-- A draft was made and removed again. -/
  | withdrawn {e : Error} {file : File} : (∀ place, ¬ Occupies fs stamp path place) →
      Outcome fs stamp path contents (.error e) (fs.withFile file)
  /-- The file was replaced. -/
  | replaced {fs' : FileSystem} : (∀ place, ¬ Occupies fs stamp path place) →
      Replaced fs path contents fs' → Outcome fs stamp path contents (.ok ()) fs'

/-- The temporary name is taken at one place only. -/
lemma occupies_iff (htemporary : temporary? fs stamp path = some temporary)
    (occupied : fs.Occupied temporary parent mode entries t leaf) :
    Occupies fs stamp path place ↔ place = parent ++ [t] := by
  constructor
  · rintro ⟨temporary', _, _, _, _, _, htemporary', occupied', rfl⟩
    obtain rfl : temporary = temporary' := Option.some.inj (htemporary.symm.trans htemporary')
    have hsame := Except.ok.inj (occupied.lastStep.symm.trans occupied'.lastStep)
    obtain ⟨rfl, -, -, rfl, -⟩ := LastStep.entry.inj hsame
    rfl
  · exact fun hplace => ⟨_, _, _, _, _, _, htemporary, occupied, hplace⟩

/-- Nothing is in the way where no temporary path is chosen. -/
lemma not_occupies_of_eq_none (h : temporary? fs stamp path = none) (place : Place) :
    ¬ Occupies fs stamp path place := by
  rintro ⟨temporary, -, -, -, -, -, htemporary, -⟩
  simp [h] at htemporary

/-- Nothing is in the way where nothing can be removed. -/
lemma not_occupies_of_remove {e : IoError} (htemporary : temporary? fs stamp path = some temporary)
    (h : fs.remove temporary = .error e) (place : Place) : ¬ Occupies fs stamp path place := by
  rintro ⟨temporary', _, _, _, _, _, htemporary', occupied, -⟩
  obtain rfl : temporary = temporary' := Option.some.inj (htemporary.symm.trans htemporary')
  simp [occupied.remove] at h

/-- Nothing is in the way where there is room for a draft. -/
lemma not_occupies_of_room (htemporary : temporary? fs stamp path = some temporary)
    (room : fs.Room temporary parent mode entries t) (place : Place) :
    ¬ Occupies fs stamp path place := by
  rintro ⟨temporary', _, _, _, _, _, htemporary', occupied, -⟩
  obtain rfl : temporary = temporary' := Option.some.inj (htemporary.symm.trans htemporary')
  exact occupied.not_room room

/-- Writing, and removing the temporary file after a failure.

**Proof sketch.** If the temporary file cannot be made, what is removed was there before. If it can,
it is the draft that is removed. -/
lemma outcome_of_writeOrRemove (wf : world.fs.WellFormed)
    (hleads : destination? world.fs path = some destination)
    (hmode : world.fs.modeOf destination = .ok mode)
    (hchosen : temporaryPath? stamp destination = some temporary) (chunks : List ByteArray) :
    let ended := (writeOrRemove temporary destination chunks mode).run.run world
    Outcome world.fs stamp path (joined chunks) ended.1 ended.2.fs := by
  intro ended
  have htemporary : temporary? world.fs stamp path = some temporary :=
    (temporary?_eq hleads hmode).trans hchosen
  have hended : ended = _ := run_writeOrRemove temporary destination chunks mode world
  cases hnew : world.fs.createNew temporary with
  | error e =>
    rw [run_writeAndRename_of_error hnew] at hended
    dsimp only at hended
    cases hremove : world.fs.remove temporary with
    | error cause =>
      rw [hended, hremove]
      exact .kept (not_occupies_of_remove htemporary hremove)
    | ok fs' =>
      obtain ⟨parent, m, entries, t, leaf, occupied, rfl⟩ := exists_occupied_of_remove hremove
      obtain rfl : IoError.alreadyExists = e :=
        Except.error.inj (occupied.createNew.symm.trans hnew)
      rw [hended, hremove]
      exact .removed htemporary occupied
  | ok made =>
    obtain ⟨parent, m, entries, t, room, -, -⟩ := exists_room_of_createNew hnew
    have hfree := not_occupies_of_room htemporary room
    have hwrite := run_writeAndRename room chunks mode destination world.session
    rw [hwrite] at hended
    cases hrename : (world.fs.draft parent t ⟨joined chunks, mode⟩).rename temporary
        destination with
    | error cause =>
      simp only [hrename, answerChange, Except.mapError, room.remove_draft] at hended
      rw [hended]
      exact .withdrawn hfree
    | ok fs' =>
      simp only [hrename, answerChange, Except.mapError] at hended
      rw [hended]
      exact .replaced hfree (replaced_of_rename wf hleads hchosen hmode room hrename)

/-- **How a replacement ends,** whatever has the temporary name. -/
lemma outcome_of_run (wf : world.fs.WellFormed) (path : Path) (chunks : List ByteArray) :
    let ended := (replace path chunks).run.run world
    Outcome world.fs world.session.stamp.1 path (joined chunks) ended.1 ended.2.fs := by
  intro ended
  cases htemporary : temporary? world.fs world.session.stamp.1 path with
  | none =>
    obtain ⟨e, hfails⟩ := exists_run_replace_of_eq_none _ htemporary chunks
    obtain ⟨session, hrun⟩ := hfails world.session
    have hended : ended = (.error e, ⟨world.fs, session⟩) := hrun
    rw [hended]
    exact .kept (not_occupies_of_eq_none htemporary)
  | some temporary =>
    obtain ⟨destination, mode, hleads, hmode, hchosen⟩ := exists_destination_of_temporary? htemporary
    have hended : ended = _ := run_replace_of_chosen hleads hmode hchosen chunks
    rw [hended]
    let looked : World := ⟨world.fs, world.session.stamp.2⟩
    have wf' : looked.fs.WellFormed := wf
    exact outcome_of_writeOrRemove wf' hleads hmode hchosen chunks

/-- **Which entries a replacement takes away.** What has the temporary name already and can be
removed is removed, since then the temporary file cannot be made. Every other place holds what it
held, but for the file that is replaced, which has the new contents and its old mode.

**Proof sketch.** By the outcomes of a replacement: nothing has happened, what was in the way has
been removed, the draft has been withdrawn, or the file has been replaced. Only in the second one
something was in the way. -/
theorem item?_of_run_replace (wf : world.fs.WellFormed) (chunks : List ByteArray)
    {result : Except Error Unit} {world' : World} {item : Item}
    (h : (replace path chunks).run.run world = (result, world'))
    (hitem : world.fs.item? place = some item) :
    (Occupies world.fs world.session.stamp.1 path place →
      world'.fs.item? place = none ∧
        ∃ temporary, result = .error (.creating temporary .alreadyExists)) ∧
    (¬ Occupies world.fs world.session.stamp.1 path place →
      world'.fs.item? place = some item ∨
        result = .ok () ∧ ∃ id old, world.fs.LeadsTo .canonical path place id old ∧
          world'.fs.item? place = some (.file (joined chunks) old.mode)) := by
  have houtcome := outcome_of_run wf path chunks
  rw [h] at houtcome
  dsimp only at houtcome
  generalize hleft : world'.fs = fs' at houtcome
  cases houtcome with
  | kept hfree => exact ⟨fun hoccupies => absurd hoccupies (hfree place), fun _ => .inl hitem⟩
  | removed htemporary occupied =>
    rw [occupies_iff htemporary occupied, occupied.item?_removed wf]
    exact ⟨fun hplace => ⟨if_pos hplace, _, rfl⟩, fun hplace => .inl ((if_neg hplace).trans hitem)⟩
  | withdrawn hfree =>
    refine ⟨fun hoccupies => absurd hoccupies (hfree place), fun _ => .inl ?_⟩
    exact ((wf.sameTree_withFile _).item place).trans hitem
  | replaced hfree hdone =>
    refine ⟨fun hoccupies => absurd hoccupies (hfree place), fun _ => ?_⟩
    obtain ⟨parent, name, id, old, hold, rfl⟩ := hdone
    by_cases hplace : place = parent ++ [name]
    · subst hplace
      exact .inr ⟨rfl, id, old, hold, by rw [item?_overwrite hold.node wf, if_pos rfl]⟩
    · exact .inl (by rw [item?_overwrite hold.node wf, if_neg hplace, hitem])

/-- A tree in which a file of somebody else has the name of the temporary file that process 7 makes
for `a` when its clock shows 0. -/
def crossed : World where
  fs :=
    { rootMode := .newDirectory
      root := .leaf (utf8 "a") (.file 0) (.leaf (utf8 ".a.7-0.tmp") (.file 1) .empty)
      files := [⟨pack [9], .newFile⟩, ⟨pack [33], 0o600⟩]
      workingDirectory := [] }
  session := .start 7 (fun n => n) none

/-- The replacement of `a` takes away the other file and leaves `a` as it is. -/
theorem item?_of_run_replace_crossed :
    ((replace (utf8 "a") [pack [32]]).run.run crossed).2.fs.item? [utf8 ".a.7-0.tmp"] = none ∧
      ((replace (utf8 "a") [pack [32]]).run.run crossed).2.fs.item? [utf8 "a"] =
        some (.file (pack [9]) .newFile) := by
  have wf : crossed.fs.WellFormed := ⟨by decide +kernel, .newDirectory, rfl⟩
  have htemporary : temporary? crossed.fs crossed.session.stamp.1 (utf8 "a") =
      some (utf8 ".a.7-0.tmp") := by decide +kernel
  have hlast : crossed.fs.lastStep (utf8 ".a.7-0.tmp") =
      .ok (.entry [] .newDirectory crossed.fs.root (utf8 ".a.7-0.tmp") false) := by decide +kernel
  have occupied : crossed.fs.Occupied (utf8 ".a.7-0.tmp") [] .newDirectory crossed.fs.root
      (utf8 ".a.7-0.tmp") (.file 1) := ⟨hlast, by decide +kernel, by decide⟩
  have hother : crossed.fs.item? [utf8 ".a.7-0.tmp"] = some (.file (pack [33]) 0o600) := by
    decide +kernel
  have hfile : crossed.fs.item? [utf8 "a"] = some (.file (pack [9]) .newFile) := by
    decide +kernel
  have htaken : ∀ place, Occupies crossed.fs crossed.session.stamp.1 (utf8 "a") place ↔
      place = [utf8 ".a.7-0.tmp"] := fun _ => occupies_iff htemporary occupied
  obtain ⟨hgone, temporary, hfailed⟩ :=
    (item?_of_run_replace wf [pack [32]] rfl hother).1 ((htaken _).mpr rfl)
  have hkept := (item?_of_run_replace wf [pack [32]] rfl hfile).2
    (mt (htaken _).mp (by decide +kernel))
  refine ⟨hgone, hkept.resolve_right fun hdone => ?_⟩
  simp [hfailed] at hdone

/-- **A file that the replacement has not made is gone,** with its contents and mode. -/
theorem item?_of_run_replace_taken :
    crossed.fs.item? [utf8 ".a.7-0.tmp"] = some (.file (pack [33]) 0o600) ∧
      ((replace (utf8 "a") [pack [32]]).run.run crossed).1 =
        .error (.creating (utf8 ".a.7-0.tmp") .alreadyExists) ∧
      ((replace (utf8 "a") [pack [32]]).run.run crossed).2.fs.item? [utf8 ".a.7-0.tmp"] = none := by
  decide +kernel

end Replacement

end Detab
