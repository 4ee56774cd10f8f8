import Detab.Proofs.FileSystem.Reaching
import Detab.Proofs.Replacement.Stages
import Detab.Proofs.Running.Actions

set_option relaxedAutoImplicit false
set_option autoImplicit false

/-!
# Replacements that succeed

A replacement that succeeds leaves a tree that does not depend on the name of its temporary file. So
it succeeds as well, and leaves the same tree, when it is another process that replaces the file, at
another time, as long as its own temporary name is free and does not make the temporary path too long.

## Main definitions

* `Detab.Replacement.Succeeding` — what has to be so for a replacement to succeed.

## Main results

* `Detab.Replacement.run_writeAndRename` — the run that fills a draft and gives it its name.
* `Detab.Replacement.run_replace_of_chosen`, `Detab.Replacement.exists_run_replace_of_eq_none` — a
  replacement up to the choice of its temporary path.
* `Detab.Replacement.exists_succeeding_of_run`, `Detab.Replacement.Succeeding.run` — **when a
  replacement succeeds.**
* `Detab.Replacement.run_replace_of_free` — **a replacement that succeeds for one process succeeds for
  any other** whose temporary path is free and not too long.
-/

namespace Detab

namespace FileSystem

open Detab.Path

variable {fs : FileSystem} {path temporary : Path} {parent : Place} {mode : Mode}
  {entries : Directory} {n name : Name} {split : List Bytes} {rename : Name → Name}

/-- Under a path whose last step cannot be found no file is made. -/
lemma createNew_of_error {e : IoError} (h : fs.lastStep temporary = .error e) :
    fs.createNew temporary = .error e := by
  simp [createNew, h]

/-- And none is removed. -/
lemma remove_of_error {e : IoError} (h : fs.lastStep temporary = .error e) :
    fs.remove temporary = .error e := by
  simp [remove, h]

/-- Where there is room for a draft, a new file can be made. -/
lemma Room.createNew {t : Name} (room : fs.Room temporary parent mode entries t) :
    fs.createNew temporary =
      .ok (fs.files.length, fs.draft parent t ⟨.empty, .newFile⟩) := by
  simp only [FileSystem.createNew, room.lastStep, room.free, room.canWrite]
  rfl

end FileSystem

namespace Replacement

open Detab.Path FileSystem

variable {fs fs' : FileSystem} {path destination temporary : Path} {parent : Place}
  {mode m : Mode} {entries : Directory} {t : Name} {world world' : World} {session : Session}
  {chunks : List ByteArray}

/-! ## The runs of a replacement -/

/-- **Finding out what is to be replaced** changes nothing, and what is found depends on the tree alone.

**Proof sketch.** By the two look-ups: whether the path is a link, and if so what its canonical path
is. Both are answered by the tree. -/
lemma exists_run_destination (fs : FileSystem) (path : Path) :
    ∃ result, (∀ session, (Replacement.destination path).run.run ⟨fs, session⟩ =
        (result, ⟨fs, session⟩)) ∧
      ∀ destination, result = .ok destination ↔ destination? fs path = some destination := by
  have hlink : ∀ session, (attempt (.request (.isLink path))).run.run ⟨fs, session⟩ =
      ((fs.isLink path).mapError .request, ⟨fs, session⟩) :=
    fun session => Action.run_ofScript_of_run rfl
  cases hanswer : fs.isLink path with
  | error e =>
    rw [hanswer] at hlink
    exact ⟨_, fun session => Action.run_bind_of_error (hlink session), by simp [destination?, hanswer]⟩
  | ok isLink =>
    rw [hanswer] at hlink
    cases isLink with
    | false =>
      exact ⟨_, fun session => Action.run_bind_of_ok (hlink session), by simp [destination?, hanswer]⟩
    | true =>
      have hpath : ∀ session, (attempt (.request (.canonicalPath path))).run.run ⟨fs, session⟩ =
          ((fs.canonicalPath path).mapError .request, ⟨fs, session⟩) :=
        fun session => Action.run_ofScript_of_run rfl
      refine ⟨_, fun session => (Action.run_bind_of_ok (hlink session)).trans (hpath session), ?_⟩
      cases hcanonical : fs.canonicalPath path <;>
        simp [destination?, hanswer, hcanonical, Except.mapError, Except.toOption]

/-- Writing chunks to a draft. -/
lemma run_appendAll (fs : FileSystem) (parent : Place) (t : Name) (file : File)
    (chunks : List ByteArray) (session : Session) :
    (appendAll fs.files.length chunks).run.run ⟨fs.draft parent t file, session⟩ =
      (.ok (), ⟨fs.draft parent t
        { file with contents := pack (unpack file.contents ++ chunks.flatMap unpack) }, session⟩) := by
  induction chunks generalizing file with
  | nil => simp [appendAll]
  | cons bytes rest ih =>
    have hfirst : (attempt (.request (.append fs.files.length bytes))).run.run
        ⟨fs.draft parent t file, session⟩ =
          (.ok (), ⟨(fs.draft parent t file).append fs.files.length bytes, session⟩) :=
      Action.run_ofScript_of_run rfl
    rw [append_draft] at hfirst
    rw [appendAll, Action.run_bind_of_ok hfirst, ih]
    simp

/-- **Filling a draft and giving it its name:** all requests but the last one succeed where there is
room for the draft.

**Proof sketch.** The requests in order: with room for the draft it is made, filled, made sure of,
and given its mode, and each of these answers is known. What is left is the renaming. -/
lemma run_writeAndRename (room : fs.Room temporary parent m entries t) (chunks : List ByteArray)
    (mode : Mode) (destination : Path) (session : Session) :
    let draft := fs.draft parent t ⟨joined chunks, mode⟩
    let renamed := answerChange draft (draft.rename temporary destination)
    (writeAndRename temporary destination chunks mode).run.run ⟨fs, session⟩ =
      (renamed.1.mapError .request, ⟨renamed.2, session⟩) := by
  intro draft renamed
  have hnew : (Action.ofScript (.creating temporary) (.request (.createNew temporary)) :
      Action Error FileId).run.run ⟨fs, session⟩ =
        (.ok fs.files.length, ⟨fs.draft parent t ⟨.empty, .newFile⟩, session⟩) := by
    have hanswer : World.answer ⟨fs, session⟩ (.createNew temporary) =
        (.ok fs.files.length, ⟨fs.draft parent t ⟨.empty, .newFile⟩, session⟩) := by
      simp [World.answer, answer, room.createNew]
    exact Action.run_ofScript_of_run ((Script.run_request (.createNew temporary) _).trans hanswer)
  have hwritten := run_appendAll fs parent t ⟨.empty, .newFile⟩ chunks session
  have hsync : (attempt (.request (.sync fs.files.length))).run.run
      ⟨fs.draft parent t ⟨joined chunks, .newFile⟩, session⟩ =
        (.ok (), ⟨fs.draft parent t ⟨joined chunks, .newFile⟩, session⟩) :=
    Action.run_ofScript_of_run rfl
  have hmode : (attempt (.request (.setMode temporary mode))).run.run
      ⟨fs.draft parent t ⟨joined chunks, .newFile⟩, session⟩ = (.ok (), ⟨draft, session⟩) := by
    have hanswer : World.answer ⟨fs.draft parent t ⟨joined chunks, .newFile⟩, session⟩
        (.setMode temporary mode) = (.ok (), ⟨draft, session⟩) := by
      simp [World.answer, answer, room.setMode_draft, answerChange, draft]
    exact Action.run_ofScript_of_run ((Script.run_request (.setMode temporary mode) _).trans hanswer)
  refine (Action.run_bind_of_ok hnew).trans ?_
  refine (Action.run_bind_of_ok hwritten).trans ?_
  refine (Action.run_bind_of_ok hsync).trans ?_
  refine (Action.run_bind_of_ok hmode).trans ?_
  exact Action.run_ofScript_of_run rfl

/-- Where no new file can be made, nothing else is asked for. -/
lemma run_writeAndRename_of_error {e : IoError} (h : world.fs.createNew temporary = .error e)
    (destination : Path) (chunks : List ByteArray) (mode : Mode) :
    (writeAndRename temporary destination chunks mode).run.run world =
      (.error (.creating temporary e), world) := by
  have hanswer : World.answer world (.createNew temporary) = (.error e, world) := by
    simp [World.answer, answer, h]
  have hfailed : (Action.ofScript (.creating temporary) (.request (.createNew temporary)) :
      Action Error FileId).run.run world = (.error (.creating temporary e), world) :=
    Action.run_ofScript_of_run ((Script.run_request (.createNew temporary) _).trans hanswer)
  exact Action.run_bind_of_error hfailed

/-- Where a draft was made and given its name, there was room for it.

**Proof sketch.** If the draft could not be made, the writing would have failed. With room for it
the run is that of `run_writeAndRename`, whose result is that of the renaming. -/
lemma exists_of_run_writeAndRename
    (h : (writeAndRename temporary destination chunks mode).run.run world = (.ok (), world')) :
    ∃ parent m entries t, world.fs.Room temporary parent m entries t ∧
      (world.fs.draft parent t ⟨joined chunks, mode⟩).rename temporary destination =
        .ok world'.fs := by
  cases hnew : world.fs.createNew temporary with
  | error e =>
    rw [run_writeAndRename_of_error hnew] at h
    simp at h
  | ok made =>
    obtain ⟨parent, m, entries, t, room, -, -⟩ := exists_room_of_createNew hnew
    refine ⟨parent, m, entries, t, room, ?_⟩
    have hends := (run_writeAndRename room chunks mode destination world.session).symm.trans h
    cases hrename : (world.fs.draft parent t ⟨joined chunks, mode⟩).rename temporary
        destination with
    | error e => simp [hrename, answerChange, Except.mapError] at hends
    | ok fs' =>
      simp only [hrename, answerChange, Except.mapError, Prod.mk.injEq, true_and] at hends
      rw [← hends]

/-- Writing, and removing the temporary file after a failure, which is thrown again. -/
def writeOrRemove (temporary destination : Path) (chunks : List ByteArray) (mode : Mode) :
    Action Error Unit :=
  tryCatch (writeAndRename temporary destination chunks mode) fun e => do
    let _ ← (Script.request (.remove temporary) : Script (Except IoError Unit))
    throw e

/-- **Writing with clean-up, in one equation:** when the writing fails the temporary path is
removed, what comes of that is not looked at, and the error of the writing is the result. -/
lemma run_writeOrRemove (temporary destination : Path) (chunks : List ByteArray) (mode : Mode)
    (world : World) :
    (writeOrRemove temporary destination chunks mode).run.run world =
      match (writeAndRename temporary destination chunks mode).run.run world with
      | (.ok (), world) => (.ok (), world)
      | (.error e, world) =>
        (.error e, ⟨(answerChange world.fs (world.fs.remove temporary)).2, world.session⟩) := by
  refine (Action.run_tryCatch _ _ _).trans ?_
  rcases (writeAndRename temporary destination chunks mode).run.run world with ⟨e | _, _⟩ <;> rfl

/-- Where neither a new file can be made nor an old one removed, nothing is changed. -/
lemma run_writeOrRemove_of_error {e e' : IoError} (hnew : world.fs.createNew temporary = .error e)
    (hremove : world.fs.remove temporary = .error e') (destination : Path) (chunks : List ByteArray)
    (mode : Mode) :
    (writeOrRemove temporary destination chunks mode).run.run world =
      (.error (.creating temporary e), world) := by
  rw [run_writeOrRemove, run_writeAndRename_of_error hnew]
  simp only [hremove, answerChange]

/-- Asking for the mode of what is to be replaced. -/
lemma run_modeOf (destination : Path) (world : World) :
    (attempt (.request (.modeOf destination))).run.run world =
      ((world.fs.modeOf destination).mapError .request, world) :=
  Action.run_ofScript_of_run rfl

/-- Looking at the clock. -/
lemma run_stamp (world : World) :
    (liftM (Script.request .stamp : Script Stamp) : Action Error Stamp).run.run world =
      (.ok world.session.stamp.1, ⟨world.fs, world.session.stamp.2⟩) :=
  Action.run_lift _ _

/-- **A replacement that can choose a temporary path** goes on to write there. -/
lemma run_replace_of_chosen (hleads : destination? world.fs path = some destination)
    (hmode : world.fs.modeOf destination = .ok mode)
    (hchosen : temporaryPath? world.session.stamp.1 destination = some temporary)
    (chunks : List ByteArray) :
    (replace path chunks).run.run world =
      (writeOrRemove temporary destination chunks mode).run.run
        ⟨world.fs, world.session.stamp.2⟩ := by
  obtain ⟨result, hrun, hdestination⟩ := exists_run_destination world.fs path
  obtain rfl : result = .ok destination := (hdestination destination).mpr hleads
  have hmodeOf := run_modeOf destination world
  rw [hmode] at hmodeOf
  refine (Action.run_bind_of_ok (hrun world.session)).trans ?_
  refine (Action.run_bind_of_ok hmodeOf).trans ?_
  refine (Action.run_bind_of_ok (run_stamp world)).trans ?_
  rw [hchosen]
  rfl

/-- **A replacement that cannot choose a temporary path,** because there is nothing that it could
replace, or nothing that has a file name, fails and leaves the tree alone. The error depends on the
tree alone.

**Proof sketch.** By the three ways not to get at a temporary path: nothing can be found out about
the path, its mode is not found, or it has no file name. The third one does not depend on the time.
-/
lemma exists_run_replace_of_eq_none (stamp : Stamp) (h : temporary? fs stamp path = none)
    (chunks : List ByteArray) :
    ∃ e, ∀ session, ∃ session', (replace path chunks).run.run ⟨fs, session⟩ =
      (.error e, ⟨fs, session'⟩) := by
  obtain ⟨result, hrun, hdestination⟩ := exists_run_destination fs path
  cases result with
  | error e => exact ⟨e, fun session => ⟨_, Action.run_bind_of_error (hrun session)⟩⟩
  | ok destination =>
    have hleads := (hdestination destination).mp rfl
    have hmodeOf := fun session => run_modeOf destination ⟨fs, session⟩
    cases hmode : fs.modeOf destination with
    | error e =>
      refine ⟨.request e, fun session => ⟨session, ?_⟩⟩
      have hfails := hmodeOf session
      rw [hmode] at hfails
      exact (Action.run_bind_of_ok (hrun session)).trans (Action.run_bind_of_error hfails)
    | ok mode =>
      rw [temporary?_eq hleads hmode] at h
      refine ⟨.noFileName destination, fun session => ⟨session.stamp.2, ?_⟩⟩
      have hfound := hmodeOf session
      rw [hmode] at hfound
      refine (Action.run_bind_of_ok (hrun session)).trans ?_
      refine (Action.run_bind_of_ok hfound).trans ?_
      refine (Action.run_bind_of_ok (run_stamp _)).trans ?_
      have hnone : temporaryPath? session.stamp.1 destination = none := by
        simpa [temporaryPath?, sibling?] using h
      rw [hnone]
      rfl

/-- **What has to be so for a replacement to succeed:** there is room for a draft, and the draft can
be given the name of the file. -/
structure Succeeding (fs : FileSystem) (stamp : Stamp) (path : Path) (chunks : List ByteArray)
    (destination temporary : Path) (mode : Mode) (fs' : FileSystem) : Prop where
  leads : destination? fs path = some destination
  hasMode : fs.modeOf destination = .ok mode
  chosen : temporaryPath? stamp destination = some temporary
  renamed : ∃ parent m entries t, fs.Room temporary parent m entries t ∧
    (fs.draft parent t ⟨joined chunks, mode⟩).rename temporary destination = .ok fs'

/-- **A replacement that has succeeded** has gone through all of its steps, with a path to replace,
a temporary path and a mode. -/
lemma exists_succeeding_of_run
    (h : (replace path chunks).run.run world = (.ok (), world')) :
    ∃ destination temporary mode, Succeeding world.fs world.session.stamp.1 path chunks destination
      temporary mode world'.fs := by
  cases htemporary : temporary? world.fs world.session.stamp.1 path with
  | none =>
    obtain ⟨e, hfails⟩ := exists_run_replace_of_eq_none _ htemporary chunks
    obtain ⟨session, hrun⟩ := hfails world.session
    simp [hrun] at h
  | some temporary =>
    obtain ⟨destination, mode, hleads, hmode, hchosen⟩ := exists_destination_of_temporary? htemporary
    rw [run_replace_of_chosen hleads hmode hchosen, run_writeOrRemove] at h
    rcases hwrite : (writeAndRename temporary destination chunks mode).run.run
      ⟨world.fs, world.session.stamp.2⟩ with ⟨e | ⟨⟩, written⟩
    · simp [hwrite] at h
    · rw [hwrite] at h
      obtain ⟨-, rfl⟩ := Prod.mk.inj h
      have hrenamed := exists_of_run_writeAndRename hwrite
      exact ⟨destination, temporary, mode, hleads, hmode, hchosen, hrenamed⟩

/-- **Where that is so, a replacement succeeds.** -/
lemma Succeeding.run
    (h : Succeeding world.fs world.session.stamp.1 path chunks destination temporary mode fs') :
    (replace path chunks).run.run world = (.ok (), ⟨fs', world.session.stamp.2⟩) := by
  obtain ⟨parent, m, entries, t, room, hrename⟩ := h.renamed
  have hwrite := run_writeAndRename room chunks mode destination world.session.stamp.2
  simp only [hrename, answerChange] at hwrite
  rw [run_replace_of_chosen h.leads h.hasMode h.chosen, run_writeOrRemove, hwrite]
  rfl

/-! ## Other processes -/

/-- What has to be so for one process is so for any other whose temporary path is free, unless that path
has become too long to be looked up.

**Proof sketch.** Both temporary paths end in the directory of the file, so there is room for the
other draft too. Where the draft takes the place of the file, its own name is gone. -/
lemma Succeeding.of_free {stamp : Stamp} (wf : fs.WellFormed)
    (h : Succeeding fs stamp path chunks destination temporary mode fs')
    (hfree : Free ⟨fs, session⟩ path) :
    ∃ temporary, temporaryPath? session.stamp.1 destination = some temporary ∧
      (Succeeding fs session.stamp.1 path chunks destination temporary mode fs' ∨
        (¬ Fits temporary ∧ fs.lastStep temporary = .error .nameTooLong)) := by
  obtain ⟨parent, m, entries, t, room, hrename⟩ := h.renamed
  obtain ⟨⟨split, name⟩, hsplit, -⟩ := Option.map_eq_some_iff.mp h.chosen
  obtain ⟨-, -, -, -, -, hname, -⟩ := splitName?_spec hsplit
  obtain ⟨goal, hgoal⟩ := exists_resolve_of_modeOf h.hasMode
  have hsettled := settled_of_destination? wf h.leads
  obtain ⟨-, hlast⟩ := room.lastStep_of_rename hsplit h.chosen
    (isStep_temporaryName stamp hname.2.2.2) hgoal hrename
  obtain ⟨rfl, ⟨id, hnode⟩, rfl⟩ := room.rename_draft wf hsplit h.chosen
    (isStep_temporaryName stamp hname.2.2.2) (temporaryName_ne stamp name) hsettled hgoal hrename
  have hchosen := temporaryPath?_of_splitName? session.stamp.1 hsplit
  have hvacant := hfree _ ((temporary?_eq h.leads h.hasMode).trans hchosen)
  refine ⟨_, hchosen, ?_⟩
  rcases lastStep_temporary_or hsplit hchosen hlast with htemporary | hlong
  · have room' : fs.Room _ parent m entries (temporaryName session.stamp.1 name) :=
      ⟨htemporary, hvacant _ _ _ _ _ htemporary, room.canWrite⟩
    have hfile : entries.find? name = some (.leaf (.file id)) :=
      find?_of_node? room.entry?_parent hnode
    exact .inl ⟨h.leads, h.hasMode, hchosen, parent, m, entries, _, room',
      (room'.rename_draft_eq (temporaryName_ne _ name) hlast _).1 id hfile
        (Nat.ne_of_lt (wf.id_lt hnode))⟩
  · exact .inr hlong

/-- **A replacement that succeeds for one process succeeds for any other** whose temporary path is free,
and leaves the same tree, unless that path is too long. Then it fails, and changes nothing.

**Proof sketch.** The replacement has gone through all of its steps. The other process goes through
the same ones with its own temporary path, or is told that this path is too long when it makes the
file. -/
lemma run_replace_of_free (wf : world.fs.WellFormed)
    (h : (replace path chunks).run.run world = (.ok (), world'))
    (hfree : Free ⟨world.fs, session⟩ path) :
    (replace path chunks).run.run ⟨world.fs, session⟩ = (.ok (), ⟨world'.fs, session.stamp.2⟩) ∨
      ∃ temporary ∈ temporary? world.fs session.stamp.1 path, ¬ Fits temporary ∧
        (replace path chunks).run.run ⟨world.fs, session⟩ =
          (.error (.creating temporary .nameTooLong), ⟨world.fs, session.stamp.2⟩) := by
  obtain ⟨destination, _, mode, hsucceeding⟩ := exists_succeeding_of_run h
  obtain ⟨temporary, hchosen, hother | ⟨hlong, hlast⟩⟩ := hsucceeding.of_free wf hfree
  · exact .inl (Succeeding.run hother)
  · refine .inr ⟨temporary, (temporary?_eq hsucceeding.leads hsucceeding.hasMode).trans hchosen, hlong,
      ?_⟩
    let other : World := ⟨world.fs, session⟩
    have hdestination : destination? other.fs path = some destination := hsucceeding.leads
    have hwrite := run_replace_of_chosen hdestination hsucceeding.hasMode hchosen chunks
    let ready : World := ⟨world.fs, session.stamp.2⟩
    have hnew : ready.fs.createNew temporary = .error .nameTooLong := createNew_of_error hlast
    exact hwrite.trans (run_writeOrRemove_of_error hnew (remove_of_error hlast) destination chunks mode)

end Replacement

end Detab
