import Detab.Proofs.FileSystem.Drafts
import Detab.Proofs.FileSystem.Reading
import Detab.Proofs.Replacement.Temporary
import Detab.Proofs.Running.Throughout

set_option relaxedAutoImplicit false
set_option autoImplicit false

/-!
# The stages of a replacement

A replacement goes through few stages: the tree is as it was; there is a draft beside the file; the
file has been overwritten; or the draft has been removed again. This file follows the script of a
replacement, under any faults, from stage to stage.

## Main definitions

* `Detab.Replacement.Replaced` — the tree after a replacement.
* `Detab.Replacement.Stage` — what a moment of a replacement may look like.

## Main results

* `Detab.Replacement.throughout_appendAll`, `Detab.Replacement.throughout_writeAndRename` — what the
  parts of a replacement do.
* `Detab.Replacement.throughout_replace` — **every moment of a replacement is at one of the stages,**
  and how it ends.
-/

namespace Detab.Replacement

open Detab.Path FileSystem

/-- The contents that some chunks make up. -/
def joined (chunks : List ByteArray) : ByteArray :=
  pack (chunks.flatMap unpack)

/-- The tree in which the file at a path has been replaced: it has new contents and its old mode. -/
def Replaced (fs : FileSystem) (path : Path) (contents : ByteArray) (fs' : FileSystem) : Prop :=
  ∃ parent name id old, fs.LeadsTo .canonical path (parent ++ [name]) id old ∧
    fs' = fs.overwrite parent name ⟨contents, old.mode⟩

/-- **What a moment of a replacement may look like.** -/
inductive Stage (fs : FileSystem) (stamp : Stamp) (path : Path) (contents : ByteArray) :
    Moment → Prop
  /-- Nothing has been done yet, or nothing can be done. -/
  | untouched {moment : Moment} : moment.world.fs = fs → Stage fs stamp path contents moment
  /-- There is a draft under the temporary path. -/
  | drafting {moment : Moment} {temporary : Path} {parent : Place} {mode : Mode}
      {entries : Directory} {t : Name} {file : File} :
      temporary? fs stamp path = some temporary → fs.Room temporary parent mode entries t →
        moment.world.fs = fs.draft parent t file → Stage fs stamp path contents moment
  /-- The draft has been given the name of the file. -/
  | replaced {moment : Moment} :
      Replaced fs path contents moment.world.fs →
        (∃ source target, .rename source target ∈ moment.asked) →
          Stage fs stamp path contents moment
  /-- The draft has been removed. -/
  | withdrawn {moment : Moment} {file : File} :
      moment.world.fs = fs.withFile file → Stage fs stamp path contents moment

variable {fs : FileSystem} {stamp : Stamp} {path destination temporary : Path} {parent : Place}
  {t : Name} {mode : Mode} {world : World} {always : Moment → Prop}

/-! ## The file to be replaced -/

/-- A draft that was given the name of the file has replaced it.

**Proof sketch.** The draft was beside what the path to be replaced leads to, and that is a file,
the one whose mode was found. So the renaming has overwritten it. -/
lemma replaced_of_rename (wf : fs.WellFormed) (hdestination : destination? fs path = some destination)
    (htemporary : temporaryPath? stamp destination = some temporary)
    (hmode : fs.modeOf destination = .ok mode) {m : Mode} {entries : Directory}
    (room : fs.Room temporary parent m entries t) {contents : ByteArray} {fs' : FileSystem}
    (h : (fs.draft parent t ⟨contents, mode⟩).rename temporary destination = .ok fs') :
    Replaced fs path contents fs' := by
  obtain ⟨⟨split, name⟩, hsplit, -⟩ := Option.map_eq_some_iff.mp htemporary
  obtain ⟨-, -, -, -, -, hname, -⟩ := splitName?_spec hsplit
  obtain ⟨goal, hgoal⟩ := exists_resolve_of_modeOf hmode
  obtain ⟨rfl, ⟨id, hnode⟩, rfl⟩ := room.rename_draft wf hsplit htemporary
    (isStep_temporaryName stamp hname.2.2.2) (temporaryName_ne stamp name)
    (settled_of_destination? wf hdestination) hgoal h
  obtain ⟨old, hold, rfl⟩ := exists_leadsTo_of_modeOf hmode hgoal hnode
  exact ⟨parent, name, id, old,
    ⟨resolve_of_destination? wf hdestination hgoal, hnode, hold.file⟩, rfl⟩

/-! ## Requests about a draft -/

section Drafting

variable {moment : Moment} {file : File} {m : Mode} {entries : Directory}

/-- Making the temporary file makes a draft, or nothing happens.

**Proof sketch.** By the fault and by the answer: a file has been made, and there was room for it,
or nothing has happened. -/
lemma throughout_createNew (halways : ∀ moment : Moment, moment.world.fs = fs → always moment)
    (hdraft : ∀ parent m entries t, fs.Room temporary parent m entries t →
      ∀ moment : Moment, moment.world.fs = fs.draft parent t ⟨.empty, .newFile⟩ → always moment)
    (h : moment.world.fs = fs) :
    Action.Throughout always
      (fun id moment => ∃ parent m entries t, fs.Room temporary parent m entries t ∧
        id = fs.files.length ∧ moment.world.fs = fs.draft parent t ⟨.empty, .newFile⟩)
      (fun _ moment => moment.world.fs = fs)
      (.ofScript (.creating temporary) (.request (.createNew temporary)) : Action Error FileId)
      moment := by
  refine Action.throughout_ofScript (Script.throughout_request _ (halways _ h) fun fault => ?_)
  cases fault with
  | some fault => exact ⟨halways _ h, h⟩
  | none =>
    rcases hnew : fs.createNew temporary with e | ⟨id, fs₁⟩
    · have hafter : moment.after none (.createNew temporary) =
          (.error e, ⟨moment.asked ++ [.createNew temporary], ⟨fs, moment.world.session⟩⟩) := by
        simp [Moment.after, World.answerUnder, World.answer, answer, h, hnew]
      rw [hafter]
      exact ⟨halways _ rfl, rfl⟩
    · obtain ⟨parent, m, entries, t, room, rfl, rfl⟩ := exists_room_of_createNew hnew
      have hafter : moment.after none (.createNew temporary) =
          (.ok fs.files.length, ⟨moment.asked ++ [.createNew temporary],
            ⟨fs.draft parent t ⟨.empty, .newFile⟩, moment.world.session⟩⟩) := by
        simp [Moment.after, World.answerUnder, World.answer, answer, h, hnew]
      rw [hafter]
      exact ⟨hdraft _ _ _ _ room _ rfl, parent, m, entries, t, room, rfl, rfl⟩

variable (halways : ∀ moment file, moment.world.fs = fs.draft parent t file → always moment)

include halways

/-- Writing chunks to a draft makes the draft of a longer file, or at least of some file.

**Proof sketch.** Induction on the chunks. A write that fails has added a part of its chunk. -/
lemma throughout_appendAll (chunks : List ByteArray)
    (h : moment.world.fs = fs.draft parent t file) :
    (appendAll fs.files.length chunks).Throughout always
      (fun _ moment => moment.world.fs = fs.draft parent t
        { file with contents := pack (unpack file.contents ++ chunks.flatMap unpack) })
      (fun _ moment => ∃ file, moment.world.fs = fs.draft parent t file) moment := by
  induction chunks generalizing file moment with
  | nil =>
    refine Action.throughout_pure (halways _ _ h) ?_
    simpa using h
  | cons bytes rest ih =>
    refine Action.throughout_bind (Action.throughout_ofScript
      (Script.throughout_request _ (halways _ _ h) fun fault => ?_))
    cases fault with
    | none =>
      have hwritten : (moment.after none (.append fs.files.length bytes)).2.world.fs =
          fs.draft parent t { file with contents := file.contents ++ bytes } := by
        change moment.world.fs.append fs.files.length bytes = _
        rw [h, append_draft]
      refine ⟨halways _ _ hwritten, (ih hwritten).mono (fun _ moment _ hok => ?_)
        fun _ _ _ herror => herror⟩
      simpa using hok
    | some fault =>
      have hwritten :
          (moment.after (some fault) (.append fs.files.length bytes)).2.world.fs =
            fs.draft parent t
              { file with contents := file.contents ++ bytes.extract 0 fault.through } := by
        change moment.world.fs.append fs.files.length _ = _
        rw [h, append_draft]
      exact ⟨halways _ _ hwritten, _, hwritten⟩

/-- Making sure that a draft is on the disk leaves it as it is, whether this fails or not. -/
lemma throughout_sync (id : FileId) (h : moment.world.fs = fs.draft parent t file) :
    (attempt (.request (.sync id))).Throughout always
      (fun _ moment => moment.world.fs = fs.draft parent t file)
      (fun _ moment => moment.world.fs = fs.draft parent t file) moment := by
  refine Action.throughout_ofScript (Script.throughout_request _ (halways _ _ h) fun fault => ?_)
  cases fault <;> exact ⟨halways _ _ h, h⟩

/-- A draft gets a mode, or stays as it is when this fails. -/
lemma throughout_setMode (room : fs.Room temporary parent m entries t) (mode : Mode)
    (h : moment.world.fs = fs.draft parent t file) :
    (attempt (.request (.setMode temporary mode))).Throughout always
      (fun _ moment => moment.world.fs = fs.draft parent t { file with mode := mode })
      (fun _ moment => moment.world.fs = fs.draft parent t file) moment := by
  refine Action.throughout_ofScript (Script.throughout_request _ (halways _ _ h) fun fault => ?_)
  cases fault with
  | some fault => exact ⟨halways _ _ h, h⟩
  | none =>
    have hset : (fs.draft parent t file).setMode temporary mode =
        .ok (fs.draft parent t { file with mode := mode }) := room.setMode_draft mode
    have hafter : moment.after none (.setMode temporary mode) =
        (.ok (), ⟨moment.asked ++ [.setMode temporary mode],
          ⟨fs.draft parent t { file with mode := mode }, moment.world.session⟩⟩) := by
      simp [Moment.after, World.answerUnder, World.answer, answer, answerChange, h, hset]
    rw [hafter]
    exact ⟨halways _ _ rfl, rfl⟩

/-- Giving a draft a name does that, or nothing happens.

**Proof sketch.** By the fault and by the answer. After a success the request is among those that
were made, which is what the last stage asks for. -/
lemma throughout_rename {done : FileSystem → Prop}
    (hdone : ∀ fs', (fs.draft parent t file).rename temporary path = .ok fs' → done fs')
    (hrenamed : ∀ moment : Moment, .rename temporary path ∈ moment.asked →
      done moment.world.fs → always moment)
    (h : moment.world.fs = fs.draft parent t file) :
    (attempt (.request (.rename temporary path))).Throughout always
      (fun _ moment => done moment.world.fs)
      (fun _ moment => moment.world.fs = fs.draft parent t file) moment := by
  refine Action.throughout_ofScript (Script.throughout_request _ (halways _ _ h) fun fault => ?_)
  cases fault with
  | some fault => exact ⟨halways _ _ h, h⟩
  | none =>
    cases hname : (fs.draft parent t file).rename temporary path with
    | error e =>
      have hafter : moment.after none (.rename temporary path) =
          (.error e, ⟨moment.asked ++ [.rename temporary path],
            ⟨fs.draft parent t file, moment.world.session⟩⟩) := by
        simp [Moment.after, World.answerUnder, World.answer, answer, answerChange, h, hname]
      rw [hafter]
      exact ⟨halways _ _ rfl, rfl⟩
    | ok fs' =>
      have hafter : moment.after none (.rename temporary path) =
          (.ok (), ⟨moment.asked ++ [.rename temporary path],
            ⟨fs', moment.world.session⟩⟩) := by
        simp [Moment.after, World.answerUnder, World.answer, answer, answerChange, h, hname]
      rw [hafter]
      exact ⟨hrenamed _ (by simp) (hdone fs' hname), hdone fs' hname⟩

end Drafting

/-! ## The parts of a replacement -/

/-- The temporary path is named after the path that is replaced, once its mode has been found. -/
lemma temporary?_eq (hdestination : destination? fs path = some destination)
    (hmode : fs.modeOf destination = .ok mode) :
    temporary? fs stamp path = temporaryPath? stamp destination := by
  simp [temporary?, hdestination, hmode]

/-- Finding out what is to be replaced changes nothing.

**Proof sketch.** By the faults and answers of the two look-ups, neither of which changes the world.
-/
lemma throughout_destination {moment : Moment}
    (halways : ∀ moment : Moment, moment.world = world → always moment) (h : moment.world = world) :
    (Replacement.destination path).Throughout always
      (fun destination moment =>
        destination? world.fs path = some destination ∧ moment.world = world)
      (fun _ moment => moment.world = world) moment := by
  refine Action.throughout_bind (Action.throughout_ofScript
    (Script.throughout_request _ (halways _ h) fun fault => ?_))
  cases fault with
  | some fault => exact ⟨halways _ h, h⟩
  | none =>
    have hanswer : (moment.after none (.isLink path)).1 = world.fs.isLink path := by
      rw [← h]
      rfl
    refine ⟨halways _ h, ?_⟩
    rw [hanswer]
    rcases hlink : world.fs.isLink path with e | _ | _
    · exact h
    · exact Action.throughout_pure (halways _ h) ⟨by simp [destination?, hlink], h⟩
    · refine Action.throughout_ofScript (Script.throughout_request _ (halways _ h) fun fault => ?_)
      cases fault with
      | some fault => exact ⟨halways _ h, h⟩
      | none =>
        refine ⟨halways _ h, ?_⟩
        change Action.AtEnd _ _ (moment.world.fs.canonicalPath path) _
        rw [h]
        cases hpath : world.fs.canonicalPath path with
        | error e => exact h
        | ok destination => exact ⟨by simp [destination?, hlink, hpath, Except.toOption], h⟩

/-- **Filling a draft and giving it the name of the file.** A failure leaves the tree as it was, or
with a draft.

**Proof sketch.** Each request takes one draft to the next one. When the last of them is given the
name of the file, all chunks have been written and the mode has been set. -/
lemma throughout_writeAndRename (wf : fs.WellFormed)
    (hdestination : destination? fs path = some destination)
    (htemporary : temporaryPath? stamp destination = some temporary)
    (hmode : fs.modeOf destination = .ok mode) (chunks : List ByteArray)
    (halways : ∀ moment, Stage fs stamp path (joined chunks) moment → always moment)
    {moment : Moment} (h : moment.world.fs = fs) :
    (writeAndRename temporary destination chunks mode).Throughout always
      (fun _ moment => Replaced fs path (joined chunks) moment.world.fs)
      (fun _ moment => moment.world.fs = fs ∨ ∃ parent m entries t file,
        fs.Room temporary parent m entries t ∧ moment.world.fs = fs.draft parent t file)
      moment := by
  have hchosen : temporary? fs stamp path = some temporary := by
    rw [temporary?_eq hdestination hmode, htemporary]
  have hdraft : ∀ parent m entries t, fs.Room temporary parent m entries t →
      ∀ (moment : Moment) (file : File), moment.world.fs = fs.draft parent t file →
        always moment :=
    fun _ _ _ _ room moment file h => halways moment (.drafting hchosen room h)
  refine Action.throughout_bind ((throughout_createNew (fun moment h => halways moment (.untouched h))
    (fun _ _ _ _ room moment h => hdraft _ _ _ _ room moment _ h) h).mono ?_
    fun _ _ _ h => .inl h)
  rintro _ moment - ⟨parent, m, entries, t, room, rfl, h⟩
  have halways' := hdraft parent m entries t room
  refine Action.throughout_bind ((throughout_appendAll halways' chunks h).mono ?_
    fun _ _ _ ⟨file, h⟩ => .inr ⟨parent, m, entries, t, file, room, h⟩)
  rintro _ moment - h
  refine Action.throughout_bind ((throughout_sync halways' fs.files.length h).mono ?_
    fun _ _ _ h => .inr ⟨parent, m, entries, t, _, room, h⟩)
  rintro _ moment - h
  refine Action.throughout_bind ((throughout_setMode halways' room mode h).mono ?_
    fun _ _ _ h => .inr ⟨parent, m, entries, t, _, room, h⟩)
  rintro _ moment - h
  have hrename : ∀ fs', (fs.draft parent t ⟨joined chunks, mode⟩).rename temporary destination =
      .ok fs' → Replaced fs path (joined chunks) fs' :=
    fun _ hname => replaced_of_rename wf hdestination htemporary hmode room hname
  exact (throughout_rename halways' hrename
    (fun moment hasked hdone => halways moment (.replaced hdone ⟨_, _, hasked⟩)) h).mono
    (fun _ _ _ hdone => hdone) fun _ _ _ h => .inr ⟨parent, m, entries, t, _, room, h⟩

/-! ## The whole replacement -/

/-- At one of the stages, if nothing was under the temporary path. -/
def AtStage (world : World) (path : Path) (chunks : List ByteArray) (moment : Moment) : Prop :=
  Free world path → Stage world.fs world.session.stamp.1 path (joined chunks) moment

/-- A tree that is as it was or has a draft beside it. -/
def AtMostDraft (fs : FileSystem) (temporary : Path) (moment : Moment) : Prop :=
  moment.world.fs = fs ∨ ∃ parent m entries t file,
    fs.Room temporary parent m entries t ∧ moment.world.fs = fs.draft parent t file

/-- A tree that is as it was, or has one more file that nothing names. -/
def AsBefore (fs fs' : FileSystem) : Prop :=
  fs' = fs ∨ ∃ file, fs' = fs.withFile file

/-- A tree that is as it was, up to a file that nothing names, is the same tree. -/
lemma AsBefore.sameTree {fs' : FileSystem} (wf : fs.WellFormed) (h : AsBefore fs fs') :
    fs.SameTree fs' := by
  rcases h with rfl | ⟨file, rfl⟩
  · exact .refl fs'
  · exact wf.sameTree_withFile file

/-- As it was, but for a file that nothing names, if nothing was under the temporary path. -/
def Undone (world : World) (path : Path) (moment : Moment) : Prop :=
  Free world path → AsBefore world.fs moment.world.fs

/-- What has been undone is at the first stage. -/
lemma Undone.atStage {chunks : List ByteArray} {moment : Moment} (h : Undone world path moment) :
    AtStage world path chunks moment := by
  intro hfree
  rcases h hfree with h | ⟨file, h⟩
  · exact .untouched h
  · exact .withdrawn h

/-- When nothing has happened there is nothing to be undone. -/
lemma undone_of_eq {moment : Moment} (h : moment.world = world) : Undone world path moment :=
  fun _ => .inl (by rw [h])

/-- **Removing the temporary file** takes a draft away, if there is one. -/
lemma undone_remove {moment : Moment} (fault : Option Fault)
    (hvacant : Free world path → world.fs.Vacant temporary)
    (h : AtMostDraft world.fs temporary moment) :
    Undone world path (moment.after fault (.remove temporary)).2 := by
  intro hfree
  have hafter : (moment.after fault (.remove temporary)).2.world.fs =
      (answerChange moment.world.fs (moment.world.fs.remove temporary)).2 := by
    cases fault <;> rfl
  rw [hafter]
  rcases h with h | ⟨parent, m, entries, t, file, room, h⟩
  · obtain ⟨e, he⟩ := exists_error_of_remove_of_vacant (hvacant hfree)
    exact .inl (by rw [h, he]; rfl)
  · exact .inr ⟨file, by rw [h, room.remove_draft]; rfl⟩

/-- Writing, and removing the temporary file after a failure.

**Proof sketch.** Writing is at one of the stages at every moment, by `throughout_writeAndRename`.
When it fails, removing the temporary path undoes it, whether a fault meets the removal or not. -/
lemma throughout_writeOrRemove (wf : world.fs.WellFormed)
    (hdestination : destination? world.fs path = some destination)
    (htemporary : temporaryPath? world.session.stamp.1 destination = some temporary)
    (hmode : world.fs.modeOf destination = .ok mode) (chunks : List ByteArray) {moment : Moment}
    (h : moment.world.fs = world.fs) :
    Action.Throughout (AtStage world path chunks)
      (fun _ moment => Replaced world.fs path (joined chunks) moment.world.fs)
      (fun _ moment => Undone world path moment)
      (tryCatch (writeAndRename temporary destination chunks mode) fun e => do
        let _ ← (Script.request (.remove temporary) : Script (Except IoError Unit))
        throw e) moment := by
  have hchosen : temporary? world.fs world.session.stamp.1 path = some temporary := by
    rw [temporary?_eq hdestination hmode, htemporary]
  have hvacant : Free world path → world.fs.Vacant temporary :=
    fun hfree => hfree temporary hchosen
  have hwrite := throughout_writeAndRename wf hdestination htemporary hmode chunks
    (fun moment hstage (_ : Free world path) => hstage) h
  refine Action.throughout_tryCatch (hwrite.mono (fun _ _ _ hdone => hdone) ?_)
  intro e moment hstage hleft
  refine Action.throughout_bind (Action.throughout_lift
    (Script.throughout_request _ hstage fun fault => ?_))
  have hundone := undone_remove fault hvacant hleft
  exact ⟨hundone.atStage, Action.throughout_throw hundone.atStage hundone⟩

/-- **Every moment of a replacement is at one of the stages,** if nothing was under the temporary
path. A replacement that succeeds has replaced the file, and one that fails leaves at most a file
that nothing names.

**Proof sketch.** Looking at the path changes nothing. After a failure the tree is as it was, or has
a draft; then the draft is removed. -/
lemma throughout_replace (wf : world.fs.WellFormed) (path : Path) (chunks : List ByteArray)
    {moment : Moment} (h : moment.world = world) :
    (replace path chunks).Throughout (AtStage world path chunks)
      (fun _ moment => Replaced world.fs path (joined chunks) moment.world.fs)
      (fun _ moment => Undone world path moment) moment := by
  have huntouched : ∀ moment : Moment, moment.world = world → AtStage world path chunks moment :=
    fun moment h => (undone_of_eq h).atStage
  refine Action.throughout_bind ((throughout_destination huntouched h).mono ?_
    fun _ _ _ h => undone_of_eq h)
  rintro destination moment - ⟨hdestination, h⟩
  refine Action.throughout_bind (Action.throughout_ofScript
    (Script.throughout_request _ (huntouched _ h) fun fault => ?_))
  cases fault with
  | some fault => exact ⟨huntouched _ h, undone_of_eq h⟩
  | none =>
    refine ⟨huntouched _ h, ?_⟩
    change Action.AtEnd _ _ (moment.world.fs.modeOf destination) _
    rw [h]
    cases hmode : world.fs.modeOf destination with
    | error e => exact undone_of_eq h
    | ok mode =>
      refine Action.throughout_bind (Action.throughout_lift
        (Script.throughout_request _ (huntouched _ h) fun fault => ?_))
      set moment' : Moment := (moment.after none (.modeOf destination)).2
      have hafter : moment'.after fault .stamp = (world.session.stamp.1,
          ⟨moment'.asked ++ [.stamp], ⟨world.fs, world.session.stamp.2⟩⟩) := by
        have h' : moment'.world = world := h
        cases fault <;> (rw [← h']; rfl)
      have hfs : Undone world path ⟨moment'.asked ++ [.stamp], ⟨world.fs, world.session.stamp.2⟩⟩ :=
        fun _ => .inl rfl
      rw [hafter]
      refine ⟨hfs.atStage, ?_⟩
      cases htemporary : temporaryPath? world.session.stamp.1 destination with
      | none => exact Action.throughout_throw hfs.atStage hfs
      | some temporary =>
        exact throughout_writeOrRemove wf hdestination htemporary hmode chunks rfl

end Detab.Replacement
