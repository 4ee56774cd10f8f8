import Detab.Proofs.FileSystem.Outlines
import Detab.Proofs.Replacement.Completing
import Detab.Proofs.Running.Traces

set_option relaxedAutoImplicit false
set_option autoImplicit false

/-!
# What a replacement asks for

A replacement first looks at the tree as it is. Then it asks once for a new file, and whatever it asks
for afterwards is about that file. So what it does to the tree is decided when the new file is made:
if nothing had its name, the replacement replaces the file or leaves everything as it was.

## Main definitions

* `Detab.Unopposed` — a request that makes a file only where nothing exists yet.

## Main results

* `Detab.Replacement.exists_ask_writeOrRemove` — the first request of writing is the one for the new
  file.
* `Detab.Replacement.quiet_replace` — a replacement neither prints nor logs.
* `Detab.Replacement.provided_replace` — **what a replacement does,** provided that its new file is
  made where nothing exists yet.
-/

namespace Detab

open FileSystem

/-- **A request that makes a file only where nothing exists yet.** -/
def Unopposed : Request → FileSystem → Prop
  | .createNew path, fs => fs.Vacant path
  | _, _ => True

/-- Whether a request is opposed can be computed, from the tree alone. -/
instance (request : Request) (fs : FileSystem) : Decidable (Unopposed request fs) :=
  match request with
  | .createNew path => inferInstanceAs (Decidable (fs.Vacant path))
  | .survey _ | .read _ | .isLink _ | .canonicalPath _ | .modeOf _ | .stamp | .append .. | .sync _
  | .setMode .. | .rename .. | .remove _ | .print _ | .log _ => inferInstanceAs (Decidable True)

namespace Replacement

variable {path destination temporary : Path} {mode : Mode} {world : World} {moment : Moment}

/-! ## Which requests are made -/

/-- Finding out what is to be replaced only looks at the tree, and into no file. -/
lemma asks_destination (path : Path) :
    (Replacement.destination path).Asks fun request =>
      request.Quiet ∧ ∀ fs id, ¬ request.LooksInto fs id := by
  refine Action.asks_bind
    (Action.asks_ofScript (Script.asks_request ⟨trivial, fun _ _ hlooks => hlooks⟩)) ?_
  intro isLink
  cases isLink with
  | true => exact Action.asks_ofScript (Script.asks_request ⟨trivial, fun _ _ hlooks => hlooks⟩)
  | false => exact Action.asks_pure path

/-- The requests that fill a new file are about this file only. -/
lemma asks_appendAll (file : FileId) (chunks : List ByteArray) :
    (appendAll file chunks).Asks Request.OfDraft := by
  induction chunks with
  | nil => exact Action.asks_pure _
  | cons bytes rest ih =>
    exact Action.asks_bind (Action.asks_ofScript (Script.asks_request trivial)) fun _ => ih

/-- **The first request of writing is the one for the new file,** and the others are about it. -/
lemma exists_ask_writeOrRemove (temporary destination : Path) (chunks : List ByteArray)
    (mode : Mode) :
    ∃ next, (writeOrRemove temporary destination chunks mode).run =
        .ask (.createNew temporary) next ∧ ∀ answer, (next answer).Asks Request.OfDraft := by
  have hremove : ∀ e : Error, Action.Asks Request.OfDraft (do
      let _ ← (Script.request (.remove temporary) : Script (Except IoError Unit))
      throw e : Action Error Unit) := fun e =>
    Action.asks_bind (Action.asks_lift (Script.asks_request trivial)) fun _ => Action.asks_throw e
  refine ⟨_, rfl, fun answer => ?_⟩
  cases answer with
  | error e => exact hremove (.creating temporary e)
  | ok file =>
    refine Action.asks_tryCatch (Action.asks_bind (asks_appendAll file chunks) fun _ => ?_) hremove
    refine Action.asks_bind (Action.asks_ofScript (Script.asks_request trivial)) fun _ => ?_
    refine Action.asks_bind (Action.asks_ofScript (Script.asks_request trivial)) fun _ => ?_
    exact Action.asks_ofScript (Script.asks_request trivial)

/-- A replacement neither prints nor logs. -/
lemma quiet_replace (path : Path) (chunks : List ByteArray) :
    (replace path chunks).Asks Request.Quiet := by
  have hlook : (Replacement.destination path).Asks Request.Quiet :=
    Script.Asks.mono (asks_destination path) fun _ h => h.1
  refine Action.asks_bind hlook fun path => ?_
  refine Action.asks_bind (Action.asks_ofScript (Script.asks_request trivial)) fun mode => ?_
  refine Action.asks_bind (Action.asks_lift (Script.asks_request trivial)) fun stamp => ?_
  cases temporaryPath? stamp path with
  | none => exact Action.asks_throw _
  | some temporary =>
    obtain ⟨next, hrun, hnext⟩ := exists_ask_writeOrRemove temporary path chunks mode
    change Script.Asks Request.Quiet (writeOrRemove temporary path chunks mode).run
    rw [hrun]
    exact ⟨trivial, fun answer => (hnext answer).mono fun _ hdraft => hdraft.quiet⟩

/-! ## What is done, provided that nothing is in the way -/

namespace AsBefore

variable {fs fs' : FileSystem}

/-- A tree that is as it was, or has one more file that nothing names, is well formed if it was
before. -/
lemma wellFormed (wf : fs.WellFormed) (h : AsBefore fs fs') : fs'.WellFormed := by
  rcases h with rfl | ⟨file, rfl⟩
  · exact wf
  · exact wf.withFile file

/-- A tree that is as it was, or has one more file that nothing names, has the entries that it had.
-/
lemma sameEntries (wf : fs.WellFormed) (h : AsBefore fs fs') : fs.SameEntries fs' := by
  rcases h with rfl | ⟨file, rfl⟩
  · exact .refl fs'
  · exact sameEntries_withFile wf file

end AsBefore

/-- The requests that are not about a new file are made of the tree as it was. -/
def OfTree (fs : FileSystem) (request : Request) (fs' : FileSystem) : Prop :=
  request.OfDraft ∨ fs' = fs

/-- The requests that are not about a new file are made of the tree as it was, and look into no file
but the one that a path leads to. -/
def OfFile (fs : FileSystem) (walk : Walk) (path : Path) (request : Request) (fs' : FileSystem) :
    Prop :=
  request.OfDraft ∨ fs' = fs ∧ ∀ id, request.LooksInto fs id → fs.Names walk path id

namespace OfFile

variable {fs fs' : FileSystem} {walk : Walk} {request : Request}

/-- A request about one file is one about the tree as it was. -/
lemma ofTree (h : OfFile fs walk path request fs') : OfTree fs request fs' :=
  h.imp_right And.left

/-- A request that looks into no file. -/
lemma of_not_looksInto (hfs : fs' = fs) (h : ∀ id, ¬ request.LooksInto fs id) :
    OfFile fs walk path request fs' :=
  .inr ⟨hfs, fun id hlooks => absurd hlooks (h id)⟩

/-- What can be read is found alike by names alone. -/
lemma toFile {contents : ByteArray} (hread : fs.read path = .ok contents)
    (h : OfFile fs .canonical path request fs') : OfFile fs .toFile path request fs' := by
  obtain ⟨goal, id, file, hleads, -, -⟩ := read_eq_ok_iff.mp hread
  refine h.imp_right fun ⟨hfs, hlooks⟩ => ⟨hfs, fun id' hid' => ?_⟩
  exact hleads.names_iff.mpr (hleads.canonical.names_iff.mp (hlooks id' hid'))

end OfFile

/-- **A temporary path is free if the request to make the temporary file is unopposed.** -/
lemma free_iff_unopposed (hchosen : temporary? world.fs world.session.stamp.1 path = some temporary) :
    Free world path ↔ Unopposed (.createNew temporary) world.fs := by
  constructor
  · exact fun hfree => hfree temporary hchosen
  · intro hvacant temporary' htemporary'
    obtain rfl : temporary = temporary' := Option.some.inj (hchosen.symm.trans htemporary')
    exact hvacant

/-- Writing, and removing the temporary file after a failure.

**Proof sketch.** That the first request is unopposed says that nothing exists under the temporary
path. Then all stages of the replacement are known. -/
lemma provided_writeOrRemove (wf : world.fs.WellFormed)
    (hdestination : destination? world.fs path = some destination)
    (htemporary : temporaryPath? world.session.stamp.1 destination = some temporary)
    (hmode : world.fs.modeOf destination = .ok mode) (chunks : List ByteArray)
    (h : moment.world.fs = world.fs) :
    (writeOrRemove temporary destination chunks mode).Provided Unopposed
      (OfFile world.fs .canonical path)
      (fun _ moment => Replaced world.fs path (joined chunks) moment.world.fs)
      (fun _ moment => AsBefore world.fs moment.world.fs) moment := by
  have hchosen : temporary? world.fs world.session.stamp.1 path = some temporary := by
    rw [temporary?_eq hdestination hmode, htemporary]
  have hthroughout := throughout_writeOrRemove wf hdestination htemporary hmode chunks h
  change Action.Throughout _ _ _ (writeOrRemove temporary destination chunks mode) _ at hthroughout
  obtain ⟨next, hrun, hnext⟩ := exists_ask_writeOrRemove temporary destination chunks mode
  unfold Action.Throughout at hthroughout
  unfold Action.Provided
  rw [hrun] at hthroughout ⊢
  intro hvacant
  have hfree : Free world path := (free_iff_unopposed hchosen).mpr (h ▸ hvacant)
  refine ⟨.of_not_looksInto h fun _ hlooks => hlooks, fun fault => ?_⟩
  refine ((hthroughout.2 fault).provided (hnext _) fun _ _ hdraft _ => .inl hdraft).mono
    (fun _ _ hnow => hnow) fun result moment hend => ?_
  cases result with
  | ok _ => exact hend
  | error e => exact hend hfree

/-- **What a replacement does,** provided that its new file is made where nothing exists yet: it
replaces the file, or it fails and leaves the tree as it was, up to a file that nothing names.

**Proof sketch.** The requests in order. The look-ups leave the tree alone and look into no other
file, and each of them may fail; with a temporary path chosen the rest is `provided_writeOrRemove`.
-/
lemma provided_replace (wf : world.fs.WellFormed) (path : Path) (chunks : List ByteArray)
    (h : moment.world = world) :
    (replace path chunks).Provided Unopposed (OfFile world.fs .canonical path)
      (fun _ moment => Replaced world.fs path (joined chunks) moment.world.fs)
      (fun _ moment => AsBefore world.fs moment.world.fs) moment := by
  have hlook : (Replacement.destination path).Provided Unopposed
      (OfFile world.fs .canonical path)
      (fun destination moment =>
        destination? world.fs path = some destination ∧ moment.world = world)
      (fun _ moment => moment.world = world) moment :=
    (throughout_destination (fun _ h => h) h).provided (asks_destination path)
      fun _ moment hasked h => .of_not_looksInto (congrArg World.fs h) (hasked.2 _)
  refine Action.provided_bind (hlook.mono (fun _ _ hnow => hnow) ?_
    fun _ moment h => .inl (congrArg World.fs h))
  rintro destination moment ⟨hdestination, h⟩
  have hfs : moment.world.fs = world.fs := congrArg World.fs h
  have hnames : ∀ id, world.fs.Names .toFile destination id →
      world.fs.Names .canonical path id := by
    rintro id ⟨goal, hgoal, hnode⟩
    exact ⟨goal, resolve_of_destination? wf hdestination hgoal, hnode⟩
  refine Action.provided_bind (Action.provided_ofScript
    (Script.provided_request _ (.inr ⟨hfs, hnames⟩) fun fault => ?_))
  -- every look-up may fail, and then nothing has been done yet
  cases fault with
  | some fault => exact .inl hfs
  | none =>
    change Action.AtEnd _ _ (moment.world.fs.modeOf destination) _
    rw [h]
    cases hmode : world.fs.modeOf destination with
    | error e => exact .inl hfs
    | ok mode =>
      refine Action.provided_bind (Action.provided_lift
        (Script.provided_request _ (.of_not_looksInto hfs fun _ hlooks => hlooks) fun fault => ?_))
      set moment' : Moment := (moment.after none (.modeOf destination)).2
      have h' : moment'.world = world := h
      have hafter : moment'.after fault .stamp = (world.session.stamp.1,
          ⟨moment'.asked ++ [.stamp], ⟨world.fs, world.session.stamp.2⟩⟩) := by
        cases fault <;> (rw [← h']; rfl)
      rw [hafter]
      cases htemporary : temporaryPath? world.session.stamp.1 destination with
      | none => exact .inl rfl
      | some temporary => exact provided_writeOrRemove wf hdestination htemporary hmode chunks rfl

end Replacement

end Detab
